/-
The program: its arguments and environment, the disk, and its two streams.
-/
import FormulaSheet.CommandLine.Run

set_option autoImplicit false

namespace FormulaSheet

/-- The cause of an error by the number that the system gives it. Some calls give the number with a
minus, which then stands here as its complement. -/
def FileError.ofCode (code : UInt32) (reason : String) : FileError :=
  match if code < 0x80000000 then code.toNat else (-code).toNat with
  | 2 => .missing
  | 20 => .notAFolder
  | 21 => .isAFolder
  | 36 => .nameTooLong
  | n => .refused reason n

/-- The cause of an error of the system. -/
def FileError.ofSystem : IO.Error → FileError
  | .noFileOrDirectory _ code reason => .ofCode code reason
  | .inappropriateType _ code reason => .ofCode code reason
  | .invalidArgument _ code reason => .ofCode code reason
  | .permissionDenied _ code reason => .ofCode code reason
  | .resourceExhausted _ code reason => .ofCode code reason
  | .resourceBusy code reason => .ofCode code reason
  | .otherError code reason => .ofCode code reason
  -- anything else is an error in the transfer itself, which has the number five
  | e => .refused (toString e) 5

/-- Whether an error says that nothing can be at a path. -/
def FileError.isAbsence : FileError → Bool
  | missing => true
  | notAFolder => true
  | nameTooLong => true
  | zeroInPath => true
  | _ => false

/-- Does something with a path that the system would cut at a zero character. -/
def onDisk {α : Type} (path : String) (action : IO α) : IO (Except FileError α) := do
  if path.toList.contains '\x00' then return .error .zeroInPath
  try
    return .ok (← action)
  catch e =>
    return .error (FileError.ofSystem e)

/-- The files on the disk. -/
instance : Files IO where
  found path := do
    match ← onDisk path (IO.FS.Handle.mk path .read) with
    | .ok _ => return true
    | .error e => return !e.isAbsence
  size path := do
    return (← onDisk path (IO.FS.readBinFile path)).map ByteArray.size
  read path := onDisk path (IO.FS.readBinFile path)
  write path content := onDisk path (IO.FS.writeBinFile path content)

end FormulaSheet

open FormulaSheet in
def main (arguments : List String) : IO UInt32 := do
  let user := Config.userPath? (← IO.getEnv "XDG_CONFIG_HOME") (← IO.getEnv "HOME")
  let outcome ← CommandLine.run arguments user
  (← IO.getStdout).putStr outcome.output
  (← IO.getStderr).putStr outcome.errors
  return outcome.exit.toUInt32
