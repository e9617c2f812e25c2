/-
Files, as far as the program uses them.

Four things can be done with a path: ask whether something is there, ask for its
size, read all of it, and replace all of it. Anything that can do the four will
do; the program is written for every monad that has them, and so it says the
same of the disk and of a tree of files that is a value (`Files.Tree`).

What can go wrong is told apart by cause, with the wording and the number that
the system gives it.
-/
set_option autoImplicit false

namespace FormulaSheet

/-- Why something could not be done with a path. -/
inductive FileError where
  /-- Nothing is there. -/
  | missing
  /-- A file stands where a folder would have to be. -/
  | notAFolder
  /-- A folder stands where a file would have to be. -/
  | isAFolder
  /-- A name, or the path as a whole, is too long. -/
  | nameTooLong
  /-- The path holds a zero character. -/
  | zeroInPath
  /-- What was read is not Unicode text. -/
  | notText
  /-- The system refused for another reason. -/
  | refused (reason : String) (code : Nat)
deriving DecidableEq

/-- The wording of an error that the system numbers. -/
def FileError.numbered (reason : String) (code : Nat) : String :=
  reason ++ " (os error " ++ toString code ++ ")"

def FileError.message : FileError → String
  | missing => numbered "No such file or directory" 2
  | notAFolder => numbered "Not a directory" 20
  | isAFolder => numbered "Is a directory" 21
  | nameTooLong => numbered "File name too long" 36
  | zeroInPath => "file name contained an unexpected NUL byte"
  | notText => "stream did not contain valid UTF-8"
  | refused reason code => numbered reason code

/-- The ways to get at files. -/
class Files (m : Type → Type) where
  /-- Whether a file or a folder is at a path. -/
  found : String → m Bool
  /-- The number of bytes in a file. -/
  size : String → m (Except FileError Nat)
  /-- All bytes of a file. -/
  read : String → m (Except FileError ByteArray)
  /-- Makes a file hold the given bytes and no others, and makes the file if need be. -/
  write : String → ByteArray → m (Except FileError Unit)

namespace Files

/-- Whether a path starts from the root, wherever the program runs. -/
def isAbsolute (path : String) : Bool :=
  path.toList.head? == some '/'

def join (folder name : String) : String :=
  if folder.isEmpty || folder.toList.getLast? == some '/' then folder ++ name
  else folder ++ "/" ++ name

variable {m : Type → Type} [Monad m] [Files m]

/-- The text that bytes are. -/
def decode (bytes : ByteArray) : Except FileError String :=
  match String.fromUTF8? bytes with
  | some s => .ok s
  | none => .error .notText

/-- All of a file, as text. -/
def readText (path : String) : ExceptT FileError m String := do
  let bytes ← ExceptT.mk (read path)
  ExceptT.mk (pure (decode bytes))

/-- Makes a file hold a text. -/
def writeText (path : String) (text : String) : ExceptT FileError m Unit :=
  ExceptT.mk (write path text.toUTF8)

end Files

end FormulaSheet
