/-
A tree of files that is a value.

An entry is known by the names that lead to it from the root, and every entry is
a file with its bytes or a folder. One folder is the working folder, where a
path starts that does not begin with a slash; any other path starts at the root.
A path is followed name by name, in folders only; a dot stays, two dots go up,
though not beyond the root.

A slash at the end asks for a folder. To look at such a path there has to be a
folder; to write to it is refused before anybody looks whether something is
there.

With this tree for its state a program has files without the disk, so what it
does to them can be computed and reasoned about.
-/
import FormulaSheet.Files.Basic
import Std.Data.ExtTreeMap

set_option autoImplicit false

namespace FormulaSheet

namespace Files

/-- What can be in a folder. -/
inductive Entry where
  | file (content : ByteArray)
  | folder

/-- The entries of a tree by the names that lead to them, and the names that lead to the working
folder. The root is always there and is not among the entries. -/
structure Tree where
  entries : Std.ExtTreeMap (List String) Entry
  working : List String

/-- What a name stands for in a folder. -/
inductive Place where
  | folder (names : List String)
  | file (names : List String) (content : ByteArray)
  /-- Nothing is there, and a file could be made. -/
  | vacant (names : List String)

/-- A path, taken apart. -/
structure Route where
  /-- The names that lead to the folder where the path starts. -/
  start : List String
  /-- The names in the path, dots among them. -/
  names : List String
  /-- Whether a slash at the end asks for a folder. -/
  slash : Bool

namespace Tree

/-- The longest name, in bytes. -/
def nameLimit : Nat := 255

/-- One more than the length of the longest path, in bytes. -/
def pathLimit : Nat := 4096

/-! ## Paths -/

/-- Splits a path at its slashes. What has been read of the first name is `name` and the names
before it are `done`, both from the end on. -/
def namesOnto (done : List String) (name : List Char) : List Char → List String
  | [] => (String.ofList name.reverse :: done).reverse
  | c :: rest =>
    if c = '/' then namesOnto (String.ofList name.reverse :: done) [] rest
    else namesOnto done (c :: name) rest

/-- The names in a path; slashes that stand side by side count as one. -/
def names (path : String) : List String :=
  (namesOnto [] [] path.toList).filter (!·.isEmpty)

def route (t : Tree) (path : String) : Except FileError Route :=
  if path.toList.contains '\x00' then .error .zeroInPath
  else if path.isEmpty then .error .missing
  else if pathLimit ≤ path.utf8ByteSize then .error .nameTooLong
  else .ok {
    start := if isAbsolute path then [] else t.working
    names := names path
    slash := path.toList.getLast? == some '/' }

/-! ## Looking -/

/-- What a name stands for in a folder. -/
def look (t : Tree) (folder : List String) (name : String) : Except FileError Place :=
  if name == "." then .ok (.folder folder)
  else if name == ".." then .ok (.folder folder.dropLast)
  else if nameLimit < name.utf8ByteSize then .error .nameTooLong
  else
    let inner := folder ++ [name]
    match t.entries[inner]? with
    | some .folder => .ok (.folder inner)
    | some (.file content) => .ok (.file inner content)
    | none => .ok (.vacant inner)

/-- The folder that names lead to. -/
def follow (t : Tree) (folder : List String) : List String → Except FileError (List String)
  | [] => .ok folder
  | name :: rest => match t.look folder name with
    | .error e => .error e
    | .ok (.folder inner) => t.follow inner rest
    | .ok (.file _ _) => .error .notAFolder
    | .ok (.vacant _) => .error .missing

/-- What is at the end of a path that is looked at. -/
def locate (t : Tree) (path : String) : Except FileError Place :=
  match t.route path with
  | .error e => .error e
  | .ok r =>
    -- with a slash at the end the last name is followed like the others
    if r.slash then (t.follow r.start r.names).map .folder
    else match t.follow r.start r.names.dropLast, r.names.getLast? with
      | .error e, _ => .error e
      | .ok folder, none => .ok (.folder folder)
      | .ok folder, some last => t.look folder last

def found (t : Tree) (path : String) : Bool :=
  match t.locate path with
  | .ok (.folder _) => true
  | .ok (.file _ _) => true
  | _ => false

def read (t : Tree) (path : String) : Except FileError ByteArray :=
  match t.locate path with
  | .error e => .error e
  | .ok (.folder _) => .error .isAFolder
  | .ok (.file _ content) => .ok content
  | .ok (.vacant _) => .error .missing

/-- The size of what is at a path; a folder has none to speak of. -/
def size (t : Tree) (path : String) : Except FileError Nat :=
  match t.locate path with
  | .error e => .error e
  | .ok (.folder _) => .ok 0
  | .ok (.file _ content) => .ok content.size
  | .ok (.vacant _) => .error .missing

/-! ## Writing -/

/-- Where the file is that a path is to be written to, or where it will be. -/
def destination (t : Tree) (path : String) : Except FileError (List String) :=
  match t.route path with
  | .error e => .error e
  | .ok r => match t.follow r.start r.names.dropLast, r.names.getLast? with
    | .error e, _ => .error e
    | .ok _, none => .error .isAFolder
    | .ok folder, some last =>
      -- whatever is there, no file can be made under a name that ends with a slash
      if r.slash then .error .isAFolder
      else match t.look folder last with
        | .error e => .error e
        | .ok (.folder _) => .error .isAFolder
        | .ok (.file names _) => .ok names
        | .ok (.vacant names) => .ok names

def insert (t : Tree) (names : List String) (e : Entry) : Tree :=
  { t with entries := t.entries.insert names e }

/-- Makes the file at a path hold the given bytes. -/
def write (t : Tree) (path : String) (content : ByteArray) : Except FileError Tree :=
  (t.destination path).map fun names => t.insert names (.file content)

/-! ## Building trees -/

/-- Goes to a name in a folder, which is made into a folder. -/
def descend (here : Tree × List String) (name : String) : Tree × List String :=
  let (t, folder) := here
  if name == "." then (t, folder)
  else if name == ".." then (t, folder.dropLast)
  else (t.insert (folder ++ [name]) .folder, folder ++ [name])

/-- Puts an entry at the end of names that start from a folder, and the folders that lead to
it. -/
def placeFrom (t : Tree) (folder names : List String) (e : Entry) : Tree :=
  let (t, names) := names.foldl descend (t, folder)
  t.insert names e

/-- Puts an entry at a path that starts from the working folder, and the folders that lead to
it. -/
def place (t : Tree) (path : String) (e : Entry) : Tree :=
  t.placeFrom t.working (names path) e

/-- The tree that has the working folder, the folders that lead to it, and nothing else. -/
def new (working : List String) : Tree :=
  (working.foldl descend (⟨∅, working⟩, [])).1

/-- The entries below the working folder, by the names that lead to them from there. -/
def inside (t : Tree) : List (List String × Entry) :=
  t.entries.toList.filterMap fun (names, e) =>
    if t.working.isPrefixOf names && names ≠ t.working then
      some (names.drop t.working.length, e)
    else none

end Tree

/-- A program whose state is a tree has the files of the tree. -/
instance : Files (StateM Tree) where
  found path := do return (← get).found path
  size path := do return (← get).size path
  read path := do return (← get).read path
  write path content := do
    match (← get).write path content with
    | .error e => return .error e
    | .ok t =>
      set t
      return .ok ()

end Files

end FormulaSheet
