import MapDocument.Disk.Basic
/-!
# Disk — a tree of files as a value

The files and folders of a disk, by their places below the root, and a
folder from which paths start that do not begin with `/`. A path is followed
name by name, and every place on the way has to be a folder.

There are no links in a tree: `..` leads back to where the name before it led
from, a place is reached by its own names only, and a change to the file at one
place shows at no other.
-/

namespace MapDocument

/-- A place below the root, outermost name first. -/
abbrev Location := List String

/-- What can be at a place. -/
inductive Entry
  | folder
  | file (content : Bytes)
deriving DecidableEq, Repr

/-- The files and folders of a disk. -/
structure FileTree where
  entries : List (Location × Entry)
  /-- Where paths start that do not begin with `/`. -/
  here : Location

namespace FileTree

/-- What is at a place. The root is always there. -/
def entry? (t : FileTree) (location : Location) : Option Entry :=
  if location = [] then some .folder else t.entries.lookup location

/-- The tree with an entry at a place, in place of the one that was there. -/
def insert (t : FileTree) (location : Location) (entry : Entry) : FileTree :=
  { t with entries := (location, entry) :: t.entries.filter (·.1 ≠ location) }

/-- The tree without the entry at a place. -/
def erase (t : FileTree) (location : Location) : FileTree :=
  { t with entries := t.entries.filter (·.1 ≠ location) }

/-! ## Following paths -/

/-- Bytes that the text of a path can have. -/
def pathLimit : Nat := 4095

/-- Bytes that a name can have. -/
def nameLimit : Nat := 255

/-- The text of a path as names: empty ones count for nothing. -/
def namesOf (path : Path) : List String :=
  ((path.text.toList.splitOnP (· = '/')).filter (· ≠ [])).map String.ofList

/-- A path ends in `/`. -/
def endsOpen (path : Path) : Bool := path.text.toList.getLast? = some '/'

/-- Where a name leads from a place. -/
def step (location : Location) (name : String) : Location :=
  if name = "." then location
  else if name = ".." then location.dropLast
  else location ++ [name]

/-- Where names lead from a place. -/
def follow (t : FileTree) (location : Location) : List String → Except DiskFault Location
  | [] => .ok location
  | name :: rest =>
    match t.entry? location with
    | none => .error .missing
    | some (.file _) => .error .notFolder
    | some .folder =>
      if nameLimit < name.utf8ByteSize then .error .nameTooLong
      else follow t (step location name) rest

/-- The place a path starts from and its names. -/
def start (t : FileTree) (path : Path) : Except DiskFault (Location × List String) :=
  if path.text.toList.contains '\x00' then .error .zeroInPath
  else if path.text.isEmpty then .error .missing
  else if pathLimit < path.text.utf8ByteSize then .error .nameTooLong
  else .ok (if path.text.toList.head? = some '/' then [] else t.here, namesOf path)

/-- The place of a path that exists, and what is there. What ends in `/` has to be a folder. -/
def find (t : FileTree) (path : Path) : Except DiskFault (Location × Entry) := do
  let (origin, names) ← t.start path
  let location ← t.follow origin (if endsOpen path then names ++ ["."] else names)
  match t.entry? location with
  | some entry => return (location, entry)
  | none => .error .missing

/-- The last name of a path, if it is one that something new can have, and the
folder that it is in, which has to be there. -/
def spot (t : FileTree) (path : Path) : Except DiskFault (Location × Option String) := do
  let (origin, names) ← t.start path
  let folder ← t.follow origin (names.dropLast ++ ["."])
  return (folder, names.getLast?.filter fun name => name ≠ "." && name ≠ "..")

/-- The place of a name in a folder, and what is there. -/
def slot (t : FileTree) (folder : Location) (name : String) :
    Except DiskFault (Location × Option Entry) := do
  let location ← t.follow folder [name]
  return (location, t.entry? location)

/-! ## Operations -/

/-- The content of the file at a path. -/
def read (t : FileTree) (path : Path) : Except DiskFault Bytes := do
  match ← t.find path with
  | (_, .file content) => return content
  | (_, .folder) => .error .isFolder

/-- The tree with new content in the file at a path. A path that ends in `/`
is for a folder, however long its last name. -/
def write (t : FileTree) (path : Path) (content : Bytes) : Except DiskFault FileTree := do
  match ← t.spot path with
  | (_, none) => .error .isFolder
  | (folder, some name) =>
    if endsOpen path then .error .isFolder
    else
      match ← t.slot folder name with
      | (_, some .folder) => .error .isFolder
      | (location, _) => return t.insert location (.file content)

/-- The tree without the file at a path. -/
def remove (t : FileTree) (path : Path) : Except DiskFault FileTree := do
  match ← t.find path with
  | (location, .file _) => return t.erase location
  | (_, .folder) => .error .isFolder

/-- The tree with a new folder at a path. -/
def makeFolder (t : FileTree) (path : Path) : Except DiskFault FileTree := do
  match ← t.spot path with
  | (_, none) => .error .exists
  | (folder, some name) =>
    match ← t.slot folder name with
    | (_, some _) => .error .exists
    | (location, none) => return t.insert location .folder

/-- Whether there is a folder at a path. -/
def isFolder (t : FileTree) (path : Path) : Bool :=
  match t.find path with
  | .ok (_, .folder) => true
  | _ => false

/-- A change of the tree, which stays as it is if the change cannot be made. -/
def attempt (change : FileTree → Except DiskFault FileTree) :
    StateM FileTree (Except DiskFault Unit) := do
  match change (← get) with
  | .ok t => set t; return .ok ()
  | .error fault => return .error fault

instance : Disk (StateM FileTree) where
  read path := do return (← get).read path
  write path content := attempt (·.write path content)
  remove path := attempt (·.remove path)
  makeFolder path := attempt (·.makeFolder path)
  isFolder path := do return (← get).isFolder path

end FileTree

end MapDocument
