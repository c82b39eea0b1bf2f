import MapDocument.Disk.Path
import MapDocument.Text.Utf8
/-!
# Disk — what is asked of it

A disk reads and writes whole files, and makes folders. Everything that is
done to a disk is said in terms of a few operations, so that it can be done
to a real one and to one that is a value (`FileTree`).
-/

namespace MapDocument

/-- Why something cannot be done to a disk. -/
inductive DiskFault
  | missing
  | exists
  | notFolder
  | isFolder
  | nameTooLong
  | zeroInPath
  /-- A text was expected. -/
  | notText
  /-- A fault reported from elsewhere, in its own words. -/
  | reported (message : String)
deriving DecidableEq, Repr

/-- The wording of a fault. -/
def DiskFault.message : DiskFault → String
  | missing => "No such file or directory (os error 2)"
  | .exists => "File exists (os error 17)"
  | notFolder => "Not a directory (os error 20)"
  | isFolder => "Is a directory (os error 21)"
  | nameTooLong => "File name too long (os error 36)"
  | zeroInPath => "file name contained an unexpected NUL byte"
  | notText => "stream did not contain valid UTF-8"
  | reported message => message

/-- The operations on a disk. -/
class Disk (m : Type → Type) where
  /-- The content of a file. -/
  read : Path → m (Except DiskFault Bytes)
  /-- Makes the content of a file, which is created if need be. -/
  write : Path → Bytes → m (Except DiskFault Unit)
  /-- Takes a file away. -/
  remove : Path → m (Except DiskFault Unit)
  /-- Makes a folder inside one that exists. -/
  makeFolder : Path → m (Except DiskFault Unit)
  /-- Whether a path is one of a folder. -/
  isFolder : Path → m Bool

namespace Disk

variable {m : Type → Type} [Monad m] [Disk m]

/-- The text that a file holds. -/
def readText (path : Path) : m (Except DiskFault String) := do
  match ← read path with
  | .error fault => return .error fault
  | .ok bytes =>
    match Utf8.decode? bytes with
    | some text => return .ok text
    | none => return .error .notText

/-- Makes a folder; a folder that is there already will do. -/
def ensureFolder (path : Path) : m (Except DiskFault Unit) := do
  match ← makeFolder path with
  | .ok () => return .ok ()
  | .error fault => return if ← isFolder path then .ok () else .error fault

/-- Makes the first of some folders, after those that it is in. -/
def makeFolders : List Path → m (Except DiskFault Unit)
  | [] => return .ok ()
  | path :: above => do
    if path.text.isEmpty then return .ok ()
    match ← ensureFolder path with
    | .error .missing =>
      match ← makeFolders above with
      | .error fault => return .error fault
      | .ok () => ensureFolder path
    | answer => return answer

/-- Makes the folders that a file is in. -/
def makeParents (path : Path) : m (Except DiskFault Unit) :=
  match path.parent? with
  | some parent => makeFolders parent.ancestors
  | none => return .ok ()

end Disk

end MapDocument
