/-!
# Disk — paths

A path is a text of names with `/` between them. It is taken apart without a
look at the disk: empty names and the name `.` count for nothing, unless the
path begins with `.`; the name `..` is kept, but names no file. Whatever
stands before the last name is kept as it was written.
-/

namespace MapDocument

/-- The text of a path. -/
structure Path where
  text : String
deriving DecidableEq, Repr

namespace Path

/-! ## Taking paths apart -/

/-- A text in reverse without the names at its end that count for nothing. -/
def dropIdle : List Char → List Char
  | '/' :: rest => dropIdle rest
  | '.' :: '/' :: rest => dropIdle rest
  | ['.'] => []
  | cs => cs

/-- What a path begins with, which is `/`, `.` or nothing; and the rest, in reverse
and without the names at its end that count for nothing. -/
def cut (p : Path) : List Char × List Char :=
  match p.text.toList with
  | '/' :: rest => (['/'], dropIdle rest.reverse)
  | ['.'] => (['.'], [])
  | '.' :: '/' :: rest => (['.'], dropIdle ('/' :: rest).reverse)
  | cs => ([], dropIdle cs.reverse)

/-- The last name of a text in reverse. -/
def lastName (reversed : List Char) : List Char := (reversed.takeWhile (· ≠ '/')).reverse

/-- What stands before the last name of a text in reverse. -/
def beforeName (reversed : List Char) : List Char := dropIdle (reversed.dropWhile (· ≠ '/'))

/-- The path without its last name; none if there is nothing to take away. -/
def parent? (p : Path) : Option Path :=
  match p.cut with
  | (['.'], []) => some ⟨""⟩
  | (_, []) => none
  | (start, reversed) => some ⟨String.ofList (start ++ (beforeName reversed).reverse)⟩

/-- The path and all that stands before it, innermost first; there are no more
of them than characters, by which `limit` is set. -/
def ancestorsWithin : Nat → Path → List Path
  | 0, _ => []
  | limit + 1, p =>
    p :: (match p.parent? with
      | some parent => ancestorsWithin limit parent
      | none => [])

/-- The path and all that stands before it, innermost first. -/
def ancestors (p : Path) : List Path := ancestorsWithin (p.text.length + 1) p

/-- The name of the file that the path is of. -/
def name? (p : Path) : Option (List Char) :=
  match p.cut with
  | (_, []) => none
  | (_, reversed) =>
    let name := lastName reversed
    if name = ['.', '.'] then none else some name

/-! ## Stems and extensions -/

/-- A name cut at its last point, if that is not its first character. -/
def cutName (name : List Char) : List Char × Option (List Char) :=
  match name.reverse.span (· ≠ '.') with
  | (extension, '.' :: c :: stem) => ((c :: stem).reverse, some extension.reverse)
  | _ => (name, none)

/-- The name of the file without its extension. -/
def stem? (p : Path) : Option (List Char) := p.name?.map fun name => (cutName name).1

/-- What the name of the file has after its last point. -/
def extension? (p : Path) : Option (List Char) := p.name?.bind fun name => (cutName name).2

/-! ## Putting paths together -/

/-- A name inside a folder. A name that begins with `/` stands for itself. -/
def join (folder : Path) (name : String) : Path :=
  if name.startsWith "/" || folder.text.isEmpty then ⟨name⟩
  else if folder.text.endsWith "/" then ⟨folder.text ++ name⟩
  else ⟨folder.text ++ "/" ++ name⟩

/-- The path with another extension behind the stem of its name. A path without a
name stays as it is. -/
def replaceExtension (p : Path) (extension : String) : Path :=
  match p.cut, p.stem? with
  | (start, reversed), some stem =>
    let before := (reversed.dropWhile (· ≠ '/')).reverse
    ⟨String.ofList (start ++ before ++ stem ++ '.' :: extension.toList)⟩
  | _, none => p

/-- The path with its extension taken away, and then with another one. Taking `.x`
away from `..x` leaves a path without a name. -/
def withExtension (p : Path) (extension : String) : Path :=
  match p.extension? with
  | none => p.replaceExtension extension
  | some old =>
    let kept := p.text.toList.take (p.text.length - old.length)
    Path.replaceExtension ⟨String.ofList kept⟩ extension

/-! ## Outputs -/

/-- The parts of a path; a part that is missing is empty. -/
structure Parts where
  folder : Path
  stem : String
  extension : String
deriving DecidableEq, Repr

/-- The folder, the stem and the extension of a path. -/
def parts (p : Path) : Parts where
  folder := p.parent?.getD ⟨""⟩
  stem := String.ofList (p.stem?.getD [])
  extension := String.ofList (p.extension?.getD [])

/-- Where the output of a source goes: into a given folder, or into that of the
source, under the stem of the source. -/
def output (source : Path) (folder? : Option Path) (extension : String) : Path :=
  let parts := source.parts
  (folder?.getD parts.folder).join (parts.stem ++ "." ++ extension)

end Path

end MapDocument
