import MapDocument.Disk.Basic
import MapDocument.Error
/-!
# Compilation — what can go wrong

A compilation goes through stages, each of which can fail in a way of its own.
-/

namespace MapDocument

/-- The stages of a compilation. -/
inductive Stage
  | parseText
  | validate
  | deriveGeometry
  | encodeBinary
  | compress
  | write
deriving DecidableEq, Repr

/-- The words for a stage. -/
def Stage.text : Stage → String
  | parseText => "parse text"
  | validate => "validate"
  | deriveGeometry => "derive geometry"
  | encodeBinary => "encode binary"
  | compress => "compress"
  | write => "write"

/-- Why a document was not compiled. -/
inductive CompileFailure
  /-- A file can not be read or written. -/
  | disk (path : Path) (fault : DiskFault)
  /-- The text is not JSON. -/
  | notJson
  /-- The text is JSON, but not of a map. -/
  | notMap (error : Error)
  /-- Errors were found in the map; the report on them. -/
  | invalid (report : String)
  /-- No binary form could be made. -/
  | notEncoded (error : Error)
  /-- No artifact could be made. -/
  | notCompressed (error : Error)

namespace CompileFailure

/-- The stage that failed. Reading and writing count as one stage. -/
def stage : CompileFailure → Stage
  | disk .. => .write
  | notJson => .parseText
  | notMap _ => .parseText
  | invalid _ => .validate
  | notEncoded error => if error.kind = .geometry then .deriveGeometry else .encodeBinary
  | notCompressed _ => .compress

/-- What went wrong in the stage. -/
def detail : CompileFailure → String
  | disk path fault => path.text ++ ": " ++ fault.message
  | notJson => "text is not JSON"
  | notMap error => error.text
  | invalid report => "document has errors\n" ++ report
  | notEncoded error => error.text
  | notCompressed error => error.text

/-- The full wording. -/
def text (f : CompileFailure) : String := f.stage.text ++ " failed: " ++ f.detail

end CompileFailure

end MapDocument
