import MapDocument.Text.Blank
import MapDocument.Text.Numeral
import MapDocument.Edit
/-!
# Text — identifiers

Names of objects and resources. An identifier holds no white space and
does not start with a numeral; the empty one means that no name is set.
-/

namespace MapDocument

/-- Whether a text can be an identifier. -/
def isIdentifier (text : String) : Bool :=
  match text.toList with
  | [] => true
  | first :: rest => !isNumeral first && !(first :: rest).any isBlank

/-- The name of an object or resource. -/
structure Identifier where
  text : String
  valid : isIdentifier text = true
deriving DecidableEq

namespace Identifier

/-- The identifier that names nothing. -/
def empty : Identifier := ⟨"", rfl⟩

instance : Inhabited Identifier := ⟨empty⟩

/-- No name is set. -/
def isEmpty (name : Identifier) : Bool := name.text.isEmpty

/-- The identifier with a given text. -/
def ofText (text : String) : Except Error Identifier :=
  if h : isIdentifier text = true then .ok ⟨text, h⟩ else .error (Fault.notIdentifier text)

/-- Replaces the text. -/
def set (text : String) : Edit Identifier Unit := Edit.assign (ofText text)

end Identifier

end MapDocument
