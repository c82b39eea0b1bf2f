import MapDocument.Json.Printer
import MapDocument.Text.Quoted
import MapDocument.Text.Utf8
/-!
# Errors

An error is a fault, which says what went wrong and with which values, and
the place in the tree where it did. The wording of every fault is in
`Fault.message`, and the kind it belongs to in `Fault.kind`.
-/

namespace MapDocument

/-- The kinds of errors. -/
inductive ErrorKind
  /-- The system beneath failed. -/
  | io
  /-- Text or bytes do not have the expected shape. -/
  | malformed
  /-- A container was offered a value of a type it does not hold. -/
  | typeMismatch
  /-- A variant was encoded before it held a value. -/
  | unset
  /-- A number does not fit its binary field. -/
  | range
  /-- No geometry can be derived from the given vertices. -/
  | geometry
  /-- Two types claim one type code. -/
  | typeCode
  /-- Anything else. -/
  | other
deriving DecidableEq, Repr

/-- The words for a kind of error. -/
def ErrorKind.text : ErrorKind → String
  | .io => "IO error"
  | .malformed => "malformed structure"
  | .typeMismatch => "type mismatch"
  | .unset => "unset value"
  | .range => "value out of range"
  | .geometry => "geometry error"
  | .typeCode => "type code conflict"
  | .other => "unknown error"

/-- Why a text is not base64; positions count the bytes before the offender. -/
inductive Base64Fault
  | symbol (byte : UInt8) (position : Nat)
  | length (count : Nat)
  | padding
  | lastSymbol (byte : UInt8) (position : Nat)
deriving DecidableEq, Repr

/-- The wording of a base64 fault. -/
def Base64Fault.message : Base64Fault → String
  | .symbol byte position => s!"Invalid symbol {byte}, offset {position}."
  | .length count => s!"Invalid input length: {count}"
  | .padding => "Invalid padding"
  | .lastSymbol byte position => s!"Invalid last symbol {byte}, offset {position}."

/-- What went wrong. -/
inductive Fault
  -- reading text
  | notObject (what : String) (got : JsonKind)
  | notArray (what : String) (got : JsonKind)
  | notNumber (got : JsonKind)
  | notInteger (got : Json)
  | notBool (got : JsonKind)
  | notString (got : JsonKind)
  | notCount (what : String) (expected got : Nat)
  | notIdentifier (text : String)
  | notBase64 (fault : Base64Fault)
  | partialFloat (bytes : Nat)
  | alreadySet (candidates : List String)
  | noTypeIndex
  | badTypeIndex (got : Json)
  | noSuchCandidate (index : Nat) (candidates : List String)
  -- reading bytes
  | tooFewBytes (needed position remaining : Nat)
  | notBoolByte (byte : UInt8) (position : Nat)
  | negativeLength (length : Int)
  | unterminatedString (position : Nat)
  | notUtf8 (position : Nat) (fault : Utf8.Error)
  | tooFewFloats (count : Nat)
  | wrongArtifactLength (declared held : Nat)
  -- numbers that do not fit
  | tooGreatForSingle (x : Double)
  | tooGreatForInt32 (n : Int)
  | tooGreatForInt16 (n : Int)
  | tooLong (length : Nat)
  | zeroInString (text : String)
  | notFinite (values : List Single)
  | tooMany (count : Nat) (what : String)
  -- containers
  | notElement (type : String)
  | notListOf (type : String)
  | notCandidate (candidates : List String)
  | neverSet (candidates : List String)
  | noMesh
  -- geometry
  | partialTriangles (floats : Nat)
  | vertexCount (floats : Nat)
  | texcoordCount (floats vertices : Nat)
  | normalCount (floats vertexFloats : Nat)
  | emptyMesh
  | noMeshes
  | flatFace
  | smallGrid (rows columns : Int)
  | sampleCount (samples rows columns : Nat)
  | sampleOutside (x z columns rows : Nat)
  | loneSample (x z : Nat)
  | emptyModel (name : String)
  -- type codes
  | reservedCode (code : UInt16) (type : String)
  | sharedCode (code : UInt16) (bound offered : String)
  -- compressed streams
  | corruptStream
  | incompleteStream
  /-- A fault reported from elsewhere, in its own words. -/
  | reported (kind : ErrorKind) (message : String)

namespace Fault

/-- How the numbers in a list of numbers are written. -/
def listedNumber : FloatLayout where
  least := some (-4)
  greatest := some 15
  marksWhole := true
  marksPositive := false
  tie := .up

/-- Names between brackets. -/
def bracketed (names : List String) : String := "[" ++ ", ".intercalate names ++ "]"

/-- A byte as two hexadecimal digits. -/
def hexByte (b : UInt8) : String :=
  String.ofList ['0', 'x', Nat.digitChar (b.toNat / 16), Nat.digitChar (b.toNat % 16)]

/-- The kind a fault belongs to. -/
def kind : Fault → ErrorKind
  | notObject .. | notArray .. | notNumber .. | notInteger .. | notBool .. | notString ..
  | notCount .. | notIdentifier .. | notBase64 .. | partialFloat .. | alreadySet ..
  | noTypeIndex | badTypeIndex .. | noSuchCandidate .. | tooFewBytes .. | notBoolByte ..
  | negativeLength .. | unterminatedString .. | notUtf8 .. | tooFewFloats ..
  | wrongArtifactLength .. => .malformed
  | tooGreatForSingle .. | tooGreatForInt32 .. | tooGreatForInt16 .. | tooLong ..
  | zeroInString .. | notFinite .. | tooMany .. => .range
  | notElement .. | notListOf .. | notCandidate .. => .typeMismatch
  | neverSet .. | noMesh => .unset
  | partialTriangles .. | vertexCount .. | texcoordCount .. | normalCount .. | emptyMesh
  | noMeshes | flatFace | smallGrid .. | sampleCount .. | sampleOutside .. | loneSample ..
  | emptyModel .. => .geometry
  | reservedCode .. | sharedCode .. => .typeCode
  | corruptStream | incompleteStream => .io
  | reported kind _ => kind

/-- The wording of a fault. -/
def message : Fault → String
  | notObject what got => s!"{what} expects an object, got {got.name}"
  | notArray what got => s!"{what} expects an array, got {got.name}"
  | notNumber got => s!"expected a number, got {got.name}"
  | notInteger got => s!"expected an integer, got {got.compact}"
  | notBool got => s!"expected a bool, got {got.name}"
  | notString got => s!"expected a string, got {got.name}"
  | notCount what expected got => s!"{what} expects {expected} numbers, got {got}"
  | notIdentifier text => s!"invalid identifier {Quoted.text text}"
  | notBase64 fault => s!"float buffer is not valid base64: {fault.message}"
  | partialFloat bytes => s!"float buffer has {bytes} bytes, not a multiple of 4"
  | alreadySet candidates =>
    s!"variant of {bracketed candidates} already holds a value and cannot be unset"
  | noTypeIndex => "variant is missing its type index"
  | badTypeIndex got => s!"variant type index {got.compact} is not a non-negative integer"
  | noSuchCandidate index candidates =>
    s!"variant type index {index} is out of range for {bracketed candidates}"
  | tooFewBytes needed position remaining =>
    s!"needed {needed} bytes at offset {position}, only {remaining} remain"
  | notBoolByte byte position => s!"invalid bool byte {hexByte byte} at offset {position}"
  | negativeLength length => s!"negative length {length}"
  | unterminatedString position => s!"unterminated string at offset {position}"
  | notUtf8 position fault => s!"invalid utf8 at offset {position}: {fault.message}"
  | tooFewFloats count => s!"float array of {count} elements overruns buffer"
  | wrongArtifactLength declared held =>
    s!"artifact declares {declared} bytes but holds {held}"
  | tooGreatForSingle x => s!"{FloatLayout.plain.text x} does not fit in a 4-byte float"
  | tooGreatForInt32 n => s!"{n} does not fit in a 4-byte integer"
  | tooGreatForInt16 n => s!"{n} does not fit in a 2-byte integer"
  | tooLong length => s!"length {length} does not fit in a 4-byte integer"
  | zeroInString text => s!"string {Quoted.text text} contains a NUL byte"
  | notFinite values => s!"{bracketed (values.map listedNumber.text)} is not finite"
  | tooMany count what => s!"{count} {what} does not fit in a 4-byte integer"
  | notElement type => s!"list of {type} cannot hold the given value"
  | notListOf type => s!"cannot append to a list of {type} from a list of another type"
  | notCandidate candidates =>
    s!"value is not one of the allowed types {bracketed candidates}"
  | neverSet candidates => s!"variant of {bracketed candidates} was never assigned a value"
  | noMesh => "render unit has no mesh"
  | partialTriangles floats => s!"{floats} vertex floats do not form whole triangles"
  | vertexCount floats => s!"{floats} vertex floats is not a multiple of 9"
  | texcoordCount floats vertices =>
    s!"{floats} texcoord floats for {vertices} vertices, expected {vertices * 2}"
  | normalCount floats vertexFloats =>
    s!"{floats} normal floats for {vertexFloats} vertex floats"
  | emptyMesh => "cannot bound a mesh with no vertices"
  | noMeshes => "no meshes to bound"
  | flatFace => "rectangle has a face with no area"
  | smallGrid rows columns =>
    s!"height grid needs at least 2x2 samples, got {rows} rows and {columns} columns"
  | sampleCount samples rows columns =>
    s!"{samples} height samples for {rows} rows and {columns} columns"
  | sampleOutside x z columns rows =>
    s!"sample ({x}, {z}) is outside a {columns}x{rows} grid"
  | loneSample x z => s!"sample ({x}, {z}) has no adjacent neighbor pair"
  | emptyModel name =>
    s!"model {Quoted.text name} has no render units and contributes no volume"
  | reservedCode code type => s!"type code {code} is reserved, cannot bind it to {type}"
  | sharedCode code bound offered =>
    s!"type code {code} is used by both {bound} and {offered}"
  | corruptStream => "corrupt deflate stream"
  | incompleteStream => "incomplete deflate stream"
  | reported _ message => message

end Fault

/-- One step from a node of the tree to a node inside it. -/
inductive PathStep
  | field (name : String)
  | index (i : Nat)
deriving DecidableEq, Repr

/-- How a step is written. -/
def PathStep.text : PathStep → String
  | field name => name
  | index i => s!"[{i}]"

/-- A fault and the place where it happened, outermost step first. -/
structure Error where
  fault : Fault
  path : List PathStep

namespace Error

/-- A fault whose place is not known yet. -/
def of (fault : Fault) : Error := ⟨fault, []⟩

instance : Coe Fault Error := ⟨of⟩

/-- The same error seen from one step further out. -/
def within (step : PathStep) (e : Error) : Error := { e with path := step :: e.path }

/-- The kind of an error. -/
def kind (e : Error) : ErrorKind := e.fault.kind

/-- The steps of the place, as they are written. -/
def pathText (e : Error) : List String := e.path.map PathStep.text

/-- The full wording: kind, place and fault. -/
def text (e : Error) : String :=
  let place := if e.path.isEmpty then "" else " at " ++ ".".intercalate e.pathText
  e.kind.text ++ place ++ ", " ++ e.fault.message

end Error

/-- A computation whose error is seen from one step further out. -/
def Error.locating {α : Type} (step : PathStep) (result : Except Error α) : Except Error α :=
  result.mapError (Error.within step)

end MapDocument
