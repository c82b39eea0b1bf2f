import MapDocument.Node.Basic
import MapDocument.Bytes.Fields
import MapDocument.Bytes.Base64
import MapDocument.Geometry.Vector
import MapDocument.Text.Identifier
/-!
# Nodes — leaves

The nodes without nodes inside: numbers, truth values, vectors,
identifiers, and buffers of numbers. The text form knows neither infinities
nor patterns that are no numbers, so single numbers and vectors that hold
one are refused by the binary form too. Buffers travel bit for bit in both
forms.
-/

namespace MapDocument

/-- The bytes of numbers, all of which have to be finite. -/
def Bytes.ofFinite (xs : List Single) : Except Error Bytes :=
  if xs.all (·.isFinite) then .ok (xs.flatMap ofSingle) else .error (Fault.notFinite xs)

/-- The text form of numbers. -/
def Json.ofSingles (xs : List Single) : Json := .array (xs.map ofSingle)

instance : Node Single where
  initial := .zero
  reset _ := .zero
  toJson x := .ofSingle x
  load j := Edit.assign j.asSingle
  encode x := Bytes.ofFinite [x]
  equals := FloatingPoint.equals

instance : Node Int32 where
  initial := 0
  reset _ := 0
  toJson n := .ofInt n.toInt
  load j := Edit.assign j.asInt32
  encode n := .ok (Bytes.ofInt32 n)
  equals m n := m = n

instance : Node Bool where
  initial := false
  reset _ := false
  toJson b := .bool b
  load j := Edit.assign j.asBool
  encode b := .ok (Bytes.ofBool b)
  equals a b := a = b

/-- The vector of a text form. -/
def Json.asVec3 (j : Json) : Except Error Vec3 := do
  match (← j.asSingles "vec3" 3) with
  | [x, y, z] => return ⟨x, y, z⟩
  | found => .error (Fault.notCount "vec3" 3 found.length)

instance : Node Vec3 where
  initial := .zero
  reset _ := .zero
  toJson a := .ofSingles a.toList
  load j := Edit.assign j.asVec3
  encode a := Bytes.ofFinite a.toList
  equals := Vec3.equals

/-- The orientation of a text form. -/
def Json.asQuaternion (j : Json) : Except Error Quaternion := do
  match (← j.asSingles "quat" 4) with
  | [x, y, z, w] => return ⟨x, y, z, w⟩
  | found => .error (Fault.notCount "quat" 4 found.length)

instance : Node Quaternion where
  initial := .identity
  reset _ := .identity
  toJson a := .ofSingles a.toList
  load j := Edit.assign j.asQuaternion
  encode a := Bytes.ofFinite a.toList
  equals := Quaternion.equals

instance : Node Identifier where
  initial := .empty
  reset _ := .empty
  toJson name := .string name.text
  load j := Edit.assign (j.asString >>= Identifier.ofText)
  encode name := Bytes.ofString? name.text
  equals a b := a.text = b.text

/-- Numbers of any count, such as a vertex stream. -/
structure FloatBuffer where
  values : List Single
deriving DecidableEq

namespace FloatBuffer

/-- The buffer without numbers. -/
def empty : FloatBuffer := ⟨[]⟩

instance : Inhabited FloatBuffer := ⟨empty⟩

/-- Bytes of the numbers, bit for bit. -/
def toBytes (buffer : FloatBuffer) : Bytes := buffer.values.flatMap Bytes.ofSingle

/-- The numbers of bytes, four each; bytes left over at the end are dropped. -/
def singlesOfBytes : Bytes → List Single
  | a :: b :: c :: d :: rest => Bytes.toSingle [a, b, c, d] :: singlesOfBytes rest
  | _ => []

/-- The numbers of bytes, which have to be whole numbers. -/
def ofBytes (bytes : Bytes) : Except Error FloatBuffer :=
  if bytes.length % 4 = 0 then .ok ⟨singlesOfBytes bytes⟩
  else .error (Fault.partialFloat bytes.length)

/-- The text of the numbers. -/
def text (buffer : FloatBuffer) : String := Base64.encode buffer.toBytes

/-- The numbers of a text, which may be broken up by white space. -/
def ofText (text : String) : Except Error FloatBuffer :=
  let stripped := String.ofList (text.toList.filter (!isBlank ·))
  match Base64.decode (Utf8.encode stripped) with
  | .ok bytes => ofBytes bytes
  | .error fault => .error (Fault.notBase64 fault)

/-- Equality of the values in every place. -/
def equals (a b : FloatBuffer) : Bool :=
  a.values.length = b.values.length && (a.values.zip b.values).all fun (x, y) => x.equals y

end FloatBuffer

instance : Node FloatBuffer where
  initial := .empty
  reset _ := .empty
  toJson buffer := .string buffer.text
  load j := Edit.assign (j.asString >>= FloatBuffer.ofText)
  encode buffer := Bytes.ofSingles? buffer.values
  equals := FloatBuffer.equals

end MapDocument
