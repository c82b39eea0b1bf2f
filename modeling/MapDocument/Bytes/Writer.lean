import MapDocument.Bytes.Fields
import MapDocument.Edit
/-!
# Bytes — writing a sequence of fields

A writer is a buffer that fields are appended to. A field that does not
fit is refused and appends nothing.
-/

namespace MapDocument

/-- One field to write. -/
inductive WriteStep
  | int16 (n : Int16)
  | int32 (n : Int32)
  | single (x : Single)
  | bool (b : Bool)
  | checkedInt16 (n : Int)
  | length (n : Nat)
  | string (s : String)
  | singles (xs : List Single)
  | raw (bytes : Bytes)

/-- The bytes of a field. -/
def WriteStep.bytes : WriteStep → Except Error Bytes
  | .int16 n => .ok (Bytes.ofInt16 n)
  | .int32 n => .ok (Bytes.ofInt32 n)
  | .single x => .ok (Bytes.ofSingle x)
  | .bool b => .ok (Bytes.ofBool b)
  | .checkedInt16 n => Bytes.ofInt16? n
  | .length n => Bytes.ofLength? n
  | .string s => Bytes.ofString? s
  | .singles xs => Bytes.ofSingles? xs
  | .raw bytes => .ok bytes

/-- A buffer of bytes written so far. -/
structure Writer where
  bytes : Bytes
deriving DecidableEq

namespace Writer

/-- A writer that nothing was written to. -/
def empty : Writer := ⟨[]⟩

/-- Appends a field. -/
def write (step : WriteStep) : Edit Writer Unit := do
  let field ← Edit.check step.bytes
  modify fun w => ⟨w.bytes ++ field⟩

/-- The writer after a sequence of fields, refused ones passed over. -/
def run (steps : List WriteStep) (w : Writer) : Writer :=
  steps.foldl (fun w step => Edit.held (write step w)) w

end Writer

end MapDocument
