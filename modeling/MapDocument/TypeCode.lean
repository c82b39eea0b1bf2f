import MapDocument.Edit
/-!
# Type codes

A payload whose type is not known in advance is preceded by a small code
for its type in the binary form. A registry sees to it that no two types
share a code.
-/

namespace MapDocument

/-- The code that says that no payload follows. -/
def noTypeCode : UInt16 := 0

/-- Types that go by names. Nothing keeps two types from going by the same one. -/
class Named (τ : Type) where
  name : τ → String

/-- Where types are told apart by their names, a type is its name. -/
instance : Named String := ⟨id⟩

/-- The types bound to codes so far. -/
structure TypeRegistry (τ : Type := String) where
  bound : List (UInt16 × τ)
deriving DecidableEq

namespace TypeRegistry

variable {τ : Type}

/-- The registry without any binding. -/
def empty : TypeRegistry τ := ⟨[]⟩

/-- The type bound to a code. -/
def type? (r : TypeRegistry τ) (code : UInt16) : Option τ := r.bound.lookup code

/-- The name of the type bound to a code. -/
def typeName? [Named τ] (r : TypeRegistry τ) (code : UInt16) : Option String :=
  (r.type? code).map Named.name

/-- Number of codes bound. -/
def size (r : TypeRegistry τ) : Nat := r.bound.length

/-- Binds a code to a type, or confirms that it is bound to it already. -/
def confirm [DecidableEq τ] [Named τ] (type : τ) (code : UInt16) :
    Edit (TypeRegistry τ) UInt16 := do
  if code = noTypeCode then Edit.refuse (Fault.reservedCode noTypeCode (Named.name type))
  match (← get).type? code with
  | some bound =>
    if bound = type then return code
    else Edit.refuse (Fault.sharedCode code (Named.name bound) (Named.name type))
  | none =>
    modify fun r => ⟨r.bound ++ [(code, type)]⟩
    return code

end TypeRegistry

end MapDocument
