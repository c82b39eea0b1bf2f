import Mathlib.Data.Finset.Card
import MapDocument.Proofs.TypeCode
/-!
# Type codes — one code, one type, over whole runs

A run is any number of calls on a registry, each of which is confirmed or
refused. What a run leaves behind is told by those of its calls that were
confirmed and by nothing else (`Records`): a code is bound to a type when a call for
the two was confirmed. So a code once bound stays bound to its type whatever is
called for later, and a call is refused for the reserved code, and for a code that an
earlier call got for another type, and for nothing else.
-/

namespace MapDocument.TypeRegistry

/-- A call for a code, and the type that the code is to stand for. -/
structure Call (τ : Type) where
  type : τ
  code : UInt16
deriving DecidableEq

variable {τ : Type} [DecidableEq τ] [Named τ]

/-- What a call does. -/
def Call.edit (call : Call τ) : Edit (TypeRegistry τ) UInt16 := confirm call.type call.code

/-- The registry that calls leave behind, those that are refused among them. -/
def after (r : TypeRegistry τ) : List (Call τ) → TypeRegistry τ
  | [] => r
  | call :: rest => after (Edit.held (call.edit r)) rest

/-- The calls that are confirmed, each by the registry that the calls before it leave behind. -/
def confirmed (r : TypeRegistry τ) : List (Call τ) → List (Call τ)
  | [] => []
  | call :: rest =>
    (if (Edit.answer (call.edit r)).isOk then [call] else []) ++
      confirmed (Edit.held (call.edit r)) rest

/-- Calls are confirmed by what the calls before them leave behind. -/
theorem confirmed_append (r : TypeRegistry τ) (calls more : List (Call τ)) :
    r.confirmed (calls ++ more) = r.confirmed calls ++ (r.after calls).confirmed more := by
  induction calls generalizing r with
  | nil => rfl
  | cons call calls ih =>
    have hrest := ih (Edit.held (call.edit r))
    simp only [List.cons_append, confirmed, after, hrest, List.append_assoc]

/-! ## One call -/

/-- What a call can come to, and when it does. -/
inductive Call.ComesTo (call : Call τ) (r : TypeRegistry τ) :
    EStateM.Result Error (TypeRegistry τ) UInt16 → Prop
  /-- The code is the one that stands for no payload. -/
  | reserved (h : call.code = noTypeCode) :
      ComesTo call r (.error (.of (.reservedCode noTypeCode (Named.name call.type))) r)
  /-- The code is bound to another type. -/
  | shared {bound : τ} (hcode : call.code ≠ noTypeCode) (h : r.type? call.code = some bound)
      (hne : bound ≠ call.type) :
      ComesTo call r
        (.error (.of (.sharedCode call.code (Named.name bound) (Named.name call.type))) r)
  /-- The code is bound to the type already. -/
  | known (hcode : call.code ≠ noTypeCode) (h : r.type? call.code = some call.type) :
      ComesTo call r (.ok call.code r)
  /-- The code is not bound yet. -/
  | fresh (hcode : call.code ≠ noTypeCode) (h : r.type? call.code = none) :
      ComesTo call r (.ok call.code ⟨r.bound ++ [(call.code, call.type)]⟩)

/-- A call comes to one of the four. -/
theorem Call.comesTo (call : Call τ) (r : TypeRegistry τ) : call.ComesTo r (call.edit r) := by
  obtain ⟨type, code⟩ := call
  by_cases hcode : code = noTypeCode
  · subst hcode
    rw [edit, confirm_reserved]
    exact .reserved rfl
  · cases h : r.type? code with
    | none =>
      rw [edit, confirm_of_unbound hcode h]
      exact .fresh hcode h
    | some bound =>
      by_cases hbound : bound = type
      · subst hbound
        rw [edit, confirm_of_bound hcode h]
        exact .known hcode h
      · rw [edit, confirm_of_bound_ne hcode h hbound]
        exact .shared hcode h hbound

/-- A call that is confirmed answers with its own code. -/
theorem Call.eq_code_of_ok {call : Call τ} {r r' : TypeRegistry τ} {code : UInt16}
    (h : call.edit r = .ok code r') : code = call.code := by
  have hcall := call.comesTo r
  rw [h] at hcall
  cases hcall with
  | known _ _ => rfl
  | fresh _ _ => rfl

/-- A call that is refused changes nothing. -/
theorem Call.eq_of_error {call : Call τ} {r r' : TypeRegistry τ} {e : Error}
    (h : call.edit r = .error e r') : r' = r ∧ e.kind = .typeCode := by
  have hcall := call.comesTo r
  rw [h] at hcall
  cases hcall with
  | reserved _ => exact ⟨rfl, rfl⟩
  | shared _ _ _ => exact ⟨rfl, rfl⟩

/-! ## What a registry records -/

/-- A registry binds just the codes that calls got, each to the type that it was got for. -/
structure Records (r : TypeRegistry τ) (past : List (Call τ)) : Prop where
  bound : ∀ {code type}, r.type? code = some type ↔ ⟨type, code⟩ ∈ past
  usable : ∀ call ∈ past, call.code ≠ noTypeCode
  distinct : (r.bound.map Prod.fst).Nodup

section Lookup

omit [DecidableEq τ] [Named τ]

variable {r : TypeRegistry τ} {code new : UInt16} {type : τ}

/-- The codes that are bound are those that are looked up with success. -/
theorem mem_codes_iff : code ∈ r.bound.map Prod.fst ↔ ∃ type, r.type? code = some type := by
  constructor
  · intro hmem
    obtain ⟨binding, hbinding, rfl⟩ := List.mem_map.1 hmem
    cases h : r.type? binding.1 with
    | some type => exact ⟨type, rfl⟩
    | none => simpa using List.lookup_eq_none_iff.1 h binding hbinding
  · rintro ⟨type, htype⟩
    exact List.mem_map_of_mem (mem_of_type?_eq_some htype)

/-- A binding that is added last is found after all others. -/
theorem type?_append : (⟨r.bound ++ [(new, type)]⟩ : TypeRegistry τ).type? code =
    (r.type? code).or (if code = new then some type else none) := by
  have hlast : [(new, type)].lookup code = if code = new then some type else none := by
    rw [List.lookup_cons, List.lookup_nil]
    by_cases h : code = new
    · rw [if_pos h, beq_iff_eq.2 h]
    · rw [if_neg h, beq_eq_false_iff_ne.2 h]
  rw [type?, List.lookup_append, hlast]
  rfl

end Lookup

namespace Records

variable {r : TypeRegistry τ} {past : List (Call τ)} {call : Call τ}

section Growth

omit [DecidableEq τ] [Named τ]

/-- Nothing was called for, and nothing is bound. -/
theorem start : (empty : TypeRegistry τ).Records [] where
  bound := ⟨nofun, nofun⟩
  usable := nofun
  distinct := List.nodup_nil

/-- A call for what is bound already leaves everything as it is. -/
theorem again (h : r.Records past) (hcode : call.code ≠ noTypeCode)
    (hcall : r.type? call.code = some call.type) : r.Records (past ++ [call]) where
  bound {code type} := by
    have hmem : call ∈ past := h.bound.1 hcall
    rw [h.bound, List.mem_append, List.mem_singleton]
    exact ⟨.inl, fun hcases => hcases.elim id fun heq => heq ▸ hmem⟩
  usable c hc := by
    rcases List.mem_append.1 hc with hc | hc
    · exact h.usable c hc
    · exact List.mem_singleton.1 hc ▸ hcode
  distinct := h.distinct

/-- A call for a code that is not bound binds it. -/
theorem bind (h : r.Records past) (hcode : call.code ≠ noTypeCode)
    (hcall : r.type? call.code = none) :
    (⟨r.bound ++ [(call.code, call.type)]⟩ : TypeRegistry τ).Records (past ++ [call]) where
  bound {code type} := by
    rw [type?_append, Option.or_eq_some_iff, h.bound, List.mem_append, List.mem_singleton]
    refine or_congr_right ⟨?_, ?_⟩
    · rintro ⟨-, hnew⟩
      split at hnew
      · rename_i hsame
        cases hnew
        rw [hsame]
      · cases hnew
    · rintro rfl
      exact ⟨hcall, if_pos rfl⟩
  usable c hc := by
    rcases List.mem_append.1 hc with hc | hc
    · exact h.usable c hc
    · exact List.mem_singleton.1 hc ▸ hcode
  distinct := by
    rw [List.map_append, List.nodup_append]
    refine ⟨h.distinct, List.nodup_singleton _, fun code hmem new hnew heq => ?_⟩
    obtain rfl : code = call.code := heq.trans (List.mem_singleton.1 hnew)
    obtain ⟨type, htype⟩ := mem_codes_iff.1 hmem
    rw [hcall] at htype
    cases htype

end Growth

/-- **One call keeps the record**, which grows by the call if it is confirmed. -/
theorem step (h : r.Records past) (call : Call τ) :
    (Edit.held (call.edit r)).Records
      (past ++ if (Edit.answer (call.edit r)).isOk then [call] else []) := by
  have hcall := call.comesTo r
  generalize call.edit r = result at hcall
  cases hcall with
  | reserved _ => simpa [Edit.held, Edit.answer, Except.isOk, Except.toBool] using h
  | shared _ _ _ => simpa [Edit.held, Edit.answer, Except.isOk, Except.toBool] using h
  | known hcode hbound => exact h.again hcode hbound
  | fresh hcode hfree => exact h.bind hcode hfree

/-- **So does a whole run.** -/
theorem run (h : r.Records past) (calls : List (Call τ)) :
    (r.after calls).Records (past ++ r.confirmed calls) := by
  induction calls generalizing r past with
  | nil => simpa [confirmed, after] using h
  | cons call calls ih =>
    rw [confirmed, ← List.append_assoc]
    exact ih (h.step call)

/-! ### What the record tells -/

/-- A call is confirmed unless its code is reserved or was got for another type. -/
theorem exists_ok_iff (h : r.Records past) (call : Call τ) :
    (∃ code r', call.edit r = .ok code r') ↔
      call.code ≠ noTypeCode ∧ ∀ c ∈ past, c.code = call.code → c.type = call.type := by
  have hcall := call.comesTo r
  generalize call.edit r = result at hcall
  cases hcall with
  | reserved hcode => exact iff_of_false nofun fun hfree => hfree.1 hcode
  | shared hcode hbound hne =>
    exact iff_of_false nofun fun hfree => hne (hfree.2 _ (h.bound.1 hbound) rfl)
  | known hcode hbound =>
    refine iff_of_true ⟨_, _, rfl⟩ ⟨hcode, fun c hc hsame => ?_⟩
    have hc' : r.type? call.code = some c.type := h.bound.2 (by rwa [← hsame])
    exact Option.some.inj (hc'.symm.trans hbound)
  | fresh hcode hfree =>
    refine iff_of_true ⟨_, _, rfl⟩ ⟨hcode, fun c hc hsame => ?_⟩
    have hc' : r.type? call.code = some c.type := h.bound.2 (by rwa [← hsame])
    rw [hfree] at hc'
    cases hc'

omit [DecidableEq τ] in
/-- A code has the name of a type that it was got for. -/
theorem typeName?_eq_some (h : r.Records past) {code : UInt16} {name : String} :
    r.typeName? code = some name ↔ ∃ c ∈ past, c.code = code ∧ Named.name c.type = name := by
  rw [typeName?, Option.map_eq_some_iff]
  constructor
  · rintro ⟨type, htype, hname⟩
    exact ⟨_, h.bound.1 htype, rfl, hname⟩
  · rintro ⟨c, hc, rfl, hname⟩
    exact ⟨c.type, h.bound.2 hc, hname⟩

omit [DecidableEq τ] [Named τ] in
/-- There are as many bindings as codes that were got. -/
theorem size_eq (h : r.Records past) : r.size = (past.map Call.code).toFinset.card := by
  have hcodes : (r.bound.map Prod.fst).toFinset = (past.map Call.code).toFinset := by
    ext code
    rw [List.mem_toFinset, List.mem_toFinset, mem_codes_iff, List.mem_map]
    constructor
    · rintro ⟨type, htype⟩
      exact ⟨_, h.bound.1 htype, rfl⟩
    · rintro ⟨c, hc, rfl⟩
      exact ⟨c.type, h.bound.2 hc⟩
  rw [← hcodes, List.toFinset_card_of_nodup h.distinct, List.length_map, size]

end Records

/-- **One code, one type.** However a run on a fresh registry goes, a call is
confirmed, with its own code, just when the code is not the reserved one and every
call before it that was confirmed for the code was for the same type. A call that is
refused leaves the registry as it is. A code is bound to the type, and has the name,
that a call was confirmed for it with, which stays so whatever else is called for;
and there are as many bindings as there are codes that a call was confirmed for. -/
theorem one_type_per_code (calls more : List (Call τ)) :
    (∀ call : Call τ,
      ((∃ code r, call.edit (empty.after calls) = .ok code r) ↔
        call.code ≠ noTypeCode ∧
          ∀ c ∈ empty.confirmed calls, c.code = call.code → c.type = call.type) ∧
      (∀ code r, call.edit (empty.after calls) = .ok code r → code = call.code) ∧
      ∀ e r, call.edit (empty.after calls) = .error e r →
        r = empty.after calls ∧ e.kind = .typeCode) ∧
    (∀ code type, (empty.after calls).type? code = some type ↔
      ⟨type, code⟩ ∈ empty.confirmed calls) ∧
    (∀ code name, (empty.after calls).typeName? code = some name ↔
      ∃ c ∈ empty.confirmed calls, c.code = code ∧ Named.name c.type = name) ∧
    (∀ code type, (empty.after calls).type? code = some type →
      (empty.after (calls ++ more)).type? code = some type ∧
        (empty.after (calls ++ more)).typeName? code = (empty.after calls).typeName? code) ∧
    (∀ code, ((empty.after calls).typeName? code).isSome = true ↔
      ∃ c ∈ empty.confirmed calls, c.code = code) ∧
    (empty.after calls).size = ((empty.confirmed calls).map Call.code).toFinset.card := by
  have hcalls : (empty.after calls).Records (empty.confirmed calls) := Records.start.run calls
  have hlater : (empty.after (calls ++ more)).Records (empty.confirmed (calls ++ more)) :=
    Records.start.run (calls ++ more)
  have hstays (code : UInt16) (type : τ) (h : (empty.after calls).type? code = some type) :
      (empty.after (calls ++ more)).type? code = some type := by
    refine hlater.bound.2 ?_
    rw [confirmed_append]
    exact List.mem_append_left _ (hcalls.bound.1 h)
  refine ⟨fun call => ⟨hcalls.exists_ok_iff call, fun _ _ => Call.eq_code_of_ok,
    fun _ _ => Call.eq_of_error⟩, fun _ _ => hcalls.bound, fun _ _ => hcalls.typeName?_eq_some,
    fun code type h => ⟨hstays code type h, ?_⟩, fun code => ?_, hcalls.size_eq⟩
  · rw [typeName?, typeName?, hstays code type h, h]
  · rw [Option.isSome_iff_exists]
    constructor
    · rintro ⟨name, hname⟩
      obtain ⟨c, hc, hcode, -⟩ := hcalls.typeName?_eq_some.1 hname
      exact ⟨c, hc, hcode⟩
    · rintro ⟨c, hc, hcode⟩
      exact ⟨_, hcalls.typeName?_eq_some.2 ⟨c, hc, hcode, rfl⟩⟩

/-- The first type to ask for a code keeps it, and a type can have several. -/
example : (empty : TypeRegistry).after
    [⟨"f32", 3⟩, ⟨"i32", 0⟩, ⟨"i32", 3⟩, ⟨"f32", 4⟩, ⟨"f32", 3⟩] =
      ⟨[(3, "f32"), (4, "f32")]⟩ := by decide

end MapDocument.TypeRegistry
