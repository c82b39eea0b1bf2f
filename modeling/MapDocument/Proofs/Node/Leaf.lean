import MapDocument.Node.Leaf
import MapDocument.Proofs.Bytes.Base64
import MapDocument.Proofs.Bytes.LittleEndian
import MapDocument.Proofs.FloatingPoint.Exact
/-!
# Leaves — text forms that are read back

The text form of a leaf is read back to the same leaf wherever it has one:
numbers and vectors where they are finite, and everything else always. What
was read is finite, so it can be written and read again.
-/

namespace MapDocument

/-! ## Numbers -/

namespace Json

/-- A finite number is read back, bit for bit. -/
theorem asSingle_ofSingle {x : Single} (h : x.isFinite = true) : asSingle (ofSingle x) = .ok x := by
  have hsame := FloatingPoint.convert_double_convert h
  simp only [ofSingle, h, if_true, asSingle, JsonNumber.toDouble, hsame]

/-- A number that was read is finite. -/
theorem isFinite_of_asSingle {j : Json} {x : Single} (h : asSingle j = .ok x) :
    x.isFinite = true := by
  unfold asSingle at h
  split at h
  · simp only at h
    split at h
    · cases h
      assumption
    · cases h
  · cases h

/-- Finite numbers are read back. -/
theorem mapM_asSingle_ofSingle {xs : List Single} (h : ∀ x ∈ xs, x.isFinite = true) :
    (xs.map ofSingle).mapM asSingle = .ok xs := by
  induction xs with
  | nil => rfl
  | cons x xs ih =>
    have htail := ih fun y hy => h y (List.mem_cons_of_mem x hy)
    rw [List.map_cons, List.mapM_cons, asSingle_ofSingle (h x List.mem_cons_self), htail]
    rfl

/-- Numbers that were read are finite. -/
theorem isFinite_of_mapM_asSingle {js : List Json} {xs : List Single}
    (h : js.mapM asSingle = .ok xs) : ∀ x ∈ xs, x.isFinite = true := by
  induction js generalizing xs with
  | nil =>
    cases h
    simp
  | cons j js ih =>
    rw [List.mapM_cons] at h
    obtain ⟨y, hy, h⟩ := bind_eq_ok.1 h
    obtain ⟨ys, hys, h⟩ := bind_eq_ok.1 h
    cases h
    intro x hx
    rcases List.mem_cons.1 hx with rfl | hx
    · exact isFinite_of_asSingle hy
    · exact ih hys x hx

/-- As many finite numbers as are asked for are read back. -/
theorem asSingles_ofSingles {what : String} {xs : List Single}
    (h : ∀ x ∈ xs, x.isFinite = true) : asSingles what xs.length (ofSingles xs) = .ok xs := by
  have hlength : (xs.map ofSingle).length = xs.length := List.length_map _
  exact (if_pos hlength).trans (mapM_asSingle_ofSingle h)

/-- Numbers that were read are as many as were asked for, and finite. -/
theorem isFinite_of_asSingles {what : String} {count : Nat} {j : Json} {xs : List Single}
    (h : asSingles what count j = .ok xs) : ∀ x ∈ xs, x.isFinite = true := by
  obtain ⟨items, -, h⟩ := bind_eq_ok.1 h
  split at h
  · exact isFinite_of_mapM_asSingle h
  · cases h

/-- A vector of finite numbers is read back. -/
theorem asVec3_ofSingles {a : Vec3} (h : ∀ x ∈ a.toList, x.isFinite = true) :
    asVec3 (ofSingles a.toList) = .ok a :=
  bind_eq_ok.2 ⟨_, asSingles_ofSingles h, rfl⟩

/-- A vector that was read is finite. -/
theorem isFinite_of_asVec3 {j : Json} {a : Vec3} (h : asVec3 j = .ok a) :
    ∀ x ∈ a.toList, x.isFinite = true := by
  obtain ⟨xs, hxs, h⟩ := bind_eq_ok.1 h
  split at h
  · cases h
    exact isFinite_of_asSingles hxs
  · cases h

/-- An orientation of finite numbers is read back. -/
theorem asQuaternion_ofSingles {a : Quaternion} (h : ∀ x ∈ a.toList, x.isFinite = true) :
    asQuaternion (ofSingles a.toList) = .ok a :=
  bind_eq_ok.2 ⟨_, asSingles_ofSingles h, rfl⟩

/-- An orientation that was read is finite. -/
theorem isFinite_of_asQuaternion {j : Json} {a : Quaternion} (h : asQuaternion j = .ok a) :
    ∀ x ∈ a.toList, x.isFinite = true := by
  obtain ⟨xs, hxs, h⟩ := bind_eq_ok.1 h
  split at h
  · cases h
    exact isFinite_of_asSingles hxs
  · cases h

/-- Every four-byte integer is read back. -/
theorem asInt32_ofInt (n : Int32) : asInt32 (ofInt n.toInt) = .ok n := by
  have hge := n.le_toInt
  have hlt := n.toInt_lt
  have hint : (ofInt n.toInt).toInt? = some n.toInt := if_pos (by omega)
  rw [asInt32, hint]
  simp only
  rw [if_pos (by omega), Int32.ofInt_toInt]

end Json

/-- Numbers are written if they are finite. -/
theorem Bytes.ofFinite_eq_ok {xs : List Single} {p : Bytes} :
    ofFinite xs = .ok p ↔ (∀ x ∈ xs, x.isFinite = true) ∧ p = xs.flatMap ofSingle := by
  rw [← List.all_eq_true, ofFinite]
  by_cases h : xs.all (·.isFinite) = true
  · rw [if_pos h, Except.ok.injEq]
    exact ⟨fun hp => ⟨h, hp.symm⟩, fun hp => hp.2.symm⟩
  · rw [if_neg h]
    exact ⟨nofun, fun hp => absurd hp.1 h⟩

/-! ## Names and buffers -/

/-- Every identifier is read back. -/
theorem Identifier.ofText_text (name : Identifier) : ofText name.text = .ok name :=
  dif_pos name.valid

namespace FloatBuffer

/-- Numbers come back from their bytes. -/
theorem singlesOfBytes_toBytes (xs : List Single) : singlesOfBytes (toBytes ⟨xs⟩) = xs := by
  induction xs with
  | nil => rfl
  | cons x xs ih =>
    have hhead : singlesOfBytes (toBytes ⟨x :: xs⟩) =
        Bytes.toSingle (Bytes.ofSingle x) :: singlesOfBytes (toBytes ⟨xs⟩) := rfl
    rw [hhead, Bytes.toSingle_ofSingle, ih]

/-- **Every buffer is read back, bit for bit**, whether its numbers are finite or not. -/
theorem ofText_text (buffer : FloatBuffer) : ofText buffer.text = .ok buffer := by
  obtain ⟨xs⟩ := buffer
  have hlength : (toBytes ⟨xs⟩).length % 4 = 0 := by
    rw [toBytes, Bytes.length_flatMap_ofSingle, Nat.mul_mod_right]
  simp only [ofText, text, Base64.decode_encode, ofBytes, hlength, if_true, singlesOfBytes_toBytes]

end FloatBuffer

end MapDocument
