import MapDocument.Proofs.Geometry.Tiling
/-!
# Geometry — height grids hold what was set

To whoever sets heights and to the mesh that is built of them, a grid is an array with a
column and a row: the height at a sample is the one that was last set there, if any was,
and setting it has no part in any other (`HeightGrid.holds_what_was_set`). Heights are
stored in one list, so this takes that no two samples have the same place in it
(`place_inj`), whether or not the grid is square. What one setting does to the array is
`Shows.set`, and what a run of them does follows by induction on the run.
-/

namespace MapDocument.HeightGrid

variable {g : HeightGrid} {rows columns x z x' z' : Nat} {height : Single}

/-! ## Settings -/

/-- A height to be set at a sample. -/
structure Setting where
  x : Nat
  z : Nat
  height : Single
deriving DecidableEq

namespace Setting

/-- Sets the height. -/
def apply (c : Setting) : Edit HeightGrid Unit := setHeight c.x c.z c.height

/-- The grid after settings one after the other, refused ones passed over. -/
def run (cs : List Setting) (g : HeightGrid) : HeightGrid :=
  cs.foldl (fun g c => Edit.held (c.apply g)) g

/-- The last of the settings for a sample, if there is one. -/
def lastAt? (cs : List Setting) (x z : Nat) : Option Setting :=
  (cs.filter fun c => c.x = x ∧ c.z = z).getLast?

end Setting

/-- The height that the mesh of a grid has at a sample. -/
def heightAt? (g : HeightGrid) (x z : Nat) : Option Single :=
  g.sampler.toOption.map fun s => (s.pointAt x z).y

/-! ## Places -/

/-- **No two samples have the same place**, whatever the number of rows is. -/
theorem place_inj (hx : x < columns) (hx' : x' < columns) :
    z * columns + x = z' * columns + x' ↔ x = x' ∧ z = z' := by
  constructor
  · intro h
    have hmod := congrArg (· % columns) h
    simp only [Nat.mul_add_mod_self_right, Nat.mod_eq_of_lt hx, Nat.mod_eq_of_lt hx'] at hmod
    have hrows : z * columns = z' * columns := by omega
    exact ⟨hmod, Nat.eq_of_mul_eq_mul_right (by omega) hrows⟩
  · rintro ⟨rfl, rfl⟩
    rfl

/-- A grid of right dimensions has a height set at each of its samples and at no other. -/
theorem setHeight_of_dims (h : g.dims = .ok (rows, columns)) :
    setHeight x z height g =
      if x < columns ∧ z < rows then
        .ok () { g with heights := ⟨g.heights.values.set (z * columns + x) height⟩ }
      else .error (.of (Fault.sampleOutside x z columns rows)) g := by
  have hcheck : (Edit.check g.dims : Edit HeightGrid (Nat × Nat)) g = .ok (rows, columns) g := by
    rw [h]
    rfl
  refine (bind_of_eq_ok hcheck).trans ?_
  by_cases hinside : x < columns ∧ z < rows
  · simp only [if_pos hinside]
    rfl
  · simp only [if_neg hinside]
    rfl

/-- Any other grid refuses it as it refuses to be sampled. -/
theorem setHeight_of_dims_error {e : Error} (h : g.dims = .error e) :
    setHeight x z height g = .error e g := by
  have hcheck : (Edit.check g.dims : Edit HeightGrid (Nat × Nat)) g = .error e g := by
    rw [h]
    rfl
  exact (bind_of_eq_ok rfl).trans (bind_of_eq_error hcheck)

/-! ## Grids as arrays -/

/-- A grid whose samples are heights by column and row. -/
structure Shows (g : HeightGrid) (rows columns : Nat) (heights : Nat → Nat → Single) : Prop where
  dims : g.dims = .ok (rows, columns)
  stored : ∀ x z, x < columns → z < rows →
    g.heights.values[z * columns + x]? = some (heights x z)

/-- A flat grid is made of all dimensions that a grid can have, and its samples are zero. -/
theorem exists_flat (xLength zLength : Single) (hrows : 2 ≤ rows)
    (hrows' : rows ≤ 0x7fffffff) (hcolumns : 2 ≤ columns) (hcolumns' : columns ≤ 0x7fffffff) :
    ∃ g, flat xLength zLength rows columns = .ok g ∧
      (g.xLength = xLength ∧ g.zLength = zLength ∧ g.smooth = false) ∧
      g.Shows rows columns fun _ _ => .zero := by
  have hcount (n : Nat) (what : String) (h : n ≤ 0x7fffffff) :
      count n what = .ok (Int32.ofNat n) := if_pos (Nat.lt_succ_of_le h)
  have hflat : flat xLength zLength rows columns = .ok
      { xLength, zLength, rows := Int32.ofNat rows, columns := Int32.ofNat columns,
        heights := ⟨List.replicate (rows * columns) .zero⟩, smooth := false } := by
    rw [flat, hcount rows _ hrows', hcount columns _ hcolumns']
    rfl
  refine ⟨_, hflat, ⟨rfl, rfl, rfl⟩, dims_eq_ok.2 ?_, fun x z hx hz => ?_⟩
  · exact ⟨Int32.toInt_ofNat_of_lt (Nat.lt_succ_of_le hrows'),
      Int32.toInt_ofNat_of_lt (Nat.lt_succ_of_le hcolumns'), hrows, hcolumns,
      List.length_replicate⟩
  · exact List.getElem?_replicate_of_lt (place_lt hx hz)

namespace Shows

variable {heights : Nat → Nat → Single}

/-- The samples of a grid are the heights that its mesh has. -/
theorem heightAt?_eq (h : g.Shows rows columns heights) (hx : x < columns) (hz : z < rows) :
    g.heightAt? x z = some (heights x z) := by
  have hsampler : g.sampler =
      .ok ⟨g.xLength, g.zLength, rows, columns, g.heights.values.toArray⟩ :=
    sampler_eq_ok.2 ⟨h.dims, rfl⟩
  have hheight := (getElem?_heights hsampler hx hz).symm.trans (h.stored x z hx hz)
  rw [heightAt?, hsampler]
  exact hheight

/-- And that mesh is built. -/
theorem exists_buildMesh (h : g.Shows rows columns heights) :
    ∃ s normals, g.sampler = .ok s ∧
      g.buildMesh = .ok (Mesh.ofCorners (List.zipWith s.vertexAt s.emitted normals)) ∧
      ∀ x z, x < columns → z < rows → (s.pointAt x z).y = heights x z := by
  have hsampler : g.sampler =
      .ok ⟨g.xLength, g.zLength, rows, columns, g.heights.values.toArray⟩ :=
    sampler_eq_ok.2 ⟨h.dims, rfl⟩
  obtain ⟨normals, hmesh, -⟩ := exists_tiling hsampler
  refine ⟨_, normals, hsampler, hmesh, fun x z hx hz => ?_⟩
  have hheight := h.heightAt?_eq hx hz
  rw [heightAt?, hsampler] at hheight
  exact Option.some.inj hheight

/-- **What one setting does to the array**: one height takes the place of another, if there
is a place for it. -/
theorem set (h : g.Shows rows columns heights) (c : Setting) :
    (Edit.held (c.apply g)).Shows rows columns fun x z =>
      if c.x = x ∧ c.z = z then c.height else heights x z := by
  rw [Setting.apply, setHeight_of_dims h.dims]
  obtain ⟨hr, hc, hrows, hcolumns, hsamples⟩ := dims_eq_ok.1 h.dims
  by_cases hinside : c.x < columns ∧ c.z < rows
  · rw [if_pos hinside]
    refine ⟨dims_eq_ok.2 ⟨hr, hc, hrows, hcolumns, ?_⟩, fun x z hx hz => ?_⟩
    · exact List.length_set.trans hsamples
    · have hplace : c.z * columns + c.x < g.heights.values.length := by
        rw [hsamples]
        exact place_lt hinside.1 hinside.2
      show (g.heights.values.set _ _)[_]? = _
      rw [List.getElem?_set, if_pos hplace, h.stored x z hx hz]
      simp only [place_inj hinside.1 hx]
      split <;> rfl
  · -- the samples that are there are not the one that was asked for
    rw [if_neg hinside]
    refine ⟨h.dims, fun x z hx hz => ?_⟩
    rw [if_neg (by rintro ⟨rfl, rfl⟩; exact hinside ⟨hx, hz⟩)]
    exact h.stored x z hx hz

/-- **What a run of settings does**: a height is the last that was set, or what it was. -/
theorem run (h : g.Shows rows columns heights) (cs : List Setting) :
    (Setting.run cs g).Shows rows columns fun x z =>
      (Setting.lastAt? cs x z).elim (heights x z) Setting.height := by
  induction cs generalizing g heights with
  | nil => exact h
  | cons c cs ih =>
    refine ⟨(ih (h.set c)).dims, fun x z hx hz => ?_⟩
    refine ((ih (h.set c)).stored x z hx hz).trans (congrArg some ?_)
    -- the first setting counts where none of the others is for the sample
    unfold Setting.lastAt?
    by_cases hsame : c.x = x ∧ c.z = z
    · rw [List.filter_cons, if_pos (decide_eq_true hsame), List.getLast?_cons, if_pos hsame]
      cases (cs.filter fun c => c.x = x ∧ c.z = z).getLast? with
      | none => rfl
      | some last => rfl
    · rw [if_neg hsame, List.filter_cons, if_neg (by simpa using hsame)]

end Shows

/-- A setting leaves all but the heights as it is, made or refused. -/
theorem held_setHeight (x z : Nat) (height : Single) (g : HeightGrid) :
    Edit.held (setHeight x z height g) =
      { g with heights := (Edit.held (setHeight x z height g)).heights } := by
  cases hdims : g.dims with
  | ok size =>
    rw [setHeight_of_dims hdims]
    split <;> rfl
  | error e =>
    rw [setHeight_of_dims_error hdims]
    rfl

/-- And so does a run of them. -/
theorem Setting.run_eq (cs : List Setting) (g : HeightGrid) :
    run cs g = { g with heights := (run cs g).heights } := by
  induction cs generalizing g with
  | nil => rfl
  | cons c cs ih =>
    exact (ih (Edit.held (c.apply g))).trans
      (congrArg (fun base => { base with heights := (run (c :: cs) g).heights })
        (held_setHeight c.x c.z c.height g))

/-- **Height grids hold what was set.** A flat grid can be made of all dimensions from two
rows and two columns on. After any run of settings it still has these dimensions, and all
but its heights are what they were; its mesh is built of the samples, each of which has the
height that was set there last, or zero. One more setting is made where the sample is in
the grid, and where it is not, nothing changes; nor does the height of any other sample,
either way. A grid that is too small, or that has more or fewer heights than samples, has
none set at all. -/
theorem holds_what_was_set :
    (∀ (xLength zLength : Single) (rows columns : Nat), 2 ≤ rows → rows ≤ 0x7fffffff →
      2 ≤ columns → columns ≤ 0x7fffffff →
      ∃ g, flat xLength zLength rows columns = .ok g ∧
        (g.xLength = xLength ∧ g.zLength = zLength ∧ g.smooth = false) ∧
        ∀ cs : List Setting,
          (Setting.run cs g).dims = .ok (rows, columns) ∧
          Setting.run cs g = { g with heights := (Setting.run cs g).heights } ∧
          (∃ s normals, (Setting.run cs g).sampler = .ok s ∧
            (Setting.run cs g).buildMesh =
              .ok (Mesh.ofCorners (List.zipWith s.vertexAt s.emitted normals)) ∧
            ∀ x z, x < columns → z < rows →
              (s.pointAt x z).y = (Setting.lastAt? cs x z).elim .zero Setting.height) ∧
          ∀ c : Setting,
            ((∃ g', c.apply (Setting.run cs g) = .ok () g') ↔ c.x < columns ∧ c.z < rows) ∧
            (∀ e g', c.apply (Setting.run cs g) = .error e g' → g' = Setting.run cs g) ∧
            ∀ x z, x < columns → z < rows → (x, z) ≠ (c.x, c.z) →
              heightAt? (Edit.held (c.apply (Setting.run cs g))) x z =
                heightAt? (Setting.run cs g) x z) ∧
    ∀ (g : HeightGrid) (x z : Nat) (height : Single),
      g.rows.toInt < 2 ∨ g.columns.toInt < 2 ∨
        (g.heights.values.length : Int) ≠ g.rows.toInt * g.columns.toInt →
      ∃ e, setHeight x z height g = .error e g := by
  refine ⟨?_, ?_⟩
  · intro xLength zLength rows columns hrows hrows' hcolumns hcolumns'
    obtain ⟨g, hflat, hfields, hshows⟩ :=
      exists_flat xLength zLength hrows hrows' hcolumns hcolumns'
    refine ⟨g, hflat, hfields, fun cs => ?_⟩
    have hrun := hshows.run cs
    refine ⟨hrun.dims, Setting.run_eq cs g, hrun.exists_buildMesh, fun c => ⟨?_, ?_, ?_⟩⟩
    · rw [Setting.apply, setHeight_of_dims hrun.dims]
      split
      · rename_i hinside
        exact ⟨fun _ => hinside, fun _ => ⟨_, rfl⟩⟩
      · rename_i houtside
        exact ⟨nofun, fun hinside => absurd hinside houtside⟩
    · intro e g' he
      rw [Setting.apply, setHeight_of_dims hrun.dims] at he
      split at he
      · cases he
      · cases he
        rfl
    · intro x z hx hz hother
      rw [(hrun.set c).heightAt?_eq hx hz, hrun.heightAt?_eq hx hz, if_neg]
      rintro ⟨rfl, rfl⟩
      exact hother rfl
  · intro g x z height hwrong
    cases hdims : g.dims with
    | error e => exact ⟨e, setHeight_of_dims_error hdims⟩
    | ok size =>
      obtain ⟨rows, columns⟩ := size
      obtain ⟨hr, hc, hrows, hcolumns, hsamples⟩ := dims_eq_ok.1 hdims
      rw [hr, hc, hsamples, Int.natCast_mul] at hwrong
      omega

/-- Heights for a grid of three rows and two columns: at one sample twice, then in a third
column, where the list would go on with the next row. -/
def overlaid : List Setting := [⟨1, 2, 3⟩, ⟨0, 2, 5⟩, ⟨1, 2, 4⟩, ⟨2, 1, 7⟩]

/-- A grid of two rows and two columns in which one height is missing. -/
def gapped : HeightGrid := ⟨1, 1, 2, 2, ⟨[0, 0, 0]⟩, false⟩

/-- The last height counts, a third column is refused and changes no row, and nothing is set
in a grid in which heights are missing. -/
theorem holds_what_was_set_overlaid :
    (2 ≤ 3 ∧ 3 ≤ 0x7fffffff ∧ 2 ≤ 2 ∧ 2 ≤ 0x7fffffff) ∧
    (∃ g, flat 1 1 3 2 = .ok g ∧ ∃ s, (Setting.run overlaid g).sampler = .ok s ∧
      (s.pointAt 1 2).y = 4 ∧ (s.pointAt 0 2).y = 5 ∧ (s.pointAt 0 1).y = .zero ∧
      ¬ ∃ g', Setting.apply ⟨2, 1, 7⟩ (Setting.run overlaid g) = .ok () g') ∧
    (gapped.heights.values.length : Int) ≠ gapped.rows.toInt * gapped.columns.toInt ∧
    ∃ e, setHeight 0 0 1 gapped = .error e gapped := by
  have hgapped : (gapped.heights.values.length : Int) ≠
      gapped.rows.toInt * gapped.columns.toInt := by decide
  refine ⟨by decide, ?_, hgapped, holds_what_was_set.2 gapped 0 0 1 (.inr (.inr hgapped))⟩
  obtain ⟨g, hflat, -, hruns⟩ :=
    holds_what_was_set.1 1 1 3 2 (by decide) (by decide) (by decide) (by decide)
  obtain ⟨-, -, ⟨s, -, hsampler, -, hheights⟩, hcalls⟩ := hruns overlaid
  refine ⟨g, hflat, s, hsampler, hheights 1 2 (by decide) (by decide),
    hheights 0 2 (by decide) (by decide), hheights 0 1 (by decide) (by decide), ?_⟩
  intro hmade
  exact absurd ((hcalls ⟨2, 1, 7⟩).1.1 hmade).1 (by decide)

end MapDocument.HeightGrid
