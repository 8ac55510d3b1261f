import NanoVNA.CalibrationFrame

namespace NanoVNA.CalibrationCollect

open NanoVNA.DeviceState NanoVNA.SweepGrid NanoVNA.Calibration NanoVNA.CalibrationFrame

variable {R : Type} {p : Properties R}

def GridCurrent (p : Properties R) : Prop :=
  needInterpolate p (sweepGetOrdered p).1 (sweepGetOrdered p).2 p.sweepPoints = false

theorem GridCurrent.points (h : GridCurrent p) : p.calSweepPoints = p.sweepPoints := by
  simp only [GridCurrent, needInterpolate, Bool.or_eq_false_iff, bne_eq_false_iff_eq] at h
  exact h.2.symm

theorem gridCurrent_framed {p' : Properties R} (h : Framed p p') (hp : GridCurrent p) :
    GridCurrent p' := by
  obtain ⟨_, _, rfl, _⟩ := h
  exact hp

theorem renewGrid_of_current (h : GridCurrent p) : renewGrid p = p := by
  simp only [GridCurrent] at h
  simp [renewGrid, h]

theorem renewGrid_current (p : Properties R) : GridCurrent (renewGrid p) := by
  unfold renewGrid
  dsimp only
  split
  · simp [GridCurrent, needInterpolate, sweepGetOrdered]
  · rename_i h
    exact Bool.eq_false_iff.mpr h

theorem renewGrid_cases (p : Properties R) :
    renewGrid p = p ∨ (renewGrid p).calStatus = .zero := by
  unfold renewGrid
  dsimp only
  split
  · exact .inr rfl
  · exact .inl rfl

@[simp] theorem renewGrid_sweepPoints (p : Properties R) :
    (renewGrid p).sweepPoints = p.sweepPoints := by
  unfold renewGrid
  dsimp only
  split <;> rfl

@[simp] theorem renewGrid_calData (p : Properties R) : (renewGrid p).calData = p.calData := by
  unfold renewGrid
  dsimp only
  split <;> rfl

theorem calCollect_type (std : Standard) (measured : Fin 2 → Nat → Sample R) (s : Vna R) :
    calCollect std.type measured s = { s with props := collectStandard std measured s.props } := by
  cases std <;> rfl

def flagged (st : CalStatus) (std : Standard) : CalStatus := setFlag (clrFlag st std) std

section Standards

variable (std : Standard) (measured : Fin 2 → Nat → Sample R) (p : Properties R)

theorem collectStandard_current : GridCurrent (collectStandard std measured p) :=
  renewGrid_current p

@[simp] theorem collectStandard_sweepPoints :
    (collectStandard std measured p).sweepPoints = p.sweepPoints := renewGrid_sweepPoints p

theorem collectStandard_calStatus :
    (collectStandard std measured p).calStatus =
      flagged (renewGrid p).calStatus std := rfl

theorem collectStandard_calData (i : Nat) :
    (collectStandard std measured p).calData i =
      Function.update (p.calData i) std.cell (measured std.src i) := by
  rw [← renewGrid_calData p]
  rfl

theorem collectStandard_of_current {p : Properties R} (h : GridCurrent p) :
    collectStandard std measured p =
      { p with
        calPower := p.power
        calStatus := flagged p.calStatus std
        calData := fun i => Function.update (p.calData i) std.cell (measured std.src i) } := by
  rw [collectStandard, renewGrid_of_current h]
  rfl

theorem collectStandard_renewGrid :
    collectStandard std measured (renewGrid p) = collectStandard std measured p := by
  rw [collectStandard, renewGrid_of_current (renewGrid_current p), collectStandard]

end Standards

theorem flagged_captures (st : CalStatus) (std : Standard) :
    (flagged st std).load = (st.load || decide (std = .load)) ∧
      (flagged st std).open_ = (st.open_ || decide (std = .open_)) ∧
      (flagged st std).short = (st.short || decide (std = .short)) ∧
      (flagged st std).thru = (st.thru || decide (std = .thru)) ∧
      (flagged st std).isoln = (st.isoln || decide (std = .isoln)) := by
  cases std <;> simp [flagged, setFlag, clrFlag]

theorem flagged_apply (st : CalStatus) (std : Standard) : (flagged st std).apply = false := by
  cases std <;> rfl

theorem flagged_interpolated (st : CalStatus) (std : Standard) :
    (flagged st std).interpolated = st.interpolated := by
  cases std <;> rfl

theorem flagged_terms (st : CalStatus) (std : Standard) :
    (st.es = false → (flagged st std).es = false) ∧ (st.er = false → (flagged st std).er = false) ∧
      (st.et = false → (flagged st std).et = false) := by
  cases std <;> simp [flagged, setFlag, clrFlag]

def statusAfter (types : List Standard) (st : CalStatus) : CalStatus := types.foldl flagged st

section Bits

variable {bit : CalStatus → Bool} {types : List Standard} {st : CalStatus}

theorem statusAfter_shows {x : Standard}
    (h : ∀ st std, bit (flagged st std) = (bit st || decide (std = x)))
    (hx : x ∈ types ∨ bit st = false) : bit (statusAfter types st) = true ↔ x ∈ types := by
  have hset : bit (statusAfter types st) = true ↔ bit st = true ∨ x ∈ types := by
    clear hx
    induction types generalizing st with
    | nil => simp [statusAfter]
    | cons std types ih =>
      rw [statusAfter, List.foldl_cons, ← statusAfter, ih, h, Bool.or_eq_true, decide_eq_true_iff,
        List.mem_cons, or_assoc, eq_comm (a := std)]
  rw [hset]
  refine or_iff_right_of_imp fun hst => hx.resolve_right fun hf => ?_
  rw [hst] at hf
  cases hf

theorem statusAfter_false (h : ∀ st std, bit st = false → bit (flagged st std) = false)
    (hst : bit st = false) : bit (statusAfter types st) = false := by
  induction types generalizing st with
  | nil => exact hst
  | cons std types ih => exact ih (h st std hst)

end Bits

abbrev Capture (R : Type) := Standard × (Fin 2 → Nat → Sample R)

def collectAll (captures : List (Capture R)) (s : Vna R) : Vna R :=
  captures.foldl (fun s c => calCollect c.1.type c.2 s) s

theorem collectAll_cons (c : Capture R) (captures : List (Capture R)) (s : Vna R) :
    collectAll (c :: captures) s =
      collectAll captures { s with props := collectStandard c.1 c.2 s.props } := by
  rw [collectAll, List.foldl_cons, calCollect_type, ← collectAll]

theorem collectAll_current {captures : List (Capture R)} {s : Vna R} (h : GridCurrent s.props) :
    GridCurrent (collectAll captures s).props ∧
      (collectAll captures s).props.sweepPoints = s.props.sweepPoints ∧
      (collectAll captures s).props.calStatus =
        statusAfter (captures.map Prod.fst) s.props.calStatus := by
  induction captures generalizing s with
  | nil => exact ⟨h, rfl, rfl⟩
  | cons c captures ih =>
    obtain ⟨hgrid, hpoints, hstatus⟩ :=
      ih (s := { s with props := collectStandard c.1 c.2 s.props }) (collectStandard_current ..)
    rw [collectAll_cons]
    refine ⟨hgrid, hpoints.trans (collectStandard_sweepPoints ..), hstatus.trans ?_⟩
    rw [collectStandard_calStatus, renewGrid_of_current h]
    rfl

/-- The first collection renews the grid, the others leave it. -/
theorem collectAll_spec {captures : List (Capture R)} (hne : captures ≠ []) (s : Vna R) :
    GridCurrent (collectAll captures s).props ∧
      (collectAll captures s).props.sweepPoints = s.props.sweepPoints ∧
      (collectAll captures s).props.calStatus =
        statusAfter (captures.map Prod.fst) (renewGrid s.props).calStatus := by
  obtain ⟨c, captures, rfl⟩ := List.exists_cons_of_ne_nil hne
  have hrenew : collectAll (c :: captures) s =
      collectAll (c :: captures) { s with props := renewGrid s.props } := by
    rw [collectAll_cons, collectAll_cons, collectStandard_renewGrid]
  have hspec := @collectAll_current R (c :: captures) { s with props := renewGrid s.props }
    (renewGrid_current s.props)
  rw [hrenew]
  exact ⟨hspec.1, hspec.2.1.trans (renewGrid_sweepPoints ..), hspec.2.2⟩

theorem cell_injective {x y : Standard} (h : x.cell = y.cell) : x = y := by
  cases x <;> cases y <;> first | rfl | cases h

theorem collectAll_cell {captures : List (Capture R)} {s : Vna R} {std : Standard} {i : Nat}
    {P : Sample R → Prop} (hall : ∀ c ∈ captures, c.1 = std → P (c.2 std.src i))
    (h : std ∈ captures.map Prod.fst ∨ P (s.props.calData i std.cell)) :
    P ((collectAll captures s).props.calData i std.cell) := by
  induction captures generalizing s with
  | nil => exact h.resolve_left (List.not_mem_nil)
  | cons c captures ih =>
    rw [collectAll_cons]
    refine ih (fun c' hc' => hall c' (List.mem_cons_of_mem c hc')) ?_
    rw [collectStandard_calData]
    by_cases hstd : c.1 = std
    · have hmeasured := hall c List.mem_cons_self hstd
      rw [hstd, Function.update_self]
      exact .inr hmeasured
    · rw [Function.update_of_ne fun hcell => hstd (cell_injective hcell).symm]
      exact h.imp_left fun hmem => (List.mem_cons.mp hmem).resolve_left (Ne.symm hstd)

def calibrate [Field R] [LinearOrder R] (captures : List (Capture R)) (s : Vna R) : Vna R :=
  calDone (collectAll captures s)

end NanoVNA.CalibrationCollect
