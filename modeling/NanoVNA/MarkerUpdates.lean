import NanoVNA.DivisionSafety
import NanoVNA.GridFrequencies

namespace NanoVNA.MarkerUpdates

open NanoVNA.Word32 NanoVNA.DeviceState NanoVNA.SweepGrid NanoVNA.GridFrequencies
open NanoVNA.SweepRequests NanoVNA.SweepDivisions NanoVNA.DivisionSafety

variable {R : Type} {start stop points f k : Nat}

section Law

/-- No point of a grid of frequencies lies strictly between a frequency and the one at an index. -/
def Adjacent (grid : Nat → Nat) (points index f : Nat) : Prop :=
  ∀ j < points, ¬ (f < grid j ∧ grid j < grid index) ∧ ¬ (grid index < grid j ∧ grid j < f)

structure Belongs (grid : Nat → Nat) (start stop points f index : Nat) : Prop where
  below : f < start → index = 0
  above : stop < f → index = points - 1
  inside : start ≤ f → f ≤ stop → index < points ∧ Adjacent grid points index f
  onGrid : ∀ k < points, f = grid k → index = k

/-- The step that `update_marker_index` divides by. -/
def wholeStep (start stop points : Nat) : Nat := (stop - start) / (points - 1)

/-- A frequency that the division finds the place of: a step of a hertz or more; below the range the
wrapped difference is negative as a signed number, above it is not; inside, the hertz that the grid
has been rounded up by so far are less than a step, or two steps off the grid. -/
structure Findable (start stop points f : Nat) : Prop where
  step : 0 < wholeStep start stop points
  below : f < start →
    (wholeStep start stop points = 1 ∧ start - f ≤ 2 ^ 31) ∨
      2 ^ 32 - (start - f) < wholeStep start stop points
  above : stop < f → 1 < wholeStep start stop points ∨ f - start < 2 ^ 31
  inside : ∀ k, k + 1 < points → gridFrequency start stop points k ≤ f →
    f < gridFrequency start stop points (k + 1) →
      if f = gridFrequency start stop points k then
        f < start + (k + 1) * wholeStep start stop points
      else f < start + (k + 2) * wholeStep start stop points ∨ k + 2 = points

end Law

section Index

theorem index_setMarkerIndex (g : Grid) (m : Marker) (h : Spans start stop points) :
    (setMarkerIndex g points m (markerIndexOf start stop points m)).index =
      if 2 ^ 31 ≤ sub32 m.frequency start / wholeStep start stop points then 0
      else min (sub32 m.frequency start / wholeStep start stop points) (points - 1) := by
  have hstep : (if 1 < points then sub32 stop start / (points - 1) else 1) =
      wholeStep start stop points := by
    rw [if_pos (Nat.lt_of_succ_le h.two), sub32_of_le h.lt h.le, wholeStep]
  have hpoints := h.points_pos
  have hlt : sub32 m.frequency start / wholeStep start stop points < 2 ^ 32 :=
    Nat.lt_of_le_of_lt (Nat.div_le_self _ _) (u32_lt _)
  simp only [setMarkerIndex, markerIndexOf, hstep]
  generalize sub32 m.frequency start / wholeStep start stop points = q at hlt ⊢
  unfold int32
  rw [u32_of_lt hlt]
  by_cases hq : q < 2 ^ 31
  · rw [if_pos hq, if_neg (Nat.not_le.mpr hq)]
    grind
  · rw [if_neg hq, if_pos (Nat.le_of_not_lt hq)]
    grind

end Index

section Brackets

variable (h : Spans start stop points) (hstep : 0 < wholeStep start stop points)

include h hstep in
theorem grid_lt_iff {i j : Nat} :
    gridFrequency start stop points i < gridFrequency start stop points j ↔ i < j := by
  have hdistinct : points - 1 ≤ stop - start :=
    (Nat.div_pos_iff.mp hstep).2
  constructor
  · intro hlt
    apply Nat.lt_of_not_le
    intro hle
    have := @gridFrequency_mono start stop points _ _ hle
    omega
  · exact gridFrequency_lt h hdistinct

include h in
theorem steps_le_grid (k : Nat) :
    start + k * wholeStep start stop points ≤ gridFrequency start stop points k := by
  have hmul : wholeStep start stop points * (points - 1) ≤ stop - start := Nat.div_mul_le_self _ _
  have hle : k * wholeStep start stop points * (points - 1) ≤
      (stop - start) * k + (points - 1) / 2 :=
    calc k * wholeStep start stop points * (points - 1)
        = wholeStep start stop points * (points - 1) * k := by ac_rfl
      _ ≤ (stop - start) * k := Nat.mul_le_mul_right k hmul
      _ ≤ (stop - start) * k + (points - 1) / 2 := Nat.le_add_right _ _
  exact Nat.add_le_add_left ((Nat.le_div_iff_mul_le h.steps_pos).mpr hle) start

include h in
theorem exists_bracket (hlo : start ≤ f) (hhi : f < stop) :
    ∃ k, k + 1 < points ∧ gridFrequency start stop points k ≤ f ∧
      f < gridFrequency start stop points (k + 1) := by
  have hfind : ∀ n, f < gridFrequency start stop points n →
      ∃ k < n, gridFrequency start stop points k ≤ f ∧
        f < gridFrequency start stop points (k + 1) := by
    intro n
    induction n with
    | zero =>
      intro hlt
      rw [gridFrequency_zero h] at hlt
      omega
    | succ n ih =>
      intro hlt
      by_cases hn : f < gridFrequency start stop points n
      · obtain ⟨k, hk, hbracket⟩ := ih hn
        exact ⟨k, Nat.lt_succ_of_lt hk, hbracket⟩
      · exact ⟨n, Nat.lt_succ_self n, Nat.le_of_not_lt hn, hlt⟩
  obtain ⟨k, hk, hbracket⟩ := hfind (points - 1) (by rwa [gridFrequency_last h])
  exact ⟨k, by omega, hbracket⟩

include h hstep in
theorem adjacent_iff {index : Nat} (hk : k + 1 < points)
    (hlo : gridFrequency start stop points k < f)
    (hhi : f < gridFrequency start stop points (k + 1)) :
    Adjacent (gridFrequency start stop points) points index f ↔ k ≤ index ∧ index ≤ k + 1 := by
  have hlt := fun i j => grid_lt_iff h hstep (i := i) (j := j)
  constructor
  · intro hadjacent
    constructor
    · apply Nat.le_of_not_lt
      intro hbelow
      exact (hadjacent k (by omega)).2 ⟨(hlt _ _).mpr hbelow, hlo⟩
    · apply Nat.le_of_not_lt
      intro habove
      exact (hadjacent (k + 1) hk).1 ⟨hhi, (hlt _ _).mpr habove⟩
  · intro ⟨hbelow, habove⟩ j hj
    constructor
    · intro ⟨hjf, hji⟩
      have hji := (hlt _ _).mp hji
      have hmono := @gridFrequency_mono start stop points j k (by omega)
      omega
    · intro ⟨hij, hjf⟩
      have hij := (hlt _ _).mp hij
      have hmono := @gridFrequency_mono start stop points (k + 1) j (by omega)
      omega

theorem adjacent_self (grid : Nat → Nat) (points index : Nat) :
    Adjacent grid points index (grid index) := by
  intro j _
  omega

end Brackets

section Marker

variable (h : Spans start stop points) (hf : f < 2 ^ 32)

/-- What `index_setMarkerIndex` gives for a frequency. -/
def placeOf (start stop points f : Nat) : Nat :=
  if 2 ^ 31 ≤ sub32 f start / wholeStep start stop points then 0
  else min (sub32 f start / wholeStep start stop points) (points - 1)

include h hf in
theorem below_iff (hstep : 0 < wholeStep start stop points) (hbelow : f < start) :
    placeOf start stop points f = 0 ↔
      (wholeStep start stop points = 1 ∧ start - f ≤ 2 ^ 31) ∨
        2 ^ 32 - (start - f) < wholeStep start stop points := by
  have hwrap : sub32 f start = 2 ^ 32 - (start - f) := by
    have := h.lt
    have := h.le
    unfold sub32 u32
    omega
  have htwo := h.two
  rw [placeOf, hwrap]
  generalize hd : 2 ^ 32 - (start - f) = d
  generalize wholeStep start stop points = step at hstep ⊢
  have hzero : d / step = 0 ↔ d < step := Nat.div_eq_zero_iff_lt hstep
  have hlarge : 2 ^ 31 ≤ d / step ↔ step = 1 ∧ start - f ≤ 2 ^ 31 := by
    rw [Nat.le_div_iff_mul_le hstep]
    constructor
    · intro hmul
      have hone : step = 1 := by omega
      omega
    · intro ⟨hone, hle⟩
      omega
  split
  next hlarge' => exact iff_of_true rfl (Or.inl (hlarge.mp hlarge'))
  next hlarge' =>
    have hnot := mt hlarge.mpr hlarge'
    constructor
    · intro hmin
      exact Or.inr (hzero.mp (by omega))
    · intro hor
      rw [hzero.mpr (hor.resolve_left hnot), Nat.zero_min]

include h hf in
theorem above_iff (hstep : 0 < wholeStep start stop points) (habove : stop < f) :
    placeOf start stop points f = points - 1 ↔
      1 < wholeStep start stop points ∨ f - start < 2 ^ 31 := by
  have hdiff : sub32 f start = f - start := sub32_of_le hf (by have := h.le; omega)
  have htwo := h.two
  have hspan : wholeStep start stop points * (points - 1) ≤ stop - start := Nat.div_mul_le_self _ _
  have hfar : points - 1 ≤ (f - start) / wholeStep start stop points := by
    rw [Nat.le_div_iff_mul_le hstep, Nat.mul_comm]
    omega
  rw [placeOf, hdiff]
  have hsmall : (f - start) / wholeStep start stop points < 2 ^ 31 ↔
      1 < wholeStep start stop points ∨ f - start < 2 ^ 31 := by
    rw [Nat.div_lt_iff_lt_mul hstep]
    generalize wholeStep start stop points = step at hstep ⊢
    omega
  rw [← hsmall]
  split <;> omega

include h in
/-- Inside the range the difference does not wrap, and its quotient is no negative number. -/
theorem placeOf_inside (hstep : 0 < wholeStep start stop points) (hlo : start ≤ f)
    (hhi : f ≤ stop) :
    placeOf start stop points f =
      min ((f - start) / wholeStep start stop points) (points - 1) := by
  have hlt := h.lt
  have hcounted := h.counted
  have hdiff : sub32 f start = f - start := sub32_of_le (by omega) hlo
  have hsmall : (f - start) / wholeStep start stop points < 2 ^ 31 := by
    rw [Nat.div_lt_iff_lt_mul hstep]
    have hspan := Nat.lt_mul_div_succ (stop - start) h.steps_pos
    have hone : wholeStep start stop points + 1 ≤ 2 * wholeStep start stop points := by omega
    calc f - start ≤ stop - start := by omega
      _ < (points - 1) * (wholeStep start stop points + 1) := hspan
      _ ≤ 65535 * (2 * wholeStep start stop points) := Nat.mul_le_mul (by omega) hone
      _ ≤ 2 ^ 31 * wholeStep start stop points := by omega
  rw [placeOf, hdiff, if_neg (Nat.not_le.mpr hsmall)]

include h in
theorem onGrid_iff (hstep : 0 < wholeStep start stop points) (hk : k + 1 < points)
    (hf : f = gridFrequency start stop points k) :
    placeOf start stop points f = k ↔
      f < start + (k + 1) * wholeStep start stop points := by
  have hle := gridFrequency_le h (show k < points by omega)
  have hsteps := steps_le_grid h k
  rw [← hf] at hle hsteps
  have hlo : k ≤ (f - start) / wholeStep start stop points := by
    rw [Nat.le_div_iff_mul_le hstep]
    omega
  have hhi : (f - start) / wholeStep start stop points < k + 1 ↔
      f < start + (k + 1) * wholeStep start stop points := by
    rw [Nat.div_lt_iff_lt_mul hstep]
    omega
  rw [placeOf_inside h hstep (by omega) hle, ← hhi]
  omega

include h in
theorem offGrid_iff (hstep : 0 < wholeStep start stop points) (hk : k + 1 < points)
    (hlo : gridFrequency start stop points k < f)
    (hhi : f < gridFrequency start stop points (k + 1)) :
    Adjacent (gridFrequency start stop points) points (placeOf start stop points f) f ↔
      f < start + (k + 2) * wholeStep start stop points ∨ k + 2 = points := by
  have hle := gridFrequency_le h hk
  have hsteps := steps_le_grid h k
  have hplace : k ≤ (f - start) / wholeStep start stop points := by
    rw [Nat.le_div_iff_mul_le hstep]
    omega
  have hnext : (f - start) / wholeStep start stop points < k + 2 ↔
      f < start + (k + 2) * wholeStep start stop points := by
    rw [Nat.div_lt_iff_lt_mul hstep]
    omega
  rw [adjacent_iff h hstep hk hlo hhi, placeOf_inside h hstep (by omega) (by omega), ← hnext]
  omega

include h in
theorem placeOf_stop (hstep : 0 < wholeStep start stop points) :
    placeOf start stop points stop = points - 1 := by
  have hspan : wholeStep start stop points * (points - 1) ≤ stop - start := Nat.div_mul_le_self _ _
  have hfar : points - 1 ≤ (stop - start) / wholeStep start stop points := by
    rwa [Nat.le_div_iff_mul_le hstep, Nat.mul_comm]
  rw [placeOf_inside h hstep h.le (Nat.le_refl _), Nat.min_eq_right hfar]

include h hf in
theorem belongs_iff (hstep : 0 < wholeStep start stop points) :
    Belongs (gridFrequency start stop points) start stop points f (placeOf start stop points f) ↔
      Findable start stop points f := by
  constructor
  · intro hb
    refine ⟨hstep, fun hbelow => (below_iff h hf hstep hbelow).mp (hb.below hbelow),
      fun habove => (above_iff h hf hstep habove).mp (hb.above habove), fun k hk hlo hhi => ?_⟩
    have hrange := gridFrequency_le h hk
    have hstart := @start_le_gridFrequency start stop points k
    split
    next heq => exact (onGrid_iff h hstep hk heq).mp (hb.onGrid k (by omega) heq)
    next hne =>
      exact (offGrid_iff h hstep hk (by omega) hhi).mp (hb.inside (by omega) (by omega)).2
  · intro hfind
    have hpoints := h.points_pos
    have honGrid : ∀ k < points, f = gridFrequency start stop points k →
        placeOf start stop points f = k := by
      intro k hk heq
      by_cases hlast : k = points - 1
      · rw [hlast, gridFrequency_last h] at heq
        rw [heq, placeOf_stop h hstep, hlast]
      · have hnext := (grid_lt_iff h hstep).mpr (Nat.lt_add_one k)
        have hcase := hfind.inside k (by omega) (by omega) (by omega)
        rw [if_pos heq] at hcase
        exact (onGrid_iff h hstep (by omega) heq).mpr hcase
    refine ⟨fun hbelow => (below_iff h hf hstep hbelow).mpr (hfind.below hbelow),
      fun habove => (above_iff h hf hstep habove).mpr (hfind.above habove),
      fun hlo hhi => ⟨?_, ?_⟩, honGrid⟩
    · rw [placeOf_inside h hstep hlo hhi]
      omega
    · obtain hlt | rfl := Nat.lt_or_eq_of_le hhi
      · obtain ⟨k, hk, hklo, hkhi⟩ := exists_bracket h hlo hlt
        have hcase := hfind.inside k hk hklo hkhi
        split at hcase
        next heq =>
          rw [honGrid k (by omega) heq, heq]
          exact adjacent_self _ _ k
        next hne => exact (offGrid_iff h hstep hk (by omega) hkhi).mpr hcase
      · have hself := adjacent_self (gridFrequency start f points) points (points - 1)
        rwa [gridFrequency_last h, ← placeOf_stop h hstep] at hself

end Marker

section Updates

theorem belongs_congr {grid other : Nat → Nat} (hgrid : ∀ j < points, grid j = other j)
    {index : Nat} :
    Belongs grid start stop points f index ↔ Belongs other start stop points f index := by
  have hto : ∀ {grid other : Nat → Nat}, (∀ j < points, grid j = other j) →
      Belongs grid start stop points f index → Belongs other start stop points f index := by
    intro grid other hsame hb
    refine ⟨hb.below, hb.above, fun hlo hhi => ?_, fun k hk hf => ?_⟩
    · obtain ⟨hindex, hadjacent⟩ := hb.inside hlo hhi
      refine ⟨hindex, fun j hj => ?_⟩
      rw [← hsame j hj, ← hsame index hindex]
      exact hadjacent j hj
    · exact hb.onGrid k hk (hf.trans (hsame k hk).symm)
  exact ⟨hto hgrid, hto fun j hj => (hgrid j hj).symm⟩

variable {board : Board} {w t : Drawn R}

structure WordFrequencies (p : Properties R) : Prop where
  frequency0 : p.frequency0 < 2 ^ 32
  frequency1 : p.frequency1 < 2 ^ 32
  markers : ∀ i, (p.markers i).frequency < 2 ^ 32

/-- The update of the grid divides by no zero and puts every enabled marker where its frequency
belongs in the new range. -/
def MarkersFollow (board : Board) (w : Drawn R) : Prop :=
  ∃ t, checkedUpdate board w = some t ∧
    ∀ i, (w.vna.props.markers i).enabled = true →
      Belongs (getFrequency t.vna.grid) (sweepGetOrdered w.vna.props).1
        (sweepGetOrdered w.vna.props).2 w.vna.props.sweepPoints (w.vna.props.markers i).frequency
        (t.vna.props.markers i).index

def MarkersFindable (p : Properties R) : Prop :=
  p.sweepPoints ≠ 1 ∧
    ∀ i, (p.markers i).enabled = true →
      Findable (sweepGetOrdered p).1 (sweepGetOrdered p).2 p.sweepPoints (p.markers i).frequency

variable (hc : CountsOk w.vna.props) (hw : WordFrequencies w.vna.props)

include hc hw in
theorem spans_of_counts (hone : w.vna.props.sweepPoints ≠ 1) : SweepSpans w.vna.props := by
  obtain ⟨h1, h2⟩ := hc.points
  have h3 := hw.frequency0
  have h4 := hw.frequency1
  unfold SweepSpans sweepGetOrdered
  split
  next hle => exact ⟨hle, h4, by omega, h2⟩
  next hgt => exact ⟨by dsimp only; omega, h3, by omega, h2⟩

include hc hw in
theorem updateOk_iff (hone : w.vna.props.sweepPoints ≠ 1) :
    UpdateOk w.vna.props ↔ (∀ i, (w.vna.props.markers i).enabled = false) ∨
      0 < wholeStep (sweepGetOrdered w.vna.props).1 (sweepGetOrdered w.vna.props).2
        w.vna.props.sweepPoints := by
  have h := spans_of_counts hc hw hone
  have hspan : getSweepFrequency w.vna.props .span =
      (sweepGetOrdered w.vna.props).2 - (sweepGetOrdered w.vna.props).1 := sub32_of_le h.lt h.le
  have htwo := h.two
  rw [UpdateOk, and_iff_right hone, hspan, wholeStep, Nat.div_pos_iff]
  refine or_congr Iff.rfl ?_
  omega

theorem marker_updated (board : Board) {i : Fin 8} (hi : (w.vna.props.markers i).enabled = true) :
    (updated board w.vna).vna.props.markers i =
      setMarkerIndex (updated board w.vna).vna.grid w.vna.props.sweepPoints
        (w.vna.props.markers i) (markerIndexOf (sweepGetOrdered w.vna.props).1
          (sweepGetOrdered w.vna.props).2 w.vna.props.sweepPoints (w.vna.props.markers i)) :=
  if_pos hi

theorem frequency_updated (board : Board) {i : Fin 8}
    (hi : (w.vna.props.markers i).enabled = true) :
    ((updated board w.vna).vna.props.markers i).frequency =
      getFrequency (updated board w.vna).vna.grid
        ((updated board w.vna).vna.props.markers i).index := by
  rw [marker_updated board hi]
  rfl

include hc hw in
theorem index_updated (hone : w.vna.props.sweepPoints ≠ 1) (i : Fin 8)
    (hi : (w.vna.props.markers i).enabled = true) :
    ((updated board w.vna).vna.props.markers i).index =
      placeOf (sweepGetOrdered w.vna.props).1 (sweepGetOrdered w.vna.props).2
        w.vna.props.sweepPoints (w.vna.props.markers i).frequency := by
  rw [marker_updated board hi, index_setMarkerIndex _ _ (spans_of_counts hc hw hone)]
  rfl

include hc hw in
theorem markersFollow_iff : MarkersFollow board w ↔ MarkersFindable w.vna.props := by
  constructor
  · intro ⟨t, ht, hbelongs⟩
    obtain ⟨hok, rfl⟩ := (checkedUpdate_eq_some_iff hc).mp ht
    refine ⟨hok.1, fun i hi => ?_⟩
    have h := spans_of_counts hc hw hok.1
    have hstep := ((updateOk_iff hc hw hok.1).mp hok).resolve_left fun hoff => by
      rw [hoff i] at hi
      cases hi
    have hb := hbelongs i hi
    rw [index_updated hc hw hok.1 i hi] at hb
    exact (belongs_iff h (hw.markers i) hstep).mp
      ((belongs_congr fun j hj => getFrequency_grid h hj).mp hb)
  · intro ⟨hone, hfind⟩
    have h := spans_of_counts hc hw hone
    have hok : UpdateOk w.vna.props := by
      refine (updateOk_iff hc hw hone).mpr ?_
      by_cases hoff : ∀ i, (w.vna.props.markers i).enabled = false
      · exact Or.inl hoff
      · obtain ⟨i, hi⟩ := not_forall.mp hoff
        exact Or.inr (hfind i (Bool.eq_true_of_not_eq_false hi)).step
    refine ⟨_, (checkedUpdate_eq_some_iff hc).mpr ⟨hok, rfl⟩, fun i hi => ?_⟩
    rw [index_updated hc hw hone i hi]
    exact (belongs_congr fun j hj => getFrequency_grid h hj).mpr
      ((belongs_iff h (hw.markers i) (hfind i hi).step).mpr (hfind i hi))

end Updates

section Repeated

/-- A range whose grid stays within a step of the unrounded one up to the last interval. -/
def Steady (start stop points : Nat) : Prop :=
  (stop - start) % (points - 1) * (points - 2) + (points - 1) / 2 <
    wholeStep start stop points * (points - 1)

instance (start stop points : Nat) : Decidable (Steady start stop points) := Nat.decLt _ _

theorem Steady.step_pos (hs : Steady start stop points) : 0 < wholeStep start stop points := by
  apply Nat.pos_of_ne_zero
  intro hzero
  rw [Steady, hzero, Nat.zero_mul] at hs
  exact absurd hs (Nat.not_lt_zero _)

section Grid

variable (h : Spans start stop points)

include h in
theorem grid_steps (k : Nat) :
    gridFrequency start stop points k = start + (k * wholeStep start stop points +
      ((stop - start) % (points - 1) * k + (points - 1) / 2) / (points - 1)) := by
  have hspan : (stop - start) * k =
      (stop - start) % (points - 1) * k + k * wholeStep start stop points * (points - 1) :=
    calc (stop - start) * k
        = ((stop - start) % (points - 1) + (points - 1) * wholeStep start stop points) * k := by
          rw [wholeStep, Nat.mod_add_div]
      _ = (stop - start) % (points - 1) * k + (points - 1) * wholeStep start stop points * k :=
          Nat.add_mul _ _ _
      _ = (stop - start) % (points - 1) * k + k * wholeStep start stop points * (points - 1) := by
          ac_rfl
  rw [gridFrequency, hspan, Nat.add_right_comm, Nat.add_mul_div_right _ _ h.steps_pos,
    Nat.add_comm (_ / _)]

include h in
theorem steady_iff :
    Steady start stop points ↔ ∀ k, k + 1 < points →
      gridFrequency start stop points k < start + (k + 1) * wholeStep start stop points := by
  have hround : ∀ k, gridFrequency start stop points k <
      start + (k + 1) * wholeStep start stop points ↔
        (stop - start) % (points - 1) * k + (points - 1) / 2 <
          wholeStep start stop points * (points - 1) := by
    intro k
    rw [grid_steps h, Nat.succ_mul, ← Nat.div_lt_iff_lt_mul h.steps_pos]
    omega
  have htwo := h.two
  constructor
  · intro hs k hk
    refine (hround k).mpr (Nat.lt_of_le_of_lt ?_ hs)
    exact Nat.add_le_add_right (Nat.mul_le_mul_left _ (by omega)) _
  · intro hall
    exact (hround (points - 2)).mp (hall (points - 2) (by omega))

include h in
theorem placeOf_lt : placeOf start stop points f < points := by
  have := h.points_pos
  unfold placeOf
  split <;> omega

include h in
theorem placeOf_steps (hstep : 0 < wholeStep start stop points) {k : Nat} (hk : k + 1 < points) :
    placeOf start stop points (start + k * wholeStep start stop points) = k := by
  have hle := Nat.le_trans (steps_le_grid h k) (gridFrequency_le h (show k < points by omega))
  rw [placeOf_inside h hstep (Nat.le_add_right _ _) hle, Nat.add_sub_cancel_left,
    Nat.mul_div_cancel _ hstep]
  omega

include h in
theorem placeOf_grid_iff (hstep : 0 < wholeStep start stop points) :
    Steady start stop points ↔ ∀ f < 2 ^ 32,
      placeOf start stop points (gridFrequency start stop points (placeOf start stop points f)) =
        placeOf start stop points f := by
  rw [steady_iff h]
  constructor
  · intro hall f _
    have hlt := placeOf_lt h (f := f)
    generalize placeOf start stop points f = k at hlt ⊢
    by_cases hlast : k = points - 1
    · rw [hlast, gridFrequency_last h, placeOf_stop h hstep]
    · have hk : k + 1 < points := by omega
      exact (onGrid_iff h hstep hk rfl).mpr (hall k hk)
  · intro hall k hk
    have hle := Nat.le_trans (steps_le_grid h k) (gridFrequency_le h (show k < points by omega))
    have hstay := hall _ (Nat.lt_of_le_of_lt hle h.lt)
    rw [placeOf_steps h hstep hk] at hstay
    exact (onGrid_iff h hstep hk rfl).mp hstay

end Grid

variable {board : Board} {w t : Drawn R}

def withMarkers (w : Drawn R) (markers : Fin 8 → Marker) : Drawn R :=
  w.withProps { w.vna.props with markers := markers }

/-- Whatever the markers are, the update of the grid can be made twice, and the second time leaves
them as they are. -/
def MarkersStay (board : Board) (w : Drawn R) : Prop :=
  ∀ markers : Fin 8 → Marker, (∀ i, (markers i).frequency < 2 ^ 32) →
    ∃ t u, checkedUpdate board (withMarkers w markers) = some t ∧ checkedUpdate board t = some u ∧
      u.vna.props.markers = t.vna.props.markers

def RangeSteady (p : Properties R) : Prop :=
  p.sweepPoints ≠ 1 ∧ Steady (sweepGetOrdered p).1 (sweepGetOrdered p).2 p.sweepPoints

instance (p : Properties R) : Decidable (RangeSteady p) := inferInstanceAs (Decidable (_ ∧ _))

theorem setMarkerIndex_again (g : Grid) (points : Nat) (m : Marker) (idx : Int)
    (hgrid : m.frequency = getFrequency g m.index)
    (hindex : (setMarkerIndex g points m idx).index = m.index) :
    setMarkerIndex g points m idx = m := by
  obtain ⟨enabled, index, frequency⟩ := m
  simp only [setMarkerIndex] at hgrid hindex ⊢
  rw [hindex, hgrid]

variable (hc : CountsOk w.vna.props) (hw : WordFrequencies w.vna.props)

include hw in
theorem wordFrequencies_updated :
    WordFrequencies (updated board w.vna).vna.props where
  frequency0 := hw.frequency0
  frequency1 := hw.frequency1
  markers i := by
    have hmarker : (updated board w.vna).vna.props.markers i =
        if (w.vna.props.markers i).enabled = true then _ else w.vna.props.markers i := rfl
    rw [hmarker]
    split
    · exact u32_lt _
    · exact hw.markers i

include hc hw in
theorem frequency_placed (hone : w.vna.props.sweepPoints ≠ 1) {i : Fin 8}
    (hi : (w.vna.props.markers i).enabled = true) :
    ((updated board w.vna).vna.props.markers i).frequency =
      gridFrequency (sweepGetOrdered w.vna.props).1 (sweepGetOrdered w.vna.props).2
        w.vna.props.sweepPoints (placeOf (sweepGetOrdered w.vna.props).1
          (sweepGetOrdered w.vna.props).2 w.vna.props.sweepPoints
            (w.vna.props.markers i).frequency) := by
  have h := spans_of_counts hc hw hone
  rw [frequency_updated board hi, index_updated hc hw hone i hi]
  exact getFrequency_grid h (placeOf_lt h)

include hc hw in
theorem index_updated_again (hone : w.vna.props.sweepPoints ≠ 1) {i : Fin 8}
    (hi : (w.vna.props.markers i).enabled = true) :
    ((updated board (updated board w.vna).vna).vna.props.markers i).index =
      placeOf (sweepGetOrdered w.vna.props).1 (sweepGetOrdered w.vna.props).2
        w.vna.props.sweepPoints ((updated board w.vna).vna.props.markers i).frequency :=
  @index_updated R board (updated board w.vna) (consistent_updated hc).counts
    (wordFrequencies_updated hw) hone i ((enabled_update w.vna i).trans hi)

include hc hw in
theorem updated_again_iff (hone : w.vna.props.sweepPoints ≠ 1) :
    (updated board (updated board w.vna).vna).vna.props.markers =
        (updated board w.vna).vna.props.markers ↔
      ∀ i, (w.vna.props.markers i).enabled = true →
        let place := placeOf (sweepGetOrdered w.vna.props).1 (sweepGetOrdered w.vna.props).2
          w.vna.props.sweepPoints
        place (gridFrequency (sweepGetOrdered w.vna.props).1 (sweepGetOrdered w.vna.props).2
          w.vna.props.sweepPoints (place (w.vna.props.markers i).frequency)) =
            place (w.vna.props.markers i).frequency := by
  constructor
  · intro hsame i hi
    have hindex := congrArg Marker.index (congrFun hsame i)
    rw [index_updated_again hc hw hone hi, frequency_placed hc hw hone hi,
      index_updated hc hw hone i hi] at hindex
    exact hindex
  · intro hstay
    funext i
    by_cases hi : (w.vna.props.markers i).enabled = true
    · have hmarker := @marker_updated R (updated board w.vna) board i
        ((enabled_update w.vna i).trans hi)
      have hindex := @index_updated_again R board w hc hw hone i hi
      rw [frequency_placed hc hw hone hi, hstay i hi,
        ← @index_updated R board w hc hw hone i hi] at hindex
      rw [hmarker] at hindex ⊢
      exact setMarkerIndex_again _ _ _ _ (frequency_updated board hi) hindex
    · exact if_neg (mt (enabled_update w.vna i).symm.trans hi)

theorem counts_withMarkers (hc : CountsOk w.vna.props) (markers : Fin 8 → Marker) :
    CountsOk (withMarkers w markers).vna.props :=
  ⟨hc.points, hc.calPoints⟩

theorem words_withMarkers (hw : WordFrequencies w.vna.props) (markers : Fin 8 → Marker)
    (hm : ∀ i, (markers i).frequency < 2 ^ 32) :
    WordFrequencies (withMarkers w markers).vna.props :=
  ⟨hw.frequency0, hw.frequency1, hm⟩

include hc in
theorem stays_iff (markers : Fin 8 → Marker) :
    (∃ t u, checkedUpdate board (withMarkers w markers) = some t ∧ checkedUpdate board t = some u ∧
      u.vna.props.markers = t.vna.props.markers) ↔
      UpdateOk (withMarkers w markers).vna.props ∧
        (updated board (updated board (withMarkers w markers).vna).vna).vna.props.markers =
          (updated board (withMarkers w markers).vna).vna.props.markers := by
  have hcounts := counts_withMarkers hc markers
  have hagain : CountsOk (updated board (withMarkers w markers).vna).vna.props :=
    (consistent_updated hcounts).counts
  constructor
  · intro ⟨t, u, ht, hu, hsame⟩
    obtain ⟨hok, rfl⟩ := (checkedUpdate_eq_some_iff hcounts).mp ht
    obtain ⟨-, rfl⟩ := (checkedUpdate_eq_some_iff hagain).mp hu
    exact ⟨hok, hsame⟩
  · intro ⟨hok, hsame⟩
    have hok' := (updateOk_update (withMarkers w markers).vna).mpr hok
    exact ⟨_, _, (checkedUpdate_eq_some_iff hcounts).mpr ⟨hok, rfl⟩,
      (checkedUpdate_eq_some_iff hagain).mpr ⟨hok', rfl⟩, hsame⟩

include hc hw in
theorem markersStay_iff : MarkersStay board w ↔ RangeSteady w.vna.props := by
  constructor
  · intro hall
    have hevery : ∀ f < 2 ^ 32, _ := fun f hf =>
      (stays_iff hc fun _ => ⟨true, 0, f⟩).mp (hall (fun _ => ⟨true, 0, f⟩) fun _ => hf)
    have hzero := words_withMarkers hw (fun _ => ⟨true, 0, 0⟩) fun _ => Nat.two_pow_pos 32
    obtain ⟨hok, -⟩ := hevery 0 (Nat.two_pow_pos 32)
    have hone : w.vna.props.sweepPoints ≠ 1 := hok.1
    have hstep : 0 < wholeStep (sweepGetOrdered w.vna.props).1 (sweepGetOrdered w.vna.props).2
        w.vna.props.sweepPoints :=
      ((updateOk_iff (counts_withMarkers hc _) hzero hone).mp hok).resolve_left
        fun hoff => Bool.noConfusion (hoff 0)
    refine ⟨hone, (placeOf_grid_iff (spans_of_counts hc hw hone) hstep).mpr fun f hf => ?_⟩
    have hwords := words_withMarkers hw (fun _ => ⟨true, 0, f⟩) fun _ => hf
    exact (updated_again_iff (counts_withMarkers hc _) hwords hone).mp (hevery f hf).2 0 rfl
  · intro ⟨hone, hsteady⟩ markers hm
    have hcounts := counts_withMarkers hc markers
    have hwords := words_withMarkers hw markers hm
    refine (stays_iff hc markers).mpr
      ⟨(updateOk_iff hcounts hwords hone).mpr (Or.inr hsteady.step_pos), ?_⟩
    refine (updated_again_iff hcounts hwords hone).mpr fun i _ => ?_
    have h := spans_of_counts hc hw hone
    exact (placeOf_grid_iff h hsteady.step_pos).mp hsteady _ (hm i)

end Repeated

/-- The update puts the markers where their frequencies belong exactly when the division finds them
there, and a second one leaves any markers where they are exactly when the range is steady. -/
theorem markers_follow_iff (board : Board) (w : Drawn R) (hc : CountsOk w.vna.props)
    (hw : WordFrequencies w.vna.props) :
    (MarkersFollow board w ↔ MarkersFindable w.vna.props) ∧
      (MarkersStay board w ↔ RangeSteady w.vna.props) :=
  ⟨markersFollow_iff hc hw, markersStay_iff hc hw⟩

def markedDrawn (start stop f : Nat) : Drawn Nat :=
  (startedDrawn Nat .f072).withProps
    { (startedDrawn Nat .f072).vna.props with
      frequency0 := start, frequency1 := stop, sweepPoints := 101, markers := fun _ => ⟨true, 0, f⟩ }

theorem counts_markedDrawn : CountsOk (markedDrawn start stop f).vna.props :=
  have hpoints : 1 ≤ 101 ∧ 101 < 65536 := by decide
  ⟨hpoints, hpoints⟩

theorem markers_follow_iff_steady : MarkersStay .f072 (markedDrawn 1000000 2000000 1500000) :=
  (markers_follow_iff .f072 (markedDrawn 1000000 2000000 1500000) ⟨by decide, by decide⟩
    ⟨by decide, by decide, by decide⟩).2.mpr (by decide)

/-- A marker below the range goes to its end, and one on the grid of a span of 150 Hz is moved. -/
theorem markers_astray :
    ¬ MarkersFollow .f072 (markedDrawn 1000000 2000000 500000) ∧
      ¬ MarkersFollow .f072 (markedDrawn 1000000 1000150 1000075) ∧
      ¬ MarkersStay .f072 (markedDrawn 1000000 1000150 1000075) := by
  refine ⟨fun hfollow => ?_, fun hfollow => ?_, fun hstay => ?_⟩
  · have hfind := ((markersFollow_iff counts_markedDrawn
      ⟨by decide, by decide, by decide⟩).mp hfollow).2 0 rfl
    exact absurd (hfind.below (by decide)) (by decide)
  · have hfind := ((markersFollow_iff counts_markedDrawn
      ⟨by decide, by decide, by decide⟩).mp hfollow).2 0 rfl
    exact absurd (hfind.inside 50 (by decide) (by decide) (by decide)) (by decide)
  · have hsteady := (markersStay_iff counts_markedDrawn
      ⟨by decide, by decide, by decide⟩).mp hstay
    exact absurd hsteady (by decide)

end NanoVNA.MarkerUpdates
