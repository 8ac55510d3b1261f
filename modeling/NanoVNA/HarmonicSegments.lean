import NanoVNA.CalibrationSegments

namespace NanoVNA.HarmonicSegments

open NanoVNA.DeviceState NanoVNA.Calibration NanoVNA.BandSelection NanoVNA.SweepPoint
open NanoVNA.GridFrequencies NanoVNA.CalibrationSegments

def level (cfg : Config ℚ) (f : Nat) : Option Nat := si5351GetHarmonicLvl cfg.setup f

def pointLevel (cfg : Config ℚ) (i : Nat) : Option Nat := level cfg (calFrequency cfg.props i)

def withData (cfg : Config ℚ) (data : Nat → Point ℚ) : Config ℚ :=
  { cfg with props := { cfg.props with calData := data } }

/-- The terms at a frequency do not change with the calibration of the points of other levels. -/
def OnlyFromLevel (cfg : Config ℚ) (f : Nat) : Prop :=
  ∀ data, (∀ i < cfg.props.calSweepPoints, pointLevel cfg i = level cfg f →
      data i = cfg.props.calData i) →
    calInterpolate (withData cfg data) none f = calInterpolate cfg none f

variable {cfg : Config ℚ} {f i : Nat}

section Segments

theorem onlyFromLevel_iff_segment :
    OnlyFromLevel cfg f ↔
      ∀ data, (∀ i < cfg.props.calSweepPoints, pointLevel cfg i = level cfg f →
          data i = cfg.props.calData i) →
        evalSegment data (segment cfg f) = evalSegment cfg.props.calData (segment cfg f) := by
  refine forall_congr' fun data => ?_
  rw [calInterpolate_segment, calInterpolate_segment]
  exact Iff.rfl

def raised (data : Nat → Point ℚ) (i : Nat) : Nat → Point ℚ :=
  Function.update data i fun cell => ⟨(data i cell).re + 1, (data i cell).im⟩

theorem level_of_raised (h : OnlyFromLevel cfg f)
    (hshows : evalSegment (raised cfg.props.calData i) (segment cfg f) ≠
      evalSegment cfg.props.calData (segment cfg f)) :
    pointLevel cfg i = level cfg f := by
  by_contra hne
  refine hshows (onlyFromLevel_iff_segment.mp h _ fun j _ hj => ?_)
  have hother : j ≠ i := fun heq => hne (heq ▸ hj)
  exact Function.update_of_ne hother _ _

theorem onlyFromLevel_of_copy (hi : i < cfg.props.calSweepPoints)
    (hseg : segment cfg f = (i, none)) :
    OnlyFromLevel cfg f ↔ pointLevel cfg i = level cfg f := by
  constructor
  · intro h
    refine level_of_raised h fun heq => ?_
    have hcell := congrArg Sample.re (congrFun heq 0)
    simp [hseg, evalSegment, raised] at hcell
  · intro hlevel
    refine onlyFromLevel_iff_segment.mpr fun data hdata => ?_
    rw [hseg]
    exact hdata i hi hlevel

theorem onlyFromLevel_of_blend (hi : i + 1 < cfg.props.calSweepPoints) {k : ℚ} (hzero : k ≠ 0)
    (hone : k ≠ 1) (hseg : segment cfg f = (i, some k)) :
    OnlyFromLevel cfg f ↔
      pointLevel cfg i = level cfg f ∧ pointLevel cfg (i + 1) = level cfg f := by
  constructor
  · intro h
    constructor
    · refine level_of_raised h fun heq => hone ?_
      have hcell := congrArg Sample.re (congrFun heq 0)
      simp only [hseg, evalSegment, raised, blend, Function.update_self,
        Function.update_of_ne (Nat.succ_ne_self i)] at hcell
      linarith
    · refine level_of_raised h fun heq => hzero ?_
      have hcell := congrArg Sample.re (congrFun heq 0)
      simp only [hseg, evalSegment, raised, blend, Function.update_self,
        Function.update_of_ne (Nat.succ_ne_self i).symm] at hcell
      linarith
  · rintro ⟨hlower, hupper⟩
    refine onlyFromLevel_iff_segment.mpr fun data hdata => ?_
    rw [hseg]
    funext cell
    simp only [evalSegment, hdata i (by omega) hlower, hdata (i + 1) hi hupper]

end Segments

/-- The points that the terms are to be taken from have the level of the frequency: a point at the
frequency itself, two neighbours of one level, or the neighbour of that level and the point on its
other side, which the lowest neighbour does without. -/
def LevelReaches (cfg : Config ℚ) (f j : Nat) : Prop :=
  (∃ i < cfg.props.calSweepPoints, calFrequency cfg.props i = f) ∨
    pointLevel cfg j = pointLevel cfg (j + 1) ∨
    (pointLevel cfg j = level cfg f ∧ (j = 0 ∨ pointLevel cfg (j - 1) = level cfg f)) ∨
    (pointLevel cfg (j + 1) = level cfg f ∧ j + 2 < cfg.props.calSweepPoints ∧
      pointLevel cfg (j + 2) = level cfg f)

section Neighbours

variable {j : Nat}

theorem onlyFromLevel_at_grid (h : CalGrid cfg.props) (hi : i < cfg.props.calSweepPoints)
    (hf : calFrequency cfg.props i = f) : OnlyFromLevel cfg f := by
  rw [calFrequency_eq h hi] at hf
  obtain ⟨m, hm, hsame, hterms⟩ := segment_at_grid h hi
  rw [hf] at hsame hterms
  refine onlyFromLevel_iff_segment.mpr fun data hdata => ?_
  rw [hterms, hterms]
  refine hdata m hm ?_
  rw [pointLevel, calFrequency_eq h hm, hsame]

theorem segment_between (h : CalGrid cfg.props) (hlo : cfg.props.calFrequency0 < f)
    (hhi : f < cfg.props.calFrequency1) (hj : j + 1 < cfg.props.calSweepPoints)
    (hbelow : calFrequency cfg.props j < f) (habove : f < calFrequency cfg.props (j + 1)) :
    ∃ k, 0 < k ∧ k < 1 ∧
      segment cfg f =
        if pointLevel cfg j = pointLevel cfg (j + 1) then (j, some k)
        else if pointLevel cfg j = level cfg f then
          if j < 1 then (j, none) else (j - 1, some (k + 1))
        else if cfg.props.calSweepPoints - 1 - 1 ≤ j then (j, none)
        else (j + 1, some (k - 1)) := by
  rw [calFrequency_eq h (by omega)] at hbelow
  rw [calFrequency_eq h hj] at habove
  rw [pointLevel, pointLevel, calFrequency_eq h (by omega), calFrequency_eq h hj]
  obtain ⟨m, hm, hmbelow, hmabove, hseg⟩ := segment_inner h hlo hhi
  have hge : ¬ m < j := fun hlt => by
    have hmono : gridPoint cfg.props (m + 1) ≤ gridPoint cfg.props j := gridFrequency_mono hlt
    omega
  have hle : ¬ j < m := fun hlt => by
    have hmono : gridPoint cfg.props (j + 1) ≤ gridPoint cfg.props m := gridFrequency_mono hlt
    omega
  obtain rfl : m = j := by omega
  rw [if_neg (by omega), sameHarmonic, lastPoint_eq h] at hseg
  obtain ⟨hpos, hlt⟩ := weight_inner (b := ⟨m, gridPoint cfg.props m, gridPoint cfg.props (m + 1)⟩)
    (gridPoint_lt h hj) hbelow habove
  exact ⟨_, hpos, hlt, hseg⟩

theorem onlyFromLevel_below {k : ℚ} (hj : j + 1 < cfg.props.calSweepPoints) (hpos : 0 < k)
    (hlower : pointLevel cfg j = level cfg f)
    (hseg : segment cfg f = if j < 1 then (j, none) else (j - 1, some (k + 1))) :
    OnlyFromLevel cfg f ↔ j = 0 ∨ pointLevel cfg (j - 1) = level cfg f := by
  cases j with
  | zero =>
    rw [if_pos (by decide)] at hseg
    rw [onlyFromLevel_of_copy (by omega) hseg]
    exact iff_of_true hlower (.inl rfl)
  | succ j =>
    rw [if_neg (by omega), Nat.add_sub_cancel] at hseg
    rw [onlyFromLevel_of_blend (by omega) (by linarith) (by linarith) hseg, and_iff_left hlower,
      or_iff_right (Nat.succ_ne_zero j), Nat.add_sub_cancel]

/-- Above a change of the level they are extended from the two points above, but the last segment
copies its lower point. -/
theorem onlyFromLevel_above {k : ℚ} (hj : j + 1 < cfg.props.calSweepPoints) (hlt : k < 1)
    (hlower : pointLevel cfg j ≠ level cfg f) (hupper : pointLevel cfg (j + 1) = level cfg f)
    (hseg : segment cfg f =
      if cfg.props.calSweepPoints - 1 - 1 ≤ j then (j, none) else (j + 1, some (k - 1))) :
    OnlyFromLevel cfg f ↔
      j + 2 < cfg.props.calSweepPoints ∧ pointLevel cfg (j + 2) = level cfg f := by
  by_cases hlast : cfg.props.calSweepPoints - 1 - 1 ≤ j
  · rw [if_pos hlast] at hseg
    rw [onlyFromLevel_of_copy (by omega) hseg]
    exact iff_of_false hlower fun hand => absurd hand.1 (by omega)
  · have hroom : j + 2 < cfg.props.calSweepPoints := by omega
    rw [if_neg hlast] at hseg
    rw [onlyFromLevel_of_blend hroom (by linarith) (by linarith) hseg, and_iff_right hupper,
      and_iff_right hroom]

/-- Inside the range the terms come from the level of the frequency alone when the point at the
frequency, both neighbours or the two points next to the change of the level have it; the last
segment copies its lower point instead, and a neighbour may stand alone in its level. -/
theorem onlyFromLevel_iff (cfg : Config ℚ) (h : CalGrid cfg.props)
    (hlo : cfg.props.calFrequency0 < f) (hhi : f < cfg.props.calFrequency1)
    (hj : j + 1 < cfg.props.calSweepPoints) (hbelow : calFrequency cfg.props j ≤ f)
    (habove : f ≤ calFrequency cfg.props (j + 1))
    (hlevel : level cfg f = pointLevel cfg j ∨ level cfg f = pointLevel cfg (j + 1)) :
    OnlyFromLevel cfg f ↔ LevelReaches cfg f j := by
  by_cases hgrid : ∃ i < cfg.props.calSweepPoints, calFrequency cfg.props i = f
  · obtain ⟨i, hi, hf⟩ := hgrid
    exact iff_of_true (onlyFromLevel_at_grid h hi hf) (.inl ⟨i, hi, hf⟩)
  · have hbelow' : calFrequency cfg.props j < f :=
      Nat.lt_of_le_of_ne hbelow fun heq => hgrid ⟨j, by omega, heq⟩
    have habove' : f < calFrequency cfg.props (j + 1) :=
      Nat.lt_of_le_of_ne habove fun heq => hgrid ⟨j + 1, hj, heq.symm⟩
    obtain ⟨k, hpos, hlt, hseg⟩ := segment_between h hlo hhi hj hbelow' habove'
    rw [LevelReaches, or_iff_right hgrid]
    by_cases hsame : pointLevel cfg j = pointLevel cfg (j + 1)
    · have hboth : level cfg f = pointLevel cfg j := hlevel.elim id fun heq => heq.trans hsame.symm
      rw [if_pos hsame] at hseg
      rw [onlyFromLevel_of_blend hj (ne_of_gt hpos) (ne_of_lt hlt) hseg]
      exact iff_of_true ⟨hboth.symm, (hboth.trans hsame).symm⟩ (.inl hsame)
    · rw [or_iff_right hsame]
      by_cases hlower : pointLevel cfg j = level cfg f
      · have hupper : ¬ pointLevel cfg (j + 1) = level cfg f := fun heq =>
          hsame (hlower.trans heq.symm)
        rw [or_iff_left fun hand => hupper hand.1, and_iff_right hlower]
        rw [if_neg hsame, if_pos hlower] at hseg
        exact onlyFromLevel_below hj hpos hlower hseg
      · have hupper : pointLevel cfg (j + 1) = level cfg f :=
          (hlevel.resolve_left fun heq => hlower heq.symm).symm
        rw [or_iff_right fun hand => hlower hand.1, and_iff_right hupper]
        rw [if_neg hsame, if_neg hlower] at hseg
        exact onlyFromLevel_above hj hlt hlower hupper hseg

end Neighbours

theorem onlyFromLevel_iff_fm :
    OnlyFromLevel (calibratedOver 100000000 1100000000) 320000000 ↔
      LevelReaches (calibratedOver 100000000 1100000000) 320000000 4 :=
  onlyFromLevel_iff _ (by decide) (by decide) (by decide) (by decide) (by decide +kernel)
    (by decide +kernel) (by decide +kernel)

/-- In the last segment of a range up to 310 MHz the terms at 305 MHz are those of the point at
300 MHz, below the threshold; at 140 MHz they are extended through the points at 150 MHz and
200 MHz, and the second one is in the band above. -/
theorem onlyFromLevel_fails :
    (level (calibratedOver 110000000 310000000) 305000000 =
        pointLevel (calibratedOver 110000000 310000000) 20 ∧
      calFrequency (calibratedOver 110000000 310000000).props 19 = 300000000 ∧
      calFrequency (calibratedOver 110000000 310000000).props 20 = 310000000 ∧
      ¬ OnlyFromLevel (calibratedOver 110000000 310000000) 305000000) ∧
    level (calibratedOver 100000000 1100000000) 140000000 =
        pointLevel (calibratedOver 100000000 1100000000) 1 ∧
      calFrequency (calibratedOver 100000000 1100000000).props 0 = 100000000 ∧
      calFrequency (calibratedOver 100000000 1100000000).props 1 = 150000000 ∧
      ¬ OnlyFromLevel (calibratedOver 100000000 1100000000) 140000000 := by
  refine ⟨⟨by decide +kernel, by decide +kernel, by decide +kernel, ?_⟩, by decide +kernel,
    by decide +kernel, by decide +kernel, ?_⟩
  · have hseg : segment (calibratedOver 110000000 310000000) 305000000 = (19, none) := by
      decide +kernel
    rw [onlyFromLevel_of_copy (by decide) hseg]
    decide +kernel
  · have hseg : segment (calibratedOver 100000000 1100000000) 140000000 = (1, some (-1 / 5)) := by
      decide +kernel
    rw [onlyFromLevel_of_blend (by decide) (by norm_num) (by norm_num) hseg]
    decide +kernel

end NanoVNA.HarmonicSegments
