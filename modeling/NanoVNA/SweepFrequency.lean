import NanoVNA.GuardedRun
import NanoVNA.SweepGrid

namespace NanoVNA.SweepFrequency

open NanoVNA.Word32 NanoVNA.DeviceState NanoVNA.SweepGrid NanoVNA.GuardedRun

variable {R : Type}

inductive StimulusType
  | start
  | stop
  | center
  | cw
  | span
  | step
  | var
  deriving DecidableEq, Repr

/-- `type < ST_SPAN` -/
def StimulusType.belowSpan : StimulusType → Bool
  | .start | .stop | .center | .cw => true
  | .span | .step | .var => false

def clampLow (type : StimulusType) (freq : Nat) : Nat :=
  if type.belowSpan ∧ freq < frequencyMin then frequencyMin else freq

def clampHigh (type : StimulusType) (freq : Nat) : Nat :=
  if type ≠ .var ∧ frequencyMax < freq then frequencyMax else freq

/-- A step request becomes a span or a stop request, depending on the mode. -/
def resolveStep (p : Properties R) (type : StimulusType) (freq : Nat) : StimulusType × Nat :=
  if type = .step then
    let freq := u32 (freq * sub32 p.sweepPoints 1)
    if p.centerSpan then (.span, freq) else (.stop, u32 (freq + p.frequency0))
  else (type, freq)

def setStart (enforceOrder : Bool) (freq : Nat) (p : Properties R) : Properties R :=
  p.withRange false freq (if enforceOrder ∧ p.frequency1 < freq then freq else p.frequency1)

def setStop (enforceOrder : Bool) (freq : Nat) (p : Properties R) : Properties R :=
  p.withRange false (if enforceOrder ∧ freq < p.frequency0 then freq else p.frequency0) freq

/-- The half span of a center request is cut at both limits. -/
def clampHalfSpan (center span : Nat) : Nat :=
  let span := if sub32 center frequencyMin < span then sub32 center frequencyMin else span
  if sub32 frequencyMax center < span then sub32 frequencyMax center else span

def setCenter (center : Nat) (p : Properties R) : Properties R :=
  let range := sweepGetOrdered p
  let span := clampHalfSpan center (u32 (sub32 range.2 range.1 + 1) / 2)
  p.withRange true (sub32 center span) (u32 (center + span))

/-- The center of a span request is moved off both limits, off the upper one last. -/
def clampCenter (center span : Nat) : Nat :=
  let center := if center < u32 (frequencyMin + span) then u32 (frequencyMin + span) else center
  if sub32 frequencyMax span < center then sub32 frequencyMax span else center

def setSpan (freq : Nat) (p : Properties R) : Properties R :=
  let range := sweepGetOrdered p
  let span := freq / 2
  let center := clampCenter ((range.1 + range.2) / 2) span
  p.withRange true (sub32 center span) (u32 (center + span))

def setCw (freq : Nat) (p : Properties R) : Properties R :=
  p.withRange true freq freq

def setSweepFrequencyInternal (type : StimulusType) (freq : Nat) (enforceOrder : Bool)
    (s : Vna R) : Vna R :=
  let (type, freq) := resolveStep s.props type (clampLow type freq)
  let freq := clampHigh type freq
  match type with
  | .start => appMeasurementUpdateFrequencies { s with props := setStart enforceOrder freq s.props }
  | .stop => appMeasurementUpdateFrequencies { s with props := setStop enforceOrder freq s.props }
  | .center => appMeasurementUpdateFrequencies { s with props := setCenter freq s.props }
  | .span => appMeasurementUpdateFrequencies { s with props := setSpan freq s.props }
  | .cw => appMeasurementUpdateFrequencies { s with props := setCw freq s.props }
  | .var => { s with props := { s.props with varFreq := freq } }
  | .step => appMeasurementUpdateFrequencies s

def setSweepFrequency (type : StimulusType) (freq : Nat) (s : Vna R) : Vna R :=
  setSweepFrequencyInternal type freq true s

def RangeOk (p : Properties R) : Prop :=
  frequencyMin ≤ p.frequency0 ∧ p.frequency0 ≤ p.frequency1 ∧ p.frequency1 ≤ frequencyMax

instance (p : Properties R) : Decidable (RangeOk p) := inferInstanceAs (Decidable (_ ∧ _ ∧ _))

abbrev SpanFits (freq : Nat) : Prop :=
  frequencyMin + 2 * (min freq frequencyMax / 2) ≤ frequencyMax

/-- The requests the clamps can serve: a span that leaves room for the lowest frequency, and a
step whose stop frequency does not wrap below it. -/
def Fits (p : Properties R) : StimulusType → Nat → Prop
  | .span, freq => SpanFits freq
  | .step, freq =>
    if p.centerSpan then SpanFits (u32 (freq * (p.sweepPoints - 1)))
    else frequencyMin ≤ u32 (freq * (p.sweepPoints - 1) + p.frequency0)
  | _, _ => True

theorem ordered_of_range {p : Properties R} (h : RangeOk p) :
    sweepGetOrdered p = (p.frequency0, p.frequency1) := by
  simp [sweepGetOrdered, h.2.1]

theorem setStart_range {p : Properties R} (h : RangeOk p) {freq : Nat}
    (hlo : frequencyMin ≤ freq) (hhi : freq ≤ frequencyMax) : RangeOk (setStart true freq p) := by
  obtain ⟨_, _, hmax⟩ := h
  simp only [RangeOk, setStart, withRange_frequency0, withRange_frequency1, true_and]
  split <;> omega

theorem setStop_range_iff {p : Properties R} (h : RangeOk p) {freq : Nat}
    (hhi : freq ≤ frequencyMax) : RangeOk (setStop true freq p) ↔ frequencyMin ≤ freq := by
  obtain ⟨hmin, _, _⟩ := h
  simp only [RangeOk, setStop, withRange_frequency0, withRange_frequency1, true_and]
  split <;> omega

theorem clampHalfSpan_le {center : Nat} (span : Nat) (hlo : frequencyMin ≤ center)
    (hhi : center ≤ frequencyMax) :
    frequencyMin + clampHalfSpan center span ≤ center ∧
      center + clampHalfSpan center span ≤ frequencyMax := by
  have hmin : sub32 center frequencyMin = center - frequencyMin :=
    sub32_of_le (by simp only [frequencyMax] at hhi; omega) hlo
  have hmax : sub32 frequencyMax center = frequencyMax - center := sub32_of_le (by decide) hhi
  simp only [clampHalfSpan, hmin, hmax]
  grind

theorem setCenter_range {p : Properties R} (h : RangeOk p) {freq : Nat}
    (hlo : frequencyMin ≤ freq) (hhi : freq ≤ frequencyMax) : RangeOk (setCenter freq p) := by
  have hc := clampHalfSpan_le (u32 (sub32 p.frequency1 p.frequency0 + 1) / 2) hlo hhi
  simp only [RangeOk, setCenter, ordered_of_range h, withRange_frequency0, withRange_frequency1]
  simp only [frequencyMin, frequencyMax, sub32, u32] at *
  omega

theorem clampCenter_bounds (center span : Nat) (hc : center ≤ frequencyMax)
    (hs : 2 * span ≤ frequencyMax) :
    span ≤ clampCenter center span ∧ clampCenter center span + span ≤ frequencyMax ∧
      (frequencyMin + span ≤ clampCenter center span ↔
        frequencyMin + 2 * span ≤ frequencyMax) := by
  have hmin : u32 (frequencyMin + span) = frequencyMin + span :=
    u32_of_lt (by simp only [frequencyMin, frequencyMax] at *; omega)
  have hmax : sub32 frequencyMax span = frequencyMax - span := sub32_of_le (by decide) (by omega)
  have hle : frequencyMin ≤ frequencyMax := by decide
  simp only [clampCenter, hmin, hmax]
  grind

theorem setSpan_range_iff {p : Properties R} (h : RangeOk p) {freq : Nat}
    (hhi : freq ≤ frequencyMax) :
    RangeOk (setSpan freq p) ↔ frequencyMin + 2 * (freq / 2) ≤ frequencyMax := by
  have hc := clampCenter_bounds ((p.frequency0 + p.frequency1) / 2) (freq / 2)
    (by obtain ⟨_, _, _⟩ := h; omega) (by omega)
  simp only [RangeOk, setSpan, ordered_of_range h, withRange_frequency0, withRange_frequency1]
  rw [← hc.2.2]
  simp only [frequencyMin, frequencyMax, sub32, u32] at *
  omega

theorem setCw_range {p : Properties R} {freq : Nat}
    (hlo : frequencyMin ≤ freq) (hhi : freq ≤ frequencyMax) : RangeOk (setCw freq p) :=
  ⟨hlo, Nat.le_refl freq, hhi⟩

theorem resolveStep_points {p : Properties R} (hp : 1 ≤ p.sweepPoints) (freq : Nat) :
    u32 (freq * sub32 p.sweepPoints 1) = u32 (freq * (p.sweepPoints - 1)) := by
  have hn : p.sweepPoints + 2 ^ 32 - 1 = p.sweepPoints - 1 + 2 ^ 32 := by omega
  simp only [sub32, u32, hn, Nat.add_mod_right, Nat.mul_mod_mod]

theorem rangeOk_update (s : Vna R) :
    RangeOk (appMeasurementUpdateFrequencies s).props ↔ RangeOk s.props := by
  simp only [RangeOk, update_frequency0, update_frequency1]

theorem request_inside {type : StimulusType} {freq : Nat} (hstep : type ≠ .step)
    (hlo : type.belowSpan → frequencyMin ≤ freq) (hhi : freq ≤ frequencyMax) (p : Properties R) :
    clampLow type freq = freq ∧ resolveStep p type freq = (type, freq) ∧
      clampHigh type freq = freq :=
  ⟨if_neg fun h => Nat.not_lt_of_le (hlo h.1) h.2, if_neg hstep,
    if_neg fun h => Nat.not_lt_of_le hhi h.2⟩

theorem clampHigh_eq_min {type : StimulusType} (ht : type ≠ .var) (freq : Nat) :
    clampHigh type freq = min freq frequencyMax := by
  simp only [clampHigh, ht, ne_eq, not_false_eq_true, true_and]
  split <;> omega

theorem clamp_bounds (type : StimulusType) (ht : type.belowSpan = true) (freq : Nat) :
    frequencyMin ≤ clampHigh type (clampLow type freq) ∧
      clampHigh type (clampLow type freq) ≤ frequencyMax := by
  rw [clampHigh_eq_min (by rintro rfl; cases ht)]
  simp only [clampLow, ht, true_and, frequencyMin, frequencyMax]
  split <;> omega

theorem span_range_iff {s : Vna R} (h : RangeOk s.props) (freq : Nat) :
    RangeOk (setSweepFrequency .span freq s).props ↔ SpanFits freq := by
  have hc : clampHigh .span (clampLow .span freq) = min freq frequencyMax :=
    clampHigh_eq_min (by decide) freq
  refine (rangeOk_update _).trans ((setSpan_range_iff h (hc ▸ Nat.min_le_right ..)).trans ?_)
  rw [hc]

/-- The lower clamp is applied before a step is resolved, so never to the stop frequency. -/
theorem step_range_iff {s : Vna R} (h : RangeOk s.props) (hp : 1 ≤ s.props.sweepPoints)
    (freq : Nat) :
    RangeOk (setSweepFrequency .step freq s).props ↔ Fits s.props .step freq := by
  have hwrap := resolveStep_points hp freq
  cases hm : s.props.centerSpan with
  | true =>
    have hr : setSweepFrequency .step freq s =
        setSweepFrequency .span (u32 (freq * (s.props.sweepPoints - 1))) s := by
      simp [setSweepFrequency, setSweepFrequencyInternal, resolveStep, hwrap, hm, clampLow,
        StimulusType.belowSpan]
    rw [hr, span_range_iff h]
    simp only [Fits, hm, if_true]
  | false =>
    let stop := u32 (freq * (s.props.sweepPoints - 1) + s.props.frequency0)
    have hr : setSweepFrequency .step freq s = appMeasurementUpdateFrequencies
        { s with props := setStop true (clampHigh .stop stop) s.props } := by
      simp [setSweepFrequency, setSweepFrequencyInternal, resolveStep, hwrap, hm, clampLow,
        StimulusType.belowSpan, stop, u32_u32_add]
    have hc : clampHigh .stop stop = min stop frequencyMax := clampHigh_eq_min (by decide) stop
    have hle : frequencyMin ≤ frequencyMax := by decide
    rw [hr, rangeOk_update, setStop_range_iff h (hc ▸ Nat.min_le_right ..), hc]
    simp only [Fits, hm, Bool.false_eq_true, if_false, stop]
    omega

theorem setSweepFrequency_range_iff {s : Vna R} (h : RangeOk s.props)
    (hp : 1 ≤ s.props.sweepPoints) {type : StimulusType} (ht : type ≠ .var) (freq : Nat) :
    RangeOk (setSweepFrequency type freq s).props ↔ Fits s.props type freq := by
  cases type with
  | start =>
    obtain ⟨hlo, hhi⟩ := clamp_bounds .start rfl freq
    exact iff_of_true ((rangeOk_update _).mpr (setStart_range h hlo hhi)) trivial
  | stop =>
    obtain ⟨hlo, hhi⟩ := clamp_bounds .stop rfl freq
    exact iff_of_true ((rangeOk_update _).mpr ((setStop_range_iff h hhi).mpr hlo)) trivial
  | center =>
    obtain ⟨hlo, hhi⟩ := clamp_bounds .center rfl freq
    exact iff_of_true ((rangeOk_update _).mpr (setCenter_range h hlo hhi)) trivial
  | cw =>
    obtain ⟨hlo, hhi⟩ := clamp_bounds .cw rfl freq
    exact iff_of_true ((rangeOk_update _).mpr (setCw_range hlo hhi)) trivial
  | span => exact span_range_iff h freq
  | step => exact step_range_iff h hp freq
  | var => exact absurd rfl ht

theorem resolveStep_var (p : Properties R) (type : StimulusType) (freq : Nat) :
    (resolveStep p type freq).1 = .var ↔ type = .var := by
  unfold resolveStep
  cases type with
  | step =>
    simp only [if_true]
    split <;> exact iff_of_false nofun nofun
  | start | stop | center | cw | span | var => exact Iff.rfl

theorem setSweepFrequencyInternal_cases (type : StimulusType) (freq : Nat) (enforceOrder : Bool)
    (s : Vna R) :
    (type ≠ .var ∧ ∃ centerSpan f0 f1, setSweepFrequencyInternal type freq enforceOrder s =
      appMeasurementUpdateFrequencies { s with props := s.props.withRange centerSpan f0 f1 }) ∨
      type = .var ∧ ∃ varFreq, setSweepFrequencyInternal type freq enforceOrder s =
        { s with props := { s.props with varFreq := varFreq } } := by
  rw [Ne, ← resolveStep_var s.props type (clampLow type freq)]
  simp only [setSweepFrequencyInternal]
  generalize resolveStep s.props type (clampLow type freq) = request
  obtain ⟨resolved, freq⟩ := request
  cases resolved with
  | var => exact .inr ⟨rfl, _, rfl⟩
  | start | stop | center | cw | span | step => exact .inl ⟨nofun, _, _, _, rfl⟩

theorem setSweepFrequency_cases (type : StimulusType) (freq : Nat) (s : Vna R) :
    (type ≠ .var ∧ ∃ centerSpan f0 f1, setSweepFrequency type freq s =
      appMeasurementUpdateFrequencies { s with props := s.props.withRange centerSpan f0 f1 }) ∨
      type = .var ∧ ∃ varFreq,
        setSweepFrequency type freq s = { s with props := { s.props with varFreq := varFreq } } :=
  setSweepFrequencyInternal_cases type freq true s

theorem setSweepFrequency_points (type : StimulusType) (freq : Nat) (s : Vna R) :
    (setSweepFrequency type freq s).props.sweepPoints = s.props.sweepPoints := by
  obtain ⟨_, centerSpan, f0, f1, h⟩ | ⟨_, _, h⟩ := setSweepFrequency_cases type freq s
  · rw [h]
    exact (update_sweepPoints _).trans (withRange_sweepPoints s.props centerSpan f0 f1)
  · rw [h]

/-- A call of the interface other than the one that sets the step of the lever. -/
abbrev SweepCall := { type : StimulusType // type ≠ .var } × UInt32

def sweepCall (s : Vna R) (c : SweepCall) : Option (Vna R) :=
  some (setSweepFrequency c.1 c.2.toNat s)

def SweepOk (b : Board) (s : Vna R) : Prop :=
  RangeOk s.props ∧ sweepPointsMin ≤ s.props.sweepPoints ∧ s.props.sweepPoints ≤ sweepPointsMax b

instance (b : Board) (s : Vna R) : Decidable (SweepOk b s) :=
  inferInstanceAs (Decidable (RangeOk s.props ∧ _ ∧ _))

/-- The range stays in order through a run of calls exactly when the clamps can serve each
call in the state it is made in. -/
theorem sweepCalls_range_iff (b : Board) (s : Vna R) (h : SweepOk b s) (calls : List SweepCall) :
    Throughout sweepCall (SweepOk b) s calls ↔
      Along sweepCall (fun s c => Fits s.props c.1 c.2.toNat) s calls := by
  refine throughout_iff_along (fun s c hs => ?_) h
  have hp : 1 ≤ s.props.sweepPoints := Nat.le_trans (by decide) hs.2.1
  rw [← setSweepFrequency_range_iff hs.1 hp c.1.2]
  simp only [sweepCall, Option.some.injEq, exists_eq_left', SweepOk, setSweepFrequency_points]
  exact (and_iff_left hs.2).symm

def oneToTwoMHz : Vna Nat where
  props :=
    { frequency0 := 1000000, frequency1 := 2000000, calFrequency0 := 50000
      calFrequency1 := 900000000, varFreq := 0, centerSpan := false, sweepPoints := 21
      power := 255, calPower := 255, calSweepPoints := 101, calStatus := .zero
      markers := fun i => ⟨i = 0, 0, 0⟩, calData := fun _ _ => ⟨0, 0⟩ }
  grid := appMeasurementSetFrequencies 1000000 2000000 21
  lastsaveid := noSaveSlot
  slots := fun _ => none

theorem sweepCalls_range_oneToTwoMHz :
    Throughout sweepCall (SweepOk .f072) oneToTwoMHz
      [(⟨.start, by decide⟩, 3000000), (⟨.span, by decide⟩, 800000)] :=
  (sweepCalls_range_iff .f072 oneToTwoMHz (by decide) _).mpr
    ⟨trivial, fun _ _ => ⟨show SpanFits 800000 by decide, fun _ _ => trivial⟩⟩

/-- A step of 214.7 MHz over 21 points wraps to a stop frequency of 4 Hz, and the widest span
starts at 0 Hz. -/
theorem step_and_span_leave_range :
    SweepOk .f072 oneToTwoMHz ∧
      ¬ RangeOk (setSweepFrequency .step 214698365 oneToTwoMHz).props ∧
      ¬ RangeOk (setSweepFrequency .span 2700000000 oneToTwoMHz).props := by
  decide

end NanoVNA.SweepFrequency
