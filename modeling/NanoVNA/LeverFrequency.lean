import NanoVNA.StepRounding
import NanoVNA.SweepRequests

namespace NanoVNA.LeverFrequency

open NanoVNA.Word32 NanoVNA.DeviceState NanoVNA.SweepGrid NanoVNA.SweepFrequency
open NanoVNA.SweepRequests NanoVNA.StepRounding

variable {R : Type}

inductive LeverMode
  | freq0
  | freq1

def evtUp : Nat := 0x10

def evtDown : Nat := 0x20

inductive LeverEvent
  | up
  | down

def LeverEvent.status : LeverEvent → Nat
  | up => evtUp
  | down => evtDown

def LeverMode.stimulus (mode : LeverMode) (p : Properties R) : StimulusType :=
  match mode with
  | freq0 => if p.centerSpan then .center else .start
  | freq1 => if p.centerSpan then .span else .stop

def leverStep (fuel : Nat) (p : Properties R) : Option Nat :=
  if p.varFreq ≠ 0 then some p.varFreq else stepRound fuel (getSweepFrequency p .span / 4)

def leverFreq (fuel : Nat) (mode : LeverMode) (status : Nat) (p : Properties R) : Option Nat :=
  let stimulus := mode.stimulus p
  let freq := getSweepFrequency p stimulus
  if stimulus = .span ∧ p.varFreq = 0 then do
    let freq ←
      (if status &&& evtUp ≠ 0 then stepRound fuel (u32 (u32 (freq * 4) + 1)) else some freq)
    if status &&& evtDown ≠ 0 then stepRound fuel (sub32 freq 1) else some freq
  else do
    let step ← leverStep fuel p
    let freq := if status &&& evtUp ≠ 0 then u32 (freq + step) else freq
    some (if status &&& evtDown ≠ 0 then sub32 freq step else freq)

def Accepted (freq : Nat) : Prop := frequencyMin ≤ freq ∧ freq ≤ frequencyMax

instance (freq : Nat) : Decidable (Accepted freq) := inferInstanceAs (Decidable (_ ∧ _))

def leverFrequency (fuel : Nat) (mode : LeverMode) (status : Nat) (s : Vna R) : Option (Vna R) := do
  let freq ← leverFreq fuel mode status s.props
  some (if frequencyMax < freq ∨ freq < frequencyMin then s
    else setSweepFrequency (mode.stimulus s.props) freq s)

/-! ### What is asked of an event -/

def exactStep (p : Properties R) : Nat :=
  if p.varFreq ≠ 0 then p.varFreq else decadeStep (getSweepFrequency p .span / 4)

def exactFreq (mode : LeverMode) (event : LeverEvent) (p : Properties R) : Int :=
  let freq := getSweepFrequency p (mode.stimulus p)
  if mode.stimulus p = .span ∧ p.varFreq = 0 then
    match event with
    | .up => decadeStep (freq * 4 + 1)
    | .down => decadeStep (freq - 1)
  else
    match event with
    | .up => freq + exactStep p
    | .down => freq - exactStep p

def Toward : LeverEvent → Nat → Nat → Prop
  | .up, old, new => old ≤ new
  | .down, old, new => new ≤ old

/-- The event ends, moves the frequency to its own side if at all, and passes no other frequency on
than the one without a limit. -/
def Meets (mode : LeverMode) (event : LeverEvent) (s : Vna R) : Prop :=
  ∃ fuel freq s', leverFreq fuel mode event.status s.props = some freq ∧
    leverFrequency fuel mode event.status s = some s' ∧
    Toward event (getSweepFrequency s.props (mode.stimulus s.props))
      (getSweepFrequency s'.props (mode.stimulus s.props)) ∧
    (Accepted freq → freq = exactFreq mode event s.props)

structure Words (p : Properties R) : Prop where
  frequency0 : p.frequency0 < 2 ^ 32
  frequency1 : p.frequency1 < 2 ^ 32
  varFreq : p.varFreq < 2 ^ 32

/-- The values that are rounded to their step, or to one that is not passed on: the small ones, and
those that wrap to at most 1000 or between two of the wrapped powers of ten. -/
def Rounds (v : Nat) : Prop :=
  v ≤ wrapped10 ∨ u32 v ≤ 1000 ∨ 3567587328 < u32 v ∧ u32 v ≤ 3735027712

def Fits (mode : LeverMode) (event : LeverEvent) (p : Properties R) : Prop :=
  let freq := getSweepFrequency p (mode.stimulus p)
  if mode.stimulus p = .span ∧ p.varFreq = 0 then
    match event with
    | .up => Rounds (freq * 4 + 1)
    | .down => freq ≠ 0 ∧ Rounds (freq - 1)
  else
    match event with
    | .up => freq + exactStep p < 2 ^ 32 ∨ ¬ Accepted (freq + exactStep p - 2 ^ 32)
    | .down => exactStep p ≤ freq ∨ ¬ Accepted (freq + 2 ^ 32 - exactStep p)

section Set

variable {s : Vna R} {freq : Nat}

theorem getSweepFrequency_update (stimulus : StimulusType) (s : Vna R) :
    getSweepFrequency (appMeasurementUpdateFrequencies s).props stimulus =
      getSweepFrequency s.props stimulus := by
  cases stimulus <;> rfl

theorem ordered_of_le {p : Properties R} (hle : p.frequency0 ≤ p.frequency1) :
    sweepGetOrdered p = (p.frequency0, p.frequency1) := if_pos hle

theorem clampCenter_room (center : Nat) {half : Nat} (hhalf : 2 * half ≤ frequencyMax) :
    half ≤ clampCenter center half ∧ clampCenter center half + half ≤ frequencyMax := by
  have hbound : frequencyMax = 2700000000 := rfl
  have hmin : u32 (frequencyMin + half) = frequencyMin + half :=
    u32_of_lt (by simp only [frequencyMin]; omega)
  have hmax : sub32 frequencyMax half = frequencyMax - half := sub32_of_le (by decide) (by omega)
  simp only [clampCenter, hmin, hmax]
  split <;> split <;> omega

theorem setStart_start (p : Properties R) :
    getSweepFrequency (setStart true freq p) .start = freq := by
  have hle : (setStart true freq p).frequency0 ≤ (setStart true freq p).frequency1 := by
    simp only [setStart, withRange_frequency0, withRange_frequency1, true_and]
    split <;> omega
  rw [getSweepFrequency, ordered_of_le hle]
  rfl

theorem setStop_stop (p : Properties R) :
    getSweepFrequency (setStop true freq p) .stop = freq := by
  have hle : (setStop true freq p).frequency0 ≤ (setStop true freq p).frequency1 := by
    simp only [setStop, withRange_frequency0, withRange_frequency1, true_and]
    split <;> omega
  rw [getSweepFrequency, ordered_of_le hle]
  rfl

theorem setCenter_center (h : Accepted freq) (p : Properties R) :
    getSweepFrequency (setCenter freq p) .center = freq := by
  have hbound : frequencyMax = 2700000000 := rfl
  obtain ⟨hlo, hhi⟩ := h
  have hroom := clampHalfSpan_le (u32 (sub32 (sweepGetOrdered p).2 (sweepGetOrdered p).1 + 1) / 2)
    hlo hhi
  obtain ⟨half, hhalf⟩ : ∃ half, half = clampHalfSpan freq
    (u32 (sub32 (sweepGetOrdered p).2 (sweepGetOrdered p).1 + 1) / 2) := ⟨_, rfl⟩
  rw [← hhalf] at hroom
  have h0 : (setCenter freq p).frequency0 = freq - half := by
    rw [setCenter, withRange_frequency0, ← hhalf, sub32_of_le (by omega) (by omega)]
  have h1 : (setCenter freq p).frequency1 = freq + half := by
    rw [setCenter, withRange_frequency1, ← hhalf, u32_of_lt (by omega)]
  rw [getSweepFrequency, ordered_of_le (by omega), h0, h1]
  omega

theorem setSpan_span (hhi : freq ≤ frequencyMax) (p : Properties R) :
    getSweepFrequency (setSpan freq p) .span = freq / 2 * 2 := by
  have hbound : frequencyMax = 2700000000 := rfl
  obtain ⟨center, hcenter⟩ : ∃ center, center =
    clampCenter (((sweepGetOrdered p).1 + (sweepGetOrdered p).2) / 2) (freq / 2) := ⟨_, rfl⟩
  have hroom := @clampCenter_room (((sweepGetOrdered p).1 + (sweepGetOrdered p).2) / 2)
    (freq / 2) (by omega)
  rw [← hcenter] at hroom
  have h0 : (setSpan freq p).frequency0 = center - freq / 2 := by
    rw [setSpan, withRange_frequency0, ← hcenter, sub32_of_le (by omega) hroom.1]
  have h1 : (setSpan freq p).frequency1 = center + freq / 2 := by
    rw [setSpan, withRange_frequency1, ← hcenter, u32_of_lt (by omega)]
  rw [getSweepFrequency, ordered_of_le (by omega), h0, h1, sub32_of_le (by omega) (by omega)]
  omega

theorem stimulus_cases (mode : LeverMode) (p : Properties R) :
    mode.stimulus p = .start ∨ mode.stimulus p = .stop ∨ mode.stimulus p = .center ∨
      mode.stimulus p = .span := by
  cases mode <;> cases h : p.centerSpan <;> simp [LeverMode.stimulus, h]

theorem getSweepFrequency_set (mode : LeverMode) (p : Properties R) (h : Accepted freq) :
    getSweepFrequency (setSweepFrequency (mode.stimulus p) freq s).props (mode.stimulus p) =
      if mode.stimulus p = .span then freq / 2 * 2 else freq := by
  have hinside : ∀ stimulus, stimulus ≠ .step → clampLow stimulus freq = freq ∧
      resolveStep s.props stimulus freq = (stimulus, freq) ∧ clampHigh stimulus freq = freq :=
    fun stimulus hstep => request_inside hstep (fun _ => h.1) h.2 s.props
  obtain hstimulus | hstimulus | hstimulus | hstimulus := stimulus_cases mode p
  · obtain ⟨hlow, hresolve, hhigh⟩ := hinside .start (by decide)
    rw [hstimulus, setSweepFrequency, setSweepFrequencyInternal, hlow, hresolve]
    dsimp only
    rw [hhigh, getSweepFrequency_update, if_neg (by decide)]
    exact setStart_start s.props
  · obtain ⟨hlow, hresolve, hhigh⟩ := hinside .stop (by decide)
    rw [hstimulus, setSweepFrequency, setSweepFrequencyInternal, hlow, hresolve]
    dsimp only
    rw [hhigh, getSweepFrequency_update, if_neg (by decide)]
    exact setStop_stop s.props
  · obtain ⟨hlow, hresolve, hhigh⟩ := hinside .center (by decide)
    rw [hstimulus, setSweepFrequency, setSweepFrequencyInternal, hlow, hresolve]
    dsimp only
    rw [hhigh, getSweepFrequency_update, if_neg (by decide)]
    exact setCenter_center h s.props
  · obtain ⟨hlow, hresolve, hhigh⟩ := hinside .span (by decide)
    rw [hstimulus, setSweepFrequency, setSweepFrequencyInternal, hlow, hresolve]
    dsimp only
    rw [hhigh, getSweepFrequency_update, if_pos rfl]
    exact setSpan_span h.2 s.props

end Set

section Event

variable {s : Vna R} {mode : LeverMode} {event : LeverEvent}

theorem getSweepFrequency_lt {p : Properties R} (hw : Words p) (mode : LeverMode) :
    getSweepFrequency p (mode.stimulus p) < 2 ^ 32 := by
  have h0 := hw.frequency0
  have h1 := hw.frequency1
  have hordered : (sweepGetOrdered p).1 < 2 ^ 32 ∧ (sweepGetOrdered p).2 < 2 ^ 32 := by
    rw [sweepGetOrdered]
    split
    · exact ⟨h0, h1⟩
    · exact ⟨h1, h0⟩
  obtain hstimulus | hstimulus | hstimulus | hstimulus := stimulus_cases mode p
  · rw [hstimulus]
    exact hordered.1
  · rw [hstimulus]
    exact hordered.2
  · rw [hstimulus, getSweepFrequency]
    omega
  · rw [hstimulus]
    exact u32_lt _

theorem exactFreq_toward {p : Properties R} {freq : Nat} (h : Accepted freq)
    (hfreq : freq = exactFreq mode event p) :
    match event with
    | .up => getSweepFrequency p (mode.stimulus p) < freq
    | .down => freq ≤ getSweepFrequency p (mode.stimulus p) := by
  have hmin : frequencyMin = 600 := rfl
  obtain ⟨hlo, -⟩ := h
  unfold exactFreq at hfreq
  dsimp only at hfreq
  split at hfreq
  · cases event with
    | up =>
      have hbounds := decadeStep_bounds (getSweepFrequency p (mode.stimulus p) * 4 + 1)
      dsimp only at hfreq ⊢
      omega
    | down =>
      have hbounds := decadeStep_bounds (getSweepFrequency p (mode.stimulus p) - 1)
      dsimp only at hfreq ⊢
      omega
  · have hstep : 0 < exactStep p := by
      rw [exactStep]
      split
      next hvar => exact Nat.pos_of_ne_zero hvar
      next => exact decadeStep_pos _
    cases event with
    | up =>
      dsimp only at hfreq ⊢
      omega
    | down =>
      dsimp only at hfreq ⊢
      omega

theorem meets_iff_exact : Meets mode event s ↔
    ∃ fuel freq, leverFreq fuel mode event.status s.props = some freq ∧
      (Accepted freq → freq = exactFreq mode event s.props) := by
  constructor
  · rintro ⟨fuel, freq, s', hfreq, -, -, hexact⟩
    exact ⟨fuel, freq, hfreq, hexact⟩
  · rintro ⟨fuel, freq, hfreq, hexact⟩
    have hlever : leverFrequency fuel mode event.status s =
        some (if frequencyMax < freq ∨ freq < frequencyMin then s
          else setSweepFrequency (mode.stimulus s.props) freq s) := by
      rw [leverFrequency, hfreq]
      rfl
    refine ⟨fuel, freq, _, hfreq, hlever, ?_, hexact⟩
    by_cases h : Accepted freq
    · have hinside : ¬ (frequencyMax < freq ∨ freq < frequencyMin) := by
        rintro (hhi | hlo)
        · exact Nat.not_lt.mpr h.2 hhi
        · exact Nat.not_lt.mpr h.1 hlo
      have htoward := exactFreq_toward h (hexact h)
      rw [if_neg hinside, getSweepFrequency_set mode s.props h]
      cases event with
      | up =>
        dsimp only at htoward
        rw [Toward]
        split <;> omega
      | down =>
        dsimp only at htoward
        rw [Toward]
        split <;> omega
    · have houtside : frequencyMax < freq ∨ freq < frequencyMin := by
        rw [Accepted] at h
        omega
      rw [if_pos houtside]
      cases event with
      | up => exact Nat.le_refl _
      | down => exact Nat.le_refl _

end Event

section Rounding

theorem roundsTo_and_iff {v r : Nat} (h : RoundsTo v r) (P : Nat → Prop) :
    (∃ r', RoundsTo v r' ∧ P r') ↔ P r := by
  constructor
  · rintro ⟨r', h', hP⟩
    exact h.unique h' ▸ hP
  · exact fun hP => ⟨r, h, hP⟩

theorem exists_fuel_iff (v : Nat) (P : Nat → Prop) :
    (∃ fuel r, stepRound fuel v = some r ∧ P r) ↔ ∃ r, RoundsTo v r ∧ P r := by
  constructor
  · rintro ⟨fuel, r, h, hP⟩
    exact ⟨r, ⟨fuel, h⟩, hP⟩
  · rintro ⟨r, ⟨fuel, h⟩, hP⟩
    exact ⟨fuel, r, h, hP⟩

/-- A value whose step comes from a wrapped power has a step that is a multiple of 10 ^ 9. -/
theorem wrong_of_wrapped {v r : Nat} (hv : wrapped10 < v) (hr : Accepted r) (hr9 : ¬ 10 ^ 9 ∣ r) :
    ¬ (Accepted r → r = decadeStep v) := by
  have hbound : wrapped10 = 1410065408 := rfl
  intro h
  rw [h hr] at hr9
  exact hr9 (decadeStep_dvd (by omega))

theorem rounds_iff (v : Nat) :
    (∃ r, RoundsTo (u32 v) r ∧ (Accepted r → r = decadeStep v)) ↔ Rounds v := by
  have hbound : wrapped10 = 1410065408 := rfl
  have hmin : frequencyMin = 600 := rfl
  have hmax : frequencyMax = 2700000000 := rfl
  have hle : u32 v ≤ v := Nat.mod_le v _
  rw [Rounds]
  obtain hw | hw := Nat.lt_or_ge wrapped10 (u32 v)
  · have hnone : ¬ (v ≤ wrapped10 ∨ u32 v ≤ 1000) := by omega
    have hwrong : ∀ {r}, RoundsTo (u32 v) r → Accepted r → ¬ 10 ^ 9 ∣ r →
        ¬ ∃ r, RoundsTo (u32 v) r ∧ (Accepted r → r = decadeStep v) := by
      intro r hround hr hr9 hex
      have hP := (roundsTo_and_iff hround fun r => Accepted r → r = decadeStep v).mp hex
      exact wrong_of_wrapped (hw.trans_le hle) hr hr9 hP
    obtain hw1 | hw1 := Nat.lt_or_ge 3567587328 (u32 v)
    · obtain hw2 | hw2 := Nat.lt_or_ge 3735027712 (u32 v)
      · refine iff_of_false ?_ (by omega)
        obtain hw3 | hw3 := Nat.lt_or_ge 4135583744 (u32 v)
        · rintro ⟨r, hround, -⟩
          exact not_roundsTo_above hw3 r hround
        · exact hwrong (roundsTo_second hw2 hw3) (by decide) (by decide)
      · refine iff_of_true ⟨_, roundsTo_skipped hw1 hw2, fun h => ?_⟩ (by omega)
        exact absurd h (by decide)
    · refine iff_of_false ?_ (by omega)
      obtain hround | hround := roundsTo_first hw hw1
      · exact hwrong hround (by decide) (by decide)
      · exact hwrong hround (by decide) (by decide)
  · rw [roundsTo_and_iff (roundsTo_decadeStep hw) fun r => Accepted r → r = decadeStep v]
    obtain hv | hv := Nat.lt_or_ge v (2 ^ 32)
    · rw [u32_of_lt hv] at hw ⊢
      exact iff_of_true (fun _ => rfl) (Or.inl hw)
    · -- the value wraps, and its step is larger than all steps below 2 ^ 32
      have hstep := decadeStep_bounds v
      have hstep' := decadeStep_bounds (u32 v)
      have hsmall := @decadeStep_small (u32 v)
      have hne : decadeStep (u32 v) ≠ decadeStep v := by omega
      rw [Accepted]
      constructor
      · intro h
        have hout : ¬ (frequencyMin ≤ decadeStep (u32 v) ∧ decadeStep (u32 v) ≤ frequencyMax) :=
          fun hin => hne (h hin)
        omega
      · intro h hin
        omega

end Rounding

section Request

variable {p : Properties R} {mode : LeverMode} {event : LeverEvent}

theorem leverStep_cases (p : Properties R) :
    (∃ fuel, leverStep fuel p = some (exactStep p)) ∧
      ∀ fuel step, leverStep fuel p = some step → step = exactStep p := by
  have hbound : wrapped10 = 1410065408 := rfl
  by_cases hvar : p.varFreq ≠ 0
  · simp only [leverStep, exactStep, if_pos hvar]
    exact ⟨⟨0, trivial⟩, fun fuel step' h => (Option.some.inj h).symm⟩
  · simp only [leverStep, exactStep, if_neg hvar]
    have hlt : getSweepFrequency p .span < 2 ^ 32 := u32_lt _
    have hround : RoundsTo (getSweepFrequency p .span / 4) _ := roundsTo_decadeStep (by omega)
    exact ⟨hround, fun fuel step' h => RoundsTo.unique ⟨fuel, h⟩ hround⟩

theorem exactStep_lt (hw : Words p) : exactStep p < 2 ^ 32 := by
  have hvar := hw.varFreq
  have hspan : getSweepFrequency p .span < 2 ^ 32 := u32_lt _
  have hbounds := decadeStep_bounds (getSweepFrequency p .span / 4)
  rw [exactStep]
  split <;> omega

theorem event_status :
    (LeverEvent.up.status &&& evtUp ≠ 0 ∧ ¬ LeverEvent.up.status &&& evtDown ≠ 0) ∧
      LeverEvent.down.status &&& evtDown ≠ 0 ∧ ¬ LeverEvent.down.status &&& evtUp ≠ 0 := by
  decide

def LeverEvent.moved (freq step : Nat) : LeverEvent → Nat
  | up => u32 (freq + step)
  | down => sub32 freq step

theorem leverFreq_step (hplain : ¬ (mode.stimulus p = .span ∧ p.varFreq = 0)) (fuel : Nat) :
    leverFreq fuel mode event.status p =
      (leverStep fuel p).map fun step =>
        event.moved (getSweepFrequency p (mode.stimulus p)) step := by
  unfold leverFreq
  dsimp only
  rw [if_neg hplain]
  obtain ⟨⟨hup, hnone⟩, hdown, hnone'⟩ := event_status
  cases event with
  | up =>
    simp only [if_pos hup, if_neg hnone, LeverEvent.moved]
    cases leverStep fuel p <;> rfl
  | down =>
    simp only [if_neg hnone', if_pos hdown, LeverEvent.moved]
    cases leverStep fuel p <;> rfl

theorem u32_cast (n : Nat) : (u32 n : Int) = (n : Int) % 2 ^ 32 := by
  rw [u32]
  omega

theorem sub32_cast {a b : Nat} (hb : b ≤ a + 2 ^ 32) :
    (sub32 a b : Int) = ((a : Int) - b) % 2 ^ 32 := by
  have hsum : ((a + 2 ^ 32 - b : Nat) : Int) = (a - b : Int) + 2 ^ 32 := by omega
  rw [sub32, u32_cast, hsum, Int.add_emod_right]

theorem moved_exactStep (hw : Words p) (hplain : ¬ (mode.stimulus p = .span ∧ p.varFreq = 0)) :
    (event.moved (getSweepFrequency p (mode.stimulus p)) (exactStep p) : Int) =
      exactFreq mode event p % 2 ^ 32 := by
  have hfreq := getSweepFrequency_lt hw mode
  have hstep := exactStep_lt hw
  unfold exactFreq
  dsimp only
  rw [if_neg hplain]
  cases event with
  | up => exact u32_cast _
  | down => exact sub32_cast (by omega)

def LeverEvent.scaled (span : Nat) : LeverEvent → Nat
  | up => u32 (span * 4 + 1)
  | down => sub32 span 1

theorem leverFreq_span (hspan : mode.stimulus p = .span ∧ p.varFreq = 0) (fuel : Nat) :
    leverFreq fuel mode event.status p =
      stepRound fuel (event.scaled (getSweepFrequency p (mode.stimulus p))) := by
  unfold leverFreq
  dsimp only
  rw [if_pos hspan, LeverEvent.scaled.eq_def, u32_u32_add]
  cases event with
  | up => exact Option.bind_fun_some _
  | down => rfl

theorem span_meets_iff (hw : Words p) (hspan : mode.stimulus p = .span ∧ p.varFreq = 0) :
    (∃ fuel freq, leverFreq fuel mode event.status p = some freq ∧
      (Accepted freq → freq = exactFreq mode event p)) ↔ Fits mode event p := by
  have hfreq := getSweepFrequency_lt hw mode
  unfold Fits exactFreq
  simp only [if_pos hspan, leverFreq_span hspan, exists_fuel_iff]
  cases event with
  | up =>
    simp only [LeverEvent.scaled, Int.natCast_inj]
    exact rounds_iff _
  | down =>
    simp only [LeverEvent.scaled, Int.natCast_inj]
    obtain hzero | hpos := Nat.eq_zero_or_pos (getSweepFrequency p (mode.stimulus p))
    · rw [hzero]
      refine iff_of_false ?_ fun h => h.1 rfl
      rintro ⟨r, hround, -⟩
      exact not_roundsTo_above (by decide) r hround
    · rw [sub32_of_le hfreq hpos, and_iff_right (Nat.ne_of_gt hpos), ← rounds_iff,
        u32_of_lt (by omega)]

theorem step_meets_iff (hw : Words p) (hplain : ¬ (mode.stimulus p = .span ∧ p.varFreq = 0)) :
    (∃ fuel freq, leverFreq fuel mode event.status p = some freq ∧
      (Accepted freq → freq = exactFreq mode event p)) ↔ Fits mode event p := by
  have hmoved := @moved_exactStep _ _ _ event hw hplain
  have hlt := getSweepFrequency_lt hw mode
  have hstep := exactStep_lt hw
  obtain ⟨⟨fuel, hfound⟩, hunique⟩ := leverStep_cases p
  obtain ⟨freq, hfreq⟩ : ∃ freq, freq =
    event.moved (getSweepFrequency p (mode.stimulus p)) (exactStep p) := ⟨_, rfl⟩
  rw [← hfreq] at hmoved
  have hrun : (∃ fuel freq, leverFreq fuel mode event.status p = some freq ∧
      (Accepted freq → freq = exactFreq mode event p)) ↔
        (Accepted freq → freq = exactFreq mode event p) := by
    simp only [leverFreq_step hplain]
    constructor
    · rintro ⟨fuel', freq', hrun, hexact⟩
      obtain ⟨step, hstep, rfl⟩ := Option.map_eq_some_iff.mp hrun
      obtain rfl := hunique fuel' step hstep
      rwa [← hfreq] at hexact
    · intro hexact
      exact ⟨fuel, freq, by rw [hfound, hfreq]; rfl, hexact⟩
  rw [hrun]
  unfold exactFreq at hmoved ⊢
  unfold Fits
  dsimp only at hmoved ⊢
  rw [if_neg hplain] at hmoved ⊢
  rw [if_neg hplain]
  simp only [Accepted]
  cases event with
  | up =>
    dsimp only at hmoved ⊢
    omega
  | down =>
    dsimp only at hmoved ⊢
    omega

end Request

/-- An event does what it is for exactly when the request, with no limit to the numbers, is one of
32 bits, or wraps to a frequency that is not accepted; and when a span to be rounded leads to the
right step or to one that is not accepted. -/
theorem lever_meets_iff (mode : LeverMode) (event : LeverEvent) (s : Vna R) (hw : Words s.props) :
    Meets mode event s ↔ Fits mode event s.props := by
  rw [meets_iff_exact]
  by_cases hspan : mode.stimulus s.props = .span ∧ s.props.varFreq = 0
  · exact span_meets_iff hw hspan
  · exact step_meets_iff hw hspan

theorem lever_meets_iff_oneToTwoMHz : Meets .freq0 .up oneToTwoMHz := by
  refine (lever_meets_iff .freq0 .up oneToTwoMHz ⟨by decide, by decide, by decide⟩).mpr ?_
  have hplain : ¬ (LeverMode.freq0.stimulus oneToTwoMHz.props = .span ∧
      oneToTwoMHz.props.varFreq = 0) := by decide
  unfold Fits
  dsimp only
  rw [if_neg hplain]
  decide

def oneMHz : Vna Nat :=
  { oneToTwoMHz with props := oneToTwoMHz.props.withRange true 1000000 1000000 }

/-- The span of zero is taken down. -/
theorem not_lever_meets : SweepOk .f072 oneMHz ∧ ¬ Meets .freq1 .down oneMHz := by
  refine ⟨by decide, ?_⟩
  rintro ⟨fuel, freq, -, hfreq, -⟩
  have hspan : LeverMode.freq1.stimulus oneMHz.props = .span ∧ oneMHz.props.varFreq = 0 := by decide
  have hvalue : LeverEvent.down.scaled (getSweepFrequency oneMHz.props .span) = 2 ^ 32 - 1 := rfl
  rw [leverFreq_span hspan, hspan.1, hvalue] at hfreq
  exact not_roundsTo_above (by decide) freq ⟨fuel, hfreq⟩

end NanoVNA.LeverFrequency
