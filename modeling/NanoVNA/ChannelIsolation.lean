import Mathlib.Algebra.Field.Rat
import Mathlib.Algebra.Order.Ring.Rat
import NanoVNA.SweepUninterrupted
import NanoVNA.TransmissionValue

namespace NanoVNA.ChannelIsolation

open NanoVNA.DeviceState NanoVNA.SweepGrid NanoVNA.Calibration NanoVNA.SweepPoint
open NanoVNA.SweepMachine NanoVNA.SweepInvariant NanoVNA.SweepSteps NanoVNA.SweepUninterrupted
open NanoVNA.TransmissionValue NanoVNA.GuardedRun NanoVNA.BandStrategy

variable {R : Type} [Field R] [LinearOrder R]
variable {cfg : Config R} {m₀ m : Machine R} {ctx : Ctx R} {i : Nat}

/-- A sweep of the same captures that differs in the S11 electrical delay and in the channel 0
bit of the mask only. -/
def Variant (cfg cfg' : Config R) : Prop :=
  ∃ (delay : R) (ch0 applyDelay : Bool), cfg' =
    { cfg with
      electricalDelayS11 := delay
      mask := { cfg.mask with ch0Measure := ch0, applyEdelayS11 := applyDelay } }

/-- Some run of the sweep, from any contents of the memory and of the stack, stores the value as
the S21 of a point. -/
def Stores (cfg : Config R) (i : Nat) (v : Sample R) : Prop :=
  ∃ (m₀ : Machine R) (actions : List (Action R)) (m : Machine R), Fresh m₀ ∧
    actions.foldlM (step cfg) m₀ = some m ∧ m.writes 1 i = 1 ∧ m.measured 1 i = v

/-- The S21 of a point is the same in all runs that differ only in the S11 electrical delay, in
the channel 0 bit and in what the buffer held before. -/
def Isolated (cfg : Config R) (i : Nat) : Prop :=
  ∀ cfg' v v', Variant cfg cfg' → Stores cfg i v → Stores cfg' i v' → v = v'

theorem pointValue_one (before : Sample R) :
    pointValue cfg i before 1 = s21Of cfg i (pointS11 cfg i before) := rfl

theorem stores_s21Of {v : Sample R} (h : Stores cfg i v) : ∃ s11, v = s21Of cfg i s11 := by
  obtain ⟨m₀, actions, m, hfresh, hrun, hwrites, rfl⟩ := h
  have hinv := run_inv hfresh hrun
  have hwritten : Written cfg.mask m.pSweep m.running 1 i := by
    by_contra hnot
    exact nomatch hwrites.symm.trans (hinv.fresh 1 i hnot)
  exact ⟨_, (hinv.cells 1 i hwritten).2⟩

omit [LinearOrder R] in
theorem variant_s21Of {cfg' : Config R} (h : Variant cfg cfg') : s21Of cfg' i = s21Of cfg i := by
  obtain ⟨delay, ch0, applyDelay, rfl⟩ := h
  rfl

section Stale

/-- Without channel 0 the reflection half of the buffer keeps what the stack held, and every
point begins with it. -/
structure Stale (s11 : Sample R) (m : Machine R) : Prop where
  buffer : ∀ ctx, m.running = some ctx → ctx.sweepData.s11 = s11
  entries : ∀ i, i < m.pSweep → m.entries i = s11

variable {s11 : Sample R}

theorem stale_process (h : Stale s11 m) (hinv : Inv cfg m₀ m) (hch0 : cfg.mask.ch0Measure = false)
    (hrun : m.running = some ctx) (hstate : ctx.state = .process) :
    Stale s11 (fsmProcess cfg ctx m) := by
  have hch : channel ctx = 1 := by
    have hctx := hinv.ctx ctx hrun
    rw [CtxOk, hstate] at hctx
    have hreq := hctx.2.requested
    obtain hzero | hone := channel_cases (channel ctx)
    · rw [hzero] at hreq
      exact absurd (hch0.symm.trans hreq) Bool.false_ne_true
    · exact hone
  have hbuffer := h.buffer ctx hrun
  have hraw : (setHalf (channel ctx) (cfg.response ctx.frequency (channel ctx))
      ctx.sweepData).s11 = s11 := by
    rw [hch]
    exact hbuffer
  have hfinal : (processed cfg m ctx).s11 = s11 := (processed_s11 hch).trans hbuffer
  unfold fsmProcess
  dsimp only
  split
  · refine ⟨?_, h.entries⟩
    rintro _ ⟨⟩
    exact hfinal
  · refine ⟨?_, h.entries⟩
    rintro _ ⟨⟩
    exact hraw

theorem stale_step (h : Stale s11 m) (hinv : Inv cfg m₀ m) (hch0 : cfg.mask.ch0Measure = false)
    (hrun : m.running = some ctx) (input : Input) : Stale s11 (fsmStep cfg input ctx m) := by
  have hsame : ∀ {ctx' : Ctx R} {c : Point R}, ctx'.sweepData = ctx.sweepData →
      Stale s11 { m with sweepCalData := c, running := some ctx' } := by
    intro ctx' c hdata
    refine ⟨?_, h.entries⟩
    rintro _ ⟨⟩
    rw [hdata]
    exact h.buffer ctx hrun
  unfold fsmStep
  cases hstate : ctx.state with
  | idle => exact ⟨(fun _ hc => by cases hc), h.entries⟩
  | setupFreq =>
    dsimp only
    unfold setupFreq
    split
    · exact hsame rfl
    · split
      · exact hsame rfl
      · refine ⟨?_, fun i hi => ?_⟩
        · rintro _ ⟨⟩
          exact h.buffer ctx hrun
        · exact (Function.update_of_ne (Nat.ne_of_lt hi) _ _).trans (h.entries i hi)
  | setupMeasure =>
    obtain ⟨c, ctx', heq, -, -, -, hdata, -⟩ := setupMeasure_next cfg m hstate
    dsimp only
    rw [heq]
    exact hsame hdata
  | waitCapture =>
    dsimp only
    split
    · exact hsame rfl
    · exact hsame rfl
  | process => exact stale_process h hinv hch0 hrun hstate
  | nextStep =>
    have hctx := hinv.ctx ctx hrun
    rw [CtxOk, hstate] at hctx
    refine ⟨?_, fun i hi => ?_⟩
    · rintro _ ⟨⟩
      exact h.buffer ctx hrun
    · obtain hlt | rfl := Nat.lt_succ_iff_lt_or_eq.mp hi
      · exact h.entries i hlt
      · exact (hctx.1.untouched hch0).symm.trans (h.buffer ctx hrun)
  | fault => exact ⟨(fun _ hc => by cases hc), fun i hi => absurd hi (Nat.not_lt_zero i)⟩

end Stale

def cleared : Machine R where
  pSweep := 0
  measured := fun _ _ => ⟨0, 0⟩
  sweepCalData := fun _ => ⟨0, 0⟩
  running := none
  outcome := none
  writes := fun _ _ => 0
  entries := fun _ => ⟨0, 0⟩

/-- A stack whose only interesting cell is the reflection half of the buffer. -/
def stackWith (s11 : Sample R) : Ctx R where
  state := .idle
  breakOnOperation := false
  batchBudget := 0
  processed := 0
  frequency := 0
  interpolationIdx := none
  totalCycles := 0
  currentCycle := 0
  channelIndex := 0
  offset := 0
  sweepData := ⟨s11, ⟨0, 0⟩⟩

omit [LinearOrder R] in
theorem cleared_fresh : Fresh (cleared : Machine R) := ⟨rfl, rfl, rfl, fun _ _ => rfl⟩

theorem completes_stack (hch0 : cfg.mask.ch0Measure = false) (hch1 : cfg.mask.ch1Measure = true)
    (hpoints : points cfg ≤ sweepPointsMax cfg.board) (s11 : Sample R) :
    ∃ inputs u, (uninterrupted false (stackWith s11) inputs).foldlM (step cfg) cleared = some u ∧
      u.outcome = some .completed ∧ ∀ i, i < points cfg →
        u.writes 1 i = 1 ∧ u.measured 1 i = s21Of cfg i s11 := by
  obtain ⟨inputs, u, hu, -, hout⟩ :=
    uninterrupted_completes hpoints (inv_fresh cleared_fresh) rfl false (stackWith s11)
  have hinv := run_inv cleared_fresh hu
  have hcompleted := hinv.completed hout
  have hstale : Stale s11 u := by
    have hstep : ∀ s input t, (Inv cfg cleared s ∧ Stale s11 s) → runStep cfg s input = some t →
        Inv cfg cleared t ∧ Stale s11 t := by
      intro s input t hs ht
      refine ⟨step_inv hs.1 ht, ?_⟩
      simp only [runStep, step] at ht
      split at ht <;> cases ht
      exact stale_step hs.2 hs.1 hch0 ‹_› input
    rw [uninterrupted_run false (stackWith s11) inputs rfl] at hu
    refine (foldlM_invariant hstep ⟨call_inv (inv_fresh cleared_fresh) rfl _ _ _, ?_, ?_⟩ hu).2
    · rintro _ ⟨⟩
      rfl
    · intro i hi
      rw [call_pSweep] at hi
      exact absurd hi (Nat.not_lt_zero i)
  refine ⟨inputs, u, hu, hout, fun i hi => ?_⟩
  obtain ⟨hwrites, hmeasured⟩ := hinv.cells 1 i ⟨hch1, Or.inl (hcompleted ▸ hi)⟩
  refine ⟨hwrites, hmeasured.trans ?_⟩
  rw [hstale.entries i (hcompleted ▸ hi), pointValue_one, pointS11, hch0]
  rfl

theorem stores_stack (hch0 : cfg.mask.ch0Measure = false) (hch1 : cfg.mask.ch1Measure = true)
    (hpoints : points cfg ≤ sweepPointsMax cfg.board) (hi : i < points cfg) (s11 : Sample R) :
    Stores cfg i (s21Of cfg i s11) := by
  obtain ⟨inputs, u, hu, -, hall⟩ := completes_stack hch0 hch1 hpoints s11
  exact ⟨cleared, _, u, cleared_fresh, hu, (hall i hi).1, (hall i hi).2⟩

theorem stores_some (hch1 : cfg.mask.ch1Measure = true)
    (hpoints : points cfg ≤ sweepPointsMax cfg.board) (hi : i < points cfg) :
    ∃ v, Stores cfg i v := by
  obtain ⟨inputs, u, hu, -, hout⟩ :=
    uninterrupted_completes hpoints (inv_fresh cleared_fresh) rfl false (stackWith ⟨0, 0⟩)
  have hinv := run_inv cleared_fresh hu
  have hwritten : Written cfg.mask u.pSweep u.running 1 i :=
    ⟨hch1, Or.inl (hinv.completed hout ▸ hi)⟩
  exact ⟨u.measured 1 i, cleared, _, u, cleared_fresh, hu, (hinv.cells 1 i hwritten).1, rfl⟩

variable [IsStrictOrderedRing R]

/-- The S21 of a point is isolated from the other channel exactly when the point is not corrected
with the enhanced response, or one of the factors of its S21 vanishes. -/
theorem isolated_iff (hch1 : cfg.mask.ch1Measure = true)
    (hpoints : points cfg ≤ sweepPointsMax cfg.board) (hi : i < points cfg) :
    Isolated cfg i ↔ ¬ Sensitive cfg i := by
  constructor
  · intro hisolated hsensitive
    let cfg' : Config R := { cfg with mask := { cfg.mask with ch0Measure := false } }
    have hvariant : Variant cfg cfg' :=
      ⟨cfg.electricalDelayS11, false, cfg.mask.applyEdelayS11, rfl⟩
    obtain ⟨v, hv⟩ := stores_some hch1 hpoints hi
    have hoff : cfg'.mask.ch0Measure = false := rfl
    have hzero := hisolated cfg' v _ hvariant hv (stores_stack hoff hch1 hpoints hi ⟨0, 0⟩)
    have hone := hisolated cfg' v _ hvariant hv (stores_stack hoff hch1 hpoints hi ⟨1, 0⟩)
    rw [variant_s21Of hvariant] at hzero hone
    have hsame := s21Of_injective cfg i hsensitive (hzero.symm.trans hone)
    exact zero_ne_one ((Sample.mk.injEq _ _ _ _).mp hsame).1
  · intro hinsensitive cfg' v v' hvariant hv hv'
    obtain ⟨a, rfl⟩ := stores_s21Of hv
    obtain ⟨b, rfl⟩ := stores_s21Of hv'
    rw [variant_s21Of hvariant]
    exact s21Of_insensitive cfg i hinsensitive a b

/-- A calibrated sweep over one frequency range with source match ½ and a reflection of ½; a
delay turns a sample by a right angle. -/
def calibratedSweep (enhanced ch0 : Bool) (delay : ℚ) : Config ℚ where
  board := .f072
  props :=
    { (defaultVna ℚ .f072).props with
      calStatus := { CalStatus.zero with es := true, er := true, et := true, apply := true,
                                         enhancedResponse := enhanced }
      calData := fun _ cell => if cell = 1 then ⟨1 / 2, 0⟩ else if cell = 2 then ⟨1, 0⟩
        else if cell = 3 then ⟨1, 0⟩ else ⟨0, 0⟩ }
  grid := (defaultVna ℚ .f072).grid
  setup := factorySetup
  mask := ⟨ch0, true, delay ≠ 0, false, false, true, false, false⟩
  electricalDelayS11 := delay
  electricalDelayS21 := 0
  s21Offset := 0
  sinCos := fun w => if w = 0 then (0, 1) else (1, 0)
  expf := fun _ => 1
  ln10 := 2
  response := fun _ ch => if ch = 0 then ⟨1 / 2, 0⟩ else ⟨1, 0⟩

theorem isolated_iff_plain :
    Isolated (calibratedSweep false true 1) 0 ↔ ¬ Sensitive (calibratedSweep false true 1) 0 :=
  isolated_iff rfl (by decide) (by decide)

theorem stores_of_run {cfg : Config ℚ} {i : Nat} {v : Sample ℚ} (steps : Nat) (stack : Ctx ℚ)
    (h : ((uninterrupted false stack (List.replicate steps quiet)).foldlM (step cfg) cleared).map
      (fun m => (m.writes 1 i, m.measured 1 i)) = some (1, v)) : Stores cfg i v := by
  obtain ⟨m, hm, hvalue⟩ := Option.map_eq_some_iff.mp h
  obtain ⟨hwrites, hmeasured⟩ := Prod.mk.inj hvalue
  exact ⟨cleared, _, m, cleared_fresh, hm, hwrites, hmeasured⟩

/-- The S21 of the first point with the enhanced response: a delay of the other channel turns it
from 4/5 to 1 − i/5, and without the other channel it depends on what the stack held. -/
theorem isolated_fails :
    Stores (calibratedSweep true true 0) 0 ⟨4 / 5, 0⟩ ∧
      Stores (calibratedSweep true true 1) 0 ⟨1, -1 / 5⟩ ∧
      Stores (calibratedSweep true false 0) 0 ⟨1, 0⟩ ∧
      Stores (calibratedSweep true false 0) 0 ⟨1 / 2, 0⟩ ∧
      ¬ Isolated (calibratedSweep true true 0) 0 := by
  have hplain : Stores (calibratedSweep true true 0) 0 ⟨4 / 5, 0⟩ :=
    stores_of_run 7 (stackWith ⟨0, 0⟩) (by decide +kernel)
  have hdelay : Stores (calibratedSweep true true 1) 0 ⟨1, -1 / 5⟩ :=
    stores_of_run 7 (stackWith ⟨0, 0⟩) (by decide +kernel)
  refine ⟨hplain, hdelay, ?_, ?_, fun h => ?_⟩
  · exact stores_of_run 4 (stackWith ⟨0, 0⟩) (by decide +kernel)
  · exact stores_of_run 4 (stackWith ⟨1, 0⟩) (by decide +kernel)
  · have hsame := h (calibratedSweep true true 1) _ _ ⟨1, true, true, rfl⟩ hplain hdelay
    exact absurd hsame (by decide +kernel)

end NanoVNA.ChannelIsolation
