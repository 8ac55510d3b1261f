import NanoVNA.ChannelIsolation

namespace NanoVNA.SweepSlices

open NanoVNA.DeviceState NanoVNA.SweepGrid NanoVNA.Calibration NanoVNA.SweepPoint
open NanoVNA.SweepMachine NanoVNA.SweepInvariant NanoVNA.SweepSteps NanoVNA.SweepUninterrupted
open NanoVNA.TransmissionValue NanoVNA.ChannelIsolation

variable {R : Type} [Field R] [LinearOrder R] {cfg : Config R} {m₀ m : Machine R}

/-- No value of the sweep depends on what the buffer held before: channel 0 is measured, or
channel 1 is not, or no S21 is sensitive to an S11. -/
def Determined (cfg : Config R) : Prop :=
  cfg.mask.ch0Measure = true ∨ cfg.mask.ch1Measure = false ∨
    ∀ i, i < points cfg → ¬ Sensitive cfg i

/-- What a call that returns true leaves behind: all points done, each requested one written
once, and the arrays of a sweep in one piece. -/
structure AsUninterrupted (cfg : Config R) (m₀ m : Machine R) : Prop where
  allDone : m.pSweep = points cfg
  writtenOnce : ∀ ch i, cfg.mask.requests ch = true → i < points cfg → m.writes ch i = 1
  same : ∀ inputPending stack inputs u,
    (uninterrupted inputPending stack inputs).foldlM (step cfg) m₀ = some u →
      u.outcome = some .completed → m.measured = u.measured

/-- A capture that does not finish ends the call, and the next call starts at point 0. -/
def RestartsAfterFault (cfg : Config R) (m : Machine R) : Prop :=
  ∀ ctx input m₁, m.running = some ctx → ctx.state = .waitCapture → input.captured = false →
    step cfg m (.step input) = some m₁ → ∀ input' m₂, step cfg m₁ (.step input') = some m₂ →
      m₂.running = none ∧ m₂.outcome = some .failed ∧ m₂.pSweep = 0 ∧
        ∀ breakOnOperation inputPending stack m₃,
          step cfg m₂ (.call breakOnOperation inputPending stack) = some m₃ → m₃.pSweep = 0

theorem pointS11_before (hch0 : cfg.mask.ch0Measure = true) (i : Nat) (a b : Sample R) :
    pointS11 cfg i a = pointS11 cfg i b := by
  rw [pointS11, pointS11, if_pos hch0, if_pos hch0]
  exact processCh0_s11 cfg _ _ rfl

theorem pointValue_before (hdet : Determined cfg) {ch : Fin 2} {i : Nat}
    (hch : cfg.mask.requests ch = true) (hi : i < points cfg) (a b : Sample R) :
    pointValue cfg i a ch = pointValue cfg i b ch := by
  obtain rfl | rfl := channel_cases ch
  · exact pointS11_before hch i a b
  · rw [pointValue_one, pointValue_one]
    obtain hch0 | hch1 | hinsensitive := hdet
    · rw [pointS11_before hch0 i a b]
    · exact nomatch hch1.symm.trans hch
    · exact s21Of_insensitive cfg i (hinsensitive i hi) _ _

theorem measured_eq (hdet : Determined cfg) {u : Machine R} (hm : Inv cfg m₀ m)
    (hu : Inv cfg m₀ u) (hdone : m.pSweep = points cfg) (hdone' : u.pSweep = points cfg) :
    m.measured = u.measured := by
  funext ch i
  cases hch : cfg.mask.requests ch with
  | false => exact (hm.outside ch i (Or.inl hch)).trans (hu.outside ch i (Or.inl hch)).symm
  | true =>
    obtain hi | hi := Nat.lt_or_ge i (points cfg)
    · rw [(hm.cells ch i ⟨hch, Or.inl (hdone ▸ hi)⟩).2,
        (hu.cells ch i ⟨hch, Or.inl (hdone' ▸ hi)⟩).2]
      exact pointValue_before hdet hch hi _ _
    · exact (hm.outside ch i (Or.inr hi)).trans (hu.outside ch i (Or.inr hi)).symm

omit [LinearOrder R] in
theorem call_start (hsweep : m.pSweep = 0) (breakOnOperation inputPending : Bool) (stack : Ctx R) :
    (appMeasurementSweep cfg breakOnOperation inputPending stack m).pSweep = 0 := by
  have hready : (if points cfg ≤ m.pSweep || !breakOnOperation then sweepResetProgress m
      else m).pSweep = 0 := by
    split
    · rfl
    · exact hsweep
  unfold appMeasurementSweep
  dsimp only
  split
  · rfl
  · exact hready

theorem restarts_after_fault (m : Machine R) : RestartsAfterFault cfg m := by
  intro ctx input m₁ hrun hstate hcaptured hstep input' m₂ hstep'
  simp only [step, hrun, fsmStep, hstate, hcaptured, Bool.false_eq_true, if_false,
    Option.some.injEq] at hstep
  subst hstep
  simp only [step, fsmStep, Option.some.injEq] at hstep'
  subst hstep'
  refine ⟨rfl, rfl, rfl, fun breakOnOperation inputPending stack m₃ hcall => ?_⟩
  cases hcall
  exact call_start rfl breakOnOperation inputPending stack

/-- However a sweep is cut into calls: when one of them returns true, the sweep is the one that
a single call makes; and such a call does return true. -/
theorem sliced_eq_uninterrupted (hpoints : points cfg ≤ sweepPointsMax cfg.board)
    (hdet : Determined cfg) (hfresh : Fresh m₀) {actions : List (Action R)}
    (hrun : actions.foldlM (step cfg) m₀ = some m) :
    (m.outcome = some .completed → AsUninterrupted cfg m₀ m) ∧ RestartsAfterFault cfg m ∧
      ∀ inputPending stack, ∃ inputs u,
        (uninterrupted inputPending stack inputs).foldlM (step cfg) m₀ = some u ∧
          u.outcome = some .completed := by
  have hinv := run_inv hfresh hrun
  refine ⟨fun hout => ?_, restarts_after_fault m, fun inputPending stack => ?_⟩
  · have hdone := hinv.completed hout
    refine ⟨hdone, fun ch i hch hi => ?_, fun inputPending stack inputs u hu hout' => ?_⟩
    · exact (hinv.cells ch i ⟨hch, Or.inl (hdone ▸ hi)⟩).1
    · have hinv' := run_inv hfresh hu
      exact measured_eq hdet hinv hinv' hdone (hinv'.completed hout')
  · obtain ⟨inputs, u, hu, -, hout⟩ :=
      uninterrupted_completes hpoints (inv_fresh hfresh) hfresh.running inputPending stack
    exact ⟨inputs, u, hu, hout⟩

theorem sliced_eq_uninterrupted_both :
    ∃ (actions : List (Action ℚ)) (m : Machine ℚ),
      actions.foldlM (step (calibratedSweep true true 1)) cleared = some m ∧
        AsUninterrupted (calibratedSweep true true 1) cleared m := by
  have hinv : Inv (calibratedSweep true true 1) cleared cleared := inv_fresh cleared_fresh
  obtain ⟨inputs, m, hm, -, hout⟩ :=
    uninterrupted_completes (by decide) hinv rfl false (stackWith ⟨0, 0⟩)
  exact ⟨_, m, hm,
    (sliced_eq_uninterrupted (by decide) (Or.inl rfl) cleared_fresh hm).1 hout⟩

/-- Without channel 0, two sweeps in one piece of the same captures differ in what the stack
held when they were called. -/
theorem sliced_fails :
    ∃ inputs inputs' u u',
      (uninterrupted false (stackWith ⟨0, 0⟩) inputs).foldlM
        (step (calibratedSweep true false 0)) cleared = some u ∧
      (uninterrupted false (stackWith ⟨1, 0⟩) inputs').foldlM
        (step (calibratedSweep true false 0)) cleared = some u' ∧
      u.outcome = some .completed ∧ u'.outcome = some .completed ∧
      u.measured 1 0 = ⟨1, 0⟩ ∧ u'.measured 1 0 = ⟨1 / 2, 0⟩ := by
  have hpoints : points (calibratedSweep true false 0) ≤ sweepPointsMax .f072 := by decide
  have hzero : 0 < points (calibratedSweep true false 0) := by decide
  obtain ⟨inputs, u, hu, hout, hall⟩ := completes_stack rfl rfl hpoints (⟨0, 0⟩ : Sample ℚ)
  obtain ⟨inputs', u', hu', hout', hall'⟩ := completes_stack rfl rfl hpoints (⟨1, 0⟩ : Sample ℚ)
  refine ⟨inputs, inputs', u, u', hu, hu', hout, hout', ?_, ?_⟩
  · rw [(hall 0 hzero).2]
    decide +kernel
  · rw [(hall' 0 hzero).2]
    decide +kernel

end NanoVNA.SweepSlices
