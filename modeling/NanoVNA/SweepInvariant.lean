import NanoVNA.SweepMachine

namespace NanoVNA.SweepInvariant

open NanoVNA.DeviceState NanoVNA.SweepGrid NanoVNA.Calibration NanoVNA.SweepPoint
open NanoVNA.SweepMachine

variable {R : Type}

/-- The channels of the point in progress that have their value: those before the current one in
the last cycle, and all of them after it. -/
def Done (ctx : Ctx R) (ch : Fin 2) : Prop :=
  match ctx.state with
  | .setupMeasure | .waitCapture | .process | .fault =>
    ctx.totalCycles ≤ ctx.currentCycle ∨
      ctx.currentCycle + 1 = ctx.totalCycles ∧ ch.val < ctx.channelIndex
  | .nextStep => True
  | .idle | .setupFreq => False

/-- The points of a requested channel that were written since the progress was reset. -/
def Written (mask : SweepMask) (pSweep : Nat) (running : Option (Ctx R)) (ch : Fin 2) (i : Nat) :
    Prop :=
  mask.requests ch = true ∧ (i < pSweep ∨ i = pSweep ∧ ∃ ctx, running = some ctx ∧ Done ctx ch)

section Cells

theorem update_cell {α : Type} (f : Fin 2 → Nat → α) (ch : Fin 2) (p : Nat) (v : α) (ch' : Fin 2)
    (i : Nat) :
    Function.update f ch (Function.update (f ch) p v) ch' i =
      if ch' = ch ∧ i = p then v else f ch' i := by
  by_cases hch : ch' = ch
  · subst hch
    rw [Function.update_self, Function.update_apply]
    simp only [true_and]
  · rw [Function.update_of_ne hch, if_neg fun h => hch h.1]

variable {mask : SweepMask} {pSweep : Nat} {ctx ctx' : Ctx R} {ch : Fin 2} {i : Nat}

theorem written_running :
    Written mask pSweep (some ctx) ch i ↔
      mask.requests ch = true ∧ (i < pSweep ∨ i = pSweep ∧ Done ctx ch) := by
  simp [Written]

theorem written_none :
    Written mask pSweep (none : Option (Ctx R)) ch i ↔ mask.requests ch = true ∧ i < pSweep := by
  simp [Written]

theorem written_congr (h : mask.requests ch = true → (Done ctx' ch ↔ Done ctx ch)) :
    Written mask pSweep (some ctx') ch i ↔ Written mask pSweep (some ctx) ch i := by
  rw [written_running, written_running]
  exact and_congr_right fun hch => or_congr_right (and_congr_right fun _ => h hch)

end Cells

variable [Field R] [LinearOrder R] {cfg : Config R} {m₀ m : Machine R} {ctx : Ctx R}

structure InPoint (cfg : Config R) (m : Machine R) (ctx : Ctx R) : Prop where
  range : m.pSweep < points cfg
  frequency : ctx.frequency = pointFrequency cfg m.pSweep
  index : cfg.mask.ch0Measure = true ∨ cfg.mask.ch1Measure = true →
    ctx.interpolationIdx = pointIndex cfg m.pSweep
  offset : ctx.offset = sweepOffset cfg
  cycles : ctx.totalCycles ≤ ctx.currentCycle → ctx.channelIndex = 0
  untouched : cfg.mask.ch0Measure = false → ctx.sweepData.s11 = m.entries m.pSweep
  reflection : cfg.mask.ch0Measure = true → ctx.currentCycle + 1 = ctx.totalCycles →
    1 ≤ ctx.channelIndex → ctx.sweepData.s11 = pointS11 cfg m.pSweep (m.entries m.pSweep)

structure Capturing (cfg : Config R) (m : Machine R) (ctx : Ctx R) : Prop where
  running : ctx.currentCycle < ctx.totalCycles
  channelIndex : ctx.channelIndex ≤ 1
  requested : cfg.mask.requests (channel ctx) = true
  terms : finalCycle ctx = true → cfg.mask.applyCalibration = true →
    m.sweepCalData = pointTerms cfg m.pSweep

def CtxOk (cfg : Config R) (m : Machine R) (ctx : Ctx R) : Prop :=
  match ctx.state with
  | .idle => True
  | .setupFreq => ctx.offset = sweepOffset cfg ∧ ctx.channelIndex = 0
  | .setupMeasure => InPoint cfg m ctx
  | .waitCapture | .process => InPoint cfg m ctx ∧ Capturing cfg m ctx
  | .nextStep => InPoint cfg m ctx ∧ ctx.channelIndex = 0
  | .fault => True

/-- Every point behind the index has the value of its frequency, written once; nothing else is
counted, and the points that are not asked for are as they were at first. -/
structure Inv (cfg : Config R) (m₀ m : Machine R) : Prop where
  bound : m.pSweep ≤ points cfg
  cells : ∀ ch i, Written cfg.mask m.pSweep m.running ch i →
    m.writes ch i = 1 ∧ m.measured ch i = pointValue cfg i (m.entries i) ch
  fresh : ∀ ch i, ¬ Written cfg.mask m.pSweep m.running ch i → m.writes ch i = 0
  outside : ∀ ch i, cfg.mask.requests ch = false ∨ points cfg ≤ i →
    m.measured ch i = m₀.measured ch i
  ctx : ∀ ctx, m.running = some ctx → CtxOk cfg m ctx
  calling : m.running.isSome → m.outcome = none
  completed : m.outcome = some .completed → m.pSweep = points cfg
  failed : m.outcome = some .failed → m.pSweep = 0

structure Fresh (m : Machine R) : Prop where
  pSweep : m.pSweep = 0
  running : m.running = none
  outcome : m.outcome = none
  writes : ∀ ch i, m.writes ch i = 0

theorem inv_fresh (h : Fresh m) : Inv cfg m m := by
  have hnone : ∀ ch i, ¬ Written cfg.mask m.pSweep m.running ch i := by
    intro ch i hw
    rw [h.running, written_none, h.pSweep] at hw
    exact Nat.not_lt_zero i hw.2
  refine ⟨?_, fun ch i hw => absurd hw (hnone ch i), fun ch i _ => h.writes ch i,
    fun _ _ _ => rfl, ?_, ?_, ?_, ?_⟩
  · rw [h.pSweep]
    exact Nat.zero_le _
  · rw [h.running]
    exact fun _ hctx => nomatch hctx
  · exact fun _ => h.outcome
  · rw [h.outcome]
    exact fun hout => nomatch hout
  · rw [h.outcome]
    exact fun hout => nomatch hout

theorem inv_of_same (h : Inv cfg m₀ m) (hrun : m.running = some ctx) {c : Point R} {ctx' : Ctx R}
    (hdone : ∀ ch, cfg.mask.requests ch = true → (Done ctx' ch ↔ Done ctx ch))
    (hctx : CtxOk cfg { m with sweepCalData := c, running := some ctx' } ctx') :
    Inv cfg m₀ { m with sweepCalData := c, running := some ctx' } := by
  have hsame : ∀ ch i, Written cfg.mask m.pSweep (some ctx') ch i ↔
      Written cfg.mask m.pSweep m.running ch i := by
    intro ch i
    rw [hrun]
    exact written_congr (hdone ch)
  have hnone : m.outcome = none := h.calling (by rw [hrun]; rfl)
  refine ⟨h.bound, fun ch i hw => h.cells ch i ((hsame ch i).mp hw),
    fun ch i hw => h.fresh ch i (fun hold => hw ((hsame ch i).mpr hold)), h.outside, ?_, ?_,
    h.completed, h.failed⟩
  · rintro _ ⟨⟩
    exact hctx
  · exact fun _ => hnone

theorem inv_reset (h : Inv cfg m₀ m) (hrun : m.running = none) :
    Inv cfg m₀ { sweepResetProgress m with outcome := none } := by
  have hnone : ∀ ch i, ¬ Written cfg.mask 0 m.running ch i := by
    intro ch i hw
    rw [hrun, written_none] at hw
    exact Nat.not_lt_zero i hw.2
  refine ⟨Nat.zero_le _, fun ch i hw => absurd hw (hnone ch i), fun _ _ _ => rfl, h.outside, ?_,
    fun _ => rfl, ?_, ?_⟩
  · intro ctx hctx
    exact nomatch hrun.symm.trans hctx
  · exact fun hout => nomatch hout
  · exact fun hout => nomatch hout

theorem inv_exitFailure (h : Inv cfg m₀ m) : Inv cfg m₀ (exitFailure m) := by
  have hnone : ∀ ch i, ¬ Written cfg.mask 0 (none : Option (Ctx R)) ch i := by
    intro ch i hw
    rw [written_none] at hw
    exact Nat.not_lt_zero i hw.2
  refine ⟨Nat.zero_le _, fun ch i hw => absurd hw (hnone ch i), fun _ _ _ => rfl, h.outside, ?_, ?_,
    ?_, fun _ => rfl⟩
  · exact fun _ hctx => nomatch hctx
  · exact fun hrun => nomatch hrun
  · exact fun hout => nomatch hout

end NanoVNA.SweepInvariant
