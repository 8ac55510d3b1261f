import NanoVNA.SweepSteps

namespace NanoVNA.SweepUninterrupted

open NanoVNA.DeviceState NanoVNA.SweepGrid NanoVNA.Calibration NanoVNA.SweepPoint
open NanoVNA.SweepMachine NanoVNA.SweepInvariant NanoVNA.SweepSteps NanoVNA.GuardedRun

variable {R : Type} [Field R] [LinearOrder R]
variable {cfg : Config R} {m₀ m : Machine R} {ctx : Ctx R}

def uninterrupted (inputPending : Bool) (stack : Ctx R) (inputs : List Input) : List (Action R) :=
  .call false inputPending stack :: inputs.map .step

def quiet : Input := ⟨false, false, false, true⟩

def rank (ctx : Ctx R) : Nat :=
  let cycles := 4 + 8 * (ctx.totalCycles - ctx.currentCycle) + 3 * (2 - ctx.channelIndex)
  match ctx.state with
  | .setupFreq => 40
  | .setupMeasure => cycles
  | .waitCapture => cycles - 1
  | .process => cycles - 2
  | .nextStep => 2
  | .idle | .fault => 1

def remaining (cfg : Config R) (m : Machine R) : Nat :=
  match m.running with
  | none => 0
  | some ctx => (points cfg - m.pSweep) * 50 + rank ctx

structure OnWay (cfg : Config R) (m : Machine R) (ctx : Ctx R) : Prop where
  uninterrupted : ctx.breakOnOperation = false
  budget : ctx.batchBudget = 65535
  processed : ctx.processed ≤ m.pSweep
  sound : ctx.state ≠ .fault
  idle : ctx.state = .idle → points cfg ≤ m.pSweep

omit [Field R] [LinearOrder R] in
theorem onWay_of {m' : Machine R} {ctx' : Ctx R} (hway : OnWay cfg m ctx)
    (hbreak : ctx'.breakOnOperation = ctx.breakOnOperation)
    (hbudget : ctx'.batchBudget = ctx.batchBudget) (hprocessed : ctx'.processed ≤ m'.pSweep)
    (hfault : ctx'.state ≠ .fault) (hidle : ctx'.state ≠ .idle) : OnWay cfg m' ctx' :=
  ⟨hbreak.trans hway.uninterrupted, hbudget.trans hway.budget, hprocessed, hfault,
    fun hstate => absurd hstate hidle⟩

structure Quiet (cfg : Config R) (m₀ m : Machine R) : Prop where
  inv : Inv cfg m₀ m
  running : ∀ ctx, m.running = some ctx → OnWay cfg m ctx
  returned : m.running = none → m.outcome = some .completed

theorem quiet_of_running {m' : Machine R} {ctx' : Ctx R} (hinv : Inv cfg m₀ m')
    (hrun : m.running = some ctx) (hrun' : m'.running = some ctx') (hway : OnWay cfg m' ctx')
    (hlt : (points cfg - m'.pSweep) * 50 + rank ctx' < (points cfg - m.pSweep) * 50 + rank ctx) :
    Quiet cfg m₀ m' ∧ remaining cfg m' < remaining cfg m := by
  refine ⟨⟨hinv, fun c hc => ?_, fun hnone => nomatch hrun'.symm.trans hnone⟩, ?_⟩
  · obtain rfl : ctx' = c := Option.some.inj (hrun'.symm.trans hc)
    exact hway
  · unfold remaining
    rw [hrun, hrun']
    exact hlt

theorem quiet_setupFreq (h : Quiet cfg m₀ m) (hpoints : points cfg ≤ sweepPointsMax cfg.board)
    (hrun : m.running = some ctx) (hstate : ctx.state = .setupFreq) :
    Quiet cfg m₀ (setupFreq cfg quiet ctx m) ∧
      remaining cfg (setupFreq cfg quiet ctx m) < remaining cfg m := by
  have hway := h.running ctx hrun
  have hinv := setupFreq_inv h.inv hrun hstate quiet
  have hbudget : ¬ ctx.batchBudget ≤ ctx.processed := by
    have hboard : sweepPointsMax cfg.board ≤ 401 := by cases cfg.board <;> decide
    have hbound := h.inv.bound
    have hprocessed := hway.processed
    rw [hway.budget]
    omega
  have hgo : ¬ (ctx.batchBudget ≤ ctx.processed || ctx.breakOnOperation && quiet.inputPending ||
      ctx.breakOnOperation && quiet.timesliceExpired) = true := by
    simp only [hbudget, hway.uninterrupted, Bool.false_and, Bool.or_false, decide_false,
      Bool.false_eq_true, not_false_eq_true]
  unfold setupFreq at hinv ⊢
  rw [if_neg hgo] at hinv ⊢
  split
  · rename_i hall
    rw [if_pos hall] at hinv
    refine quiet_of_running hinv hrun rfl
      ⟨hway.uninterrupted, hway.budget, hway.processed, ?_, ?_⟩ ?_
    · exact fun hstate => nomatch hstate
    · exact fun _ => hall
    · simp only [rank, hstate]
      omega
  · rename_i hmore
    rw [if_neg hmore] at hinv
    refine quiet_of_running hinv hrun rfl
      (onWay_of hway rfl rfl hway.processed (by simp) (by simp)) ?_
    simp only [fsmSetupFreq, rank, hstate, quiet, Bool.and_false, Bool.false_eq_true, if_false]
    omega

omit [LinearOrder R] in
theorem setupMeasure_next (cfg : Config R) (m : Machine R) (hstate : ctx.state = .setupMeasure) :
    ∃ c ctx', fsmSetupMeasure cfg ctx m = { m with sweepCalData := c, running := some ctx' } ∧
      ctx'.breakOnOperation = ctx.breakOnOperation ∧ ctx'.batchBudget = ctx.batchBudget ∧
      ctx'.processed = ctx.processed ∧ ctx'.sweepData = ctx.sweepData ∧
      (ctx'.state = .nextStep ∨ ctx'.state = .waitCapture ∨ ctx'.state = .setupMeasure) ∧
      rank ctx' < rank ctx := by
  unfold fsmSetupMeasure
  split
  · refine ⟨_, _, rfl, rfl, rfl, rfl, rfl, Or.inl rfl, ?_⟩
    simp only [rank, hstate]
    omega
  · split
    · refine ⟨_, _, rfl, rfl, rfl, rfl, rfl, Or.inr (Or.inl rfl), ?_⟩
      simp only [rank, hstate]
      omega
    · split
      · rename_i hch1
        have hidx := of_decide_eq_true (Bool.and_eq_true_iff.mp hch1).2
        refine ⟨_, _, rfl, rfl, rfl, rfl, rfl, Or.inr (Or.inl rfl), ?_⟩
        simp only [rank, hstate]
        omega
      · refine ⟨_, _, rfl, rfl, rfl, rfl, rfl, Or.inr (Or.inr hstate), ?_⟩
        simp only [rank, hstate]
        omega

theorem quiet_setupMeasure (h : Quiet cfg m₀ m) (hrun : m.running = some ctx)
    (hstate : ctx.state = .setupMeasure) :
    Quiet cfg m₀ (fsmSetupMeasure cfg ctx m) ∧
      remaining cfg (fsmSetupMeasure cfg ctx m) < remaining cfg m := by
  have hway := h.running ctx hrun
  have hinv := setupMeasure_inv h.inv hrun hstate
  obtain ⟨c, ctx', heq, hbreak, hbudget, hprocessed, -, hnext, hrank⟩ :=
    setupMeasure_next cfg m hstate
  rw [heq] at hinv ⊢
  refine quiet_of_running hinv hrun rfl
    (onWay_of hway hbreak hbudget (hprocessed ▸ hway.processed) (fun hfault => ?_)
      fun hidle => ?_) (Nat.add_lt_add_left hrank _)
  · rw [hfault] at hnext
    simp at hnext
  · rw [hidle] at hnext
    simp at hnext

theorem quiet_process (h : Quiet cfg m₀ m) (hrun : m.running = some ctx)
    (hstate : ctx.state = .process) :
    Quiet cfg m₀ (fsmProcess cfg ctx m) ∧
      remaining cfg (fsmProcess cfg ctx m) < remaining cfg m := by
  have hway := h.running ctx hrun
  have hinv := process_inv h.inv hrun hstate
  have hidx : ctx.channelIndex ≤ 1 := by
    have hctx := h.inv.ctx ctx hrun
    rw [CtxOk, hstate] at hctx
    exact hctx.2.channelIndex
  obtain ⟨data, hrun', hsweep⟩ : ∃ data, (fsmProcess cfg ctx m).running = some
      { ctx with
        sweepData := data, channelIndex := ctx.channelIndex + 1, state := .setupMeasure } ∧
      (fsmProcess cfg ctx m).pSweep = m.pSweep := by
    unfold fsmProcess
    dsimp only
    split
    · exact ⟨_, rfl, rfl⟩
    · exact ⟨_, rfl, rfl⟩
  refine quiet_of_running hinv hrun hrun'
    (onWay_of hway rfl rfl (hsweep ▸ hway.processed) (by simp) (by simp)) ?_
  rw [hsweep]
  simp only [rank, hstate]
  omega

theorem quiet_step (h : Quiet cfg m₀ m) (hpoints : points cfg ≤ sweepPointsMax cfg.board)
    (hrun : m.running = some ctx) :
    Quiet cfg m₀ (fsmStep cfg quiet ctx m) ∧
      remaining cfg (fsmStep cfg quiet ctx m) < remaining cfg m := by
  have hway := h.running ctx hrun
  have hinv := fsmStep_inv h.inv hrun quiet
  unfold fsmStep at hinv ⊢
  cases hstate : ctx.state with
  | idle =>
    simp only [hstate] at hinv
    refine ⟨⟨hinv, (fun _ hc => by cases hc), fun _ => ?_⟩, ?_⟩
    · exact congrArg some (if_pos (hway.idle hstate))
    · simp only [remaining, exitLoop, hrun, rank, hstate]
      omega
  | setupFreq => exact quiet_setupFreq h hpoints hrun hstate
  | setupMeasure => exact quiet_setupMeasure h hrun hstate
  | waitCapture =>
    simp only [hstate, quiet, if_true] at hinv ⊢
    refine quiet_of_running hinv hrun rfl
      (onWay_of hway rfl rfl hway.processed (by simp) (by simp)) ?_
    simp only [rank, hstate]
    omega
  | process => exact quiet_process h hrun hstate
  | nextStep =>
    have hctx := h.inv.ctx ctx hrun
    rw [CtxOk, hstate] at hctx
    have hrange := hctx.1.range
    simp only [hstate] at hinv
    refine quiet_of_running hinv hrun rfl
      (onWay_of hway rfl rfl (Nat.succ_le_succ hway.processed) (by simp) (by simp)) ?_
    simp only [rank, hstate, nextStep]
    omega
  | fault => exact absurd hstate hway.sound

omit [LinearOrder R] in
theorem call_pSweep (inputPending : Bool) (stack : Ctx R) :
    (appMeasurementSweep cfg false inputPending stack m).pSweep = 0 := by
  simp only [appMeasurementSweep, Bool.not_false, Bool.or_true, if_true, Bool.false_and,
    Bool.false_eq_true, if_false, sweepResetProgress]

theorem quiet_call (hinv : Inv cfg m₀ m) (hrun : m.running = none) (inputPending : Bool)
    (stack : Ctx R) : Quiet cfg m₀ (appMeasurementSweep cfg false inputPending stack m) := by
  refine ⟨call_inv hinv hrun false inputPending stack, ?_, ?_⟩
  · rintro _ ⟨⟩
    refine ⟨rfl, rfl, Nat.zero_le _, ?_, ?_⟩
    · exact fun hstate => nomatch hstate
    · exact fun hstate => nomatch hstate
  · exact fun hnone => nomatch hnone

def runStep (cfg : Config R) (m : Machine R) (input : Input) : Option (Machine R) :=
  step cfg m (.step input)

theorem uninterrupted_run (inputPending : Bool) (stack : Ctx R) (inputs : List Input)
    (hrun : m.running = none) :
    (uninterrupted inputPending stack inputs).foldlM (step cfg) m =
      inputs.foldlM (runStep cfg) (appMeasurementSweep cfg false inputPending stack m) := by
  have hcall : step cfg m (.call false inputPending stack) =
      some (appMeasurementSweep cfg false inputPending stack m) := by
    simp only [step, hrun]
  rw [uninterrupted, List.foldlM_cons, hcall]
  exact List.foldlM_map

theorem uninterrupted_completes (hpoints : points cfg ≤ sweepPointsMax cfg.board)
    (hinv : Inv cfg m₀ m) (hrun : m.running = none) (inputPending : Bool) (stack : Ctx R) :
    ∃ inputs u, (uninterrupted inputPending stack inputs).foldlM (step cfg) m = some u ∧
      u.running = none ∧ u.outcome = some .completed := by
  have hstep : ∀ s, Quiet cfg m₀ s → ¬ s.running = none → ∃ input t,
      runStep cfg s input = some t ∧ Quiet cfg m₀ t ∧ remaining cfg t < remaining cfg s := by
    intro s hs hsome
    obtain ⟨ctx, hctx⟩ := Option.ne_none_iff_exists'.mp hsome
    obtain ⟨hquiet, hlt⟩ := quiet_step hs hpoints hctx
    refine ⟨quiet, _, ?_, hquiet, hlt⟩
    simp only [runStep, step, hctx]
  obtain ⟨inputs, u, hu, hquiet, hnone⟩ :=
    exists_run (remaining cfg) hstep (quiet_call hinv hrun inputPending stack)
  refine ⟨inputs, u, ?_, hnone, hquiet.returned hnone⟩
  rw [uninterrupted_run inputPending stack inputs hrun]
  exact hu

end NanoVNA.SweepUninterrupted
