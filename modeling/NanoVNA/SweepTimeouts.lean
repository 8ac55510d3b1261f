import NanoVNA.SweepUninterrupted

namespace NanoVNA.SweepTimeouts

open NanoVNA.DeviceState NanoVNA.SweepPoint NanoVNA.SweepMachine NanoVNA.SweepUninterrupted
open NanoVNA.GuardedRun

variable {R : Type} {cfg : Config R} {m : Machine R} {ctx : Ctx R} {input : Input}

def InTime (m : Machine R) (input : Input) : Prop :=
  ∀ ctx, m.running = some ctx → ctx.state = .waitCapture → input.captured = true

structure Going (cfg : Config R) (m : Machine R) : Prop where
  running : ∀ ctx, m.running = some ctx → OnWay cfg m ctx
  returned : m.running = none → m.outcome = some .completed

theorem going_of_running {m' : Machine R} {ctx' : Ctx R} (hrun : m'.running = some ctx')
    (hway : OnWay cfg m' ctx') : Going cfg m' := by
  refine ⟨fun c hc => ?_, fun hnone => nomatch hrun.symm.trans hnone⟩
  obtain rfl : ctx' = c := Option.some.inj (hrun.symm.trans hc)
  exact hway

theorem going_setupFreq (hway : OnWay cfg m ctx) (hpoints : points cfg < 65536) (input : Input) :
    Going cfg (setupFreq cfg input ctx m) := by
  unfold setupFreq
  split
  · rename_i hstop
    refine going_of_running rfl
      ⟨hway.uninterrupted, hway.budget, hway.processed, nofun, fun _ => ?_⟩
    simp only [hway.uninterrupted, hway.budget, Bool.false_and, Bool.or_false,
      decide_eq_true_eq] at hstop
    have hprocessed := hway.processed
    dsimp only
    omega
  · split
    · rename_i hall
      exact going_of_running rfl
        ⟨hway.uninterrupted, hway.budget, hway.processed, nofun, fun _ => hall⟩
    · exact going_of_running rfl (onWay_of hway rfl rfl hway.processed nofun nofun)

variable [Field R]

theorem going_call (inputPending : Bool) (stack : Ctx R) :
    Going cfg (appMeasurementSweep cfg false inputPending stack m) := by
  exact going_of_running rfl ⟨rfl, rfl, Nat.zero_le _, nofun, nofun⟩

variable [LinearOrder R]

theorem going_process (hway : OnWay cfg m ctx) : Going cfg (fsmProcess cfg ctx m) := by
  unfold fsmProcess
  dsimp only
  split
  · exact going_of_running rfl (onWay_of hway rfl rfl hway.processed nofun nofun)
  · exact going_of_running rfl (onWay_of hway rfl rfl hway.processed nofun nofun)

theorem going_step (hpoints : points cfg < 65536) (h : Going cfg m) (hrun : m.running = some ctx)
    (hintime : InTime m input) : Going cfg (fsmStep cfg input ctx m) := by
  have hway := h.running ctx hrun
  unfold fsmStep
  cases hstate : ctx.state with
  | idle => exact ⟨(fun _ hc => nomatch hc), fun _ => congrArg some (if_pos (hway.idle hstate))⟩
  | setupFreq => exact going_setupFreq hway hpoints input
  | setupMeasure =>
    obtain ⟨c, ctx', heq, hbreak, hbudget, hprocessed, -, hnext, -⟩ :=
      setupMeasure_next cfg m hstate
    dsimp only
    rw [heq]
    refine going_of_running rfl (onWay_of hway hbreak hbudget (hprocessed ▸ hway.processed)
      (fun hfault => ?_) fun hidle => ?_)
    · rw [hfault] at hnext
      simp at hnext
    · rw [hidle] at hnext
      simp at hnext
  | waitCapture =>
    dsimp only
    rw [if_pos (hintime ctx hrun hstate)]
    exact going_of_running rfl (onWay_of hway rfl rfl hway.processed nofun nofun)
  | process => exact going_process hway
  | nextStep =>
    exact going_of_running rfl (onWay_of hway rfl rfl (Nat.succ_le_succ hway.processed) nofun nofun)
  | fault => exact absurd hstate hway.sound

theorem runStep_eq_some {m' : Machine R} (h : runStep cfg m input = some m') :
    ∃ ctx, m.running = some ctx ∧ m' = fsmStep cfg input ctx m := by
  unfold runStep step at h
  cases hrun : m.running with
  | none => simp [hrun] at h
  | some ctx =>
    simp only [hrun, Option.some.injEq] at h
    exact ⟨ctx, rfl, h.symm⟩

theorem failed_of_timeout {inputs : List Input} {u : Machine R} (hrun : m.running = some ctx)
    (hfault : ctx.state = .fault) (h : inputs.foldlM (runStep cfg) m = some u)
    (hend : u.running = none) : u.outcome = some .failed := by
  cases inputs with
  | nil =>
    obtain rfl := Option.some.inj h
    exact nomatch hrun.symm.trans hend
  | cons input inputs =>
    rw [List.foldlM_cons] at h
    obtain ⟨t, ht, hrest⟩ := Option.bind_eq_some_iff.mp h
    obtain ⟨ctx', hctx', rfl⟩ := runStep_eq_some ht
    obtain rfl : ctx = ctx' := Option.some.inj (hrun.symm.trans hctx')
    rw [fsmStep, hfault] at hrest
    cases inputs with
    | nil =>
      obtain rfl := Option.some.inj hrest
      rfl
    | cons next inputs =>
      rw [List.foldlM_cons] at hrest
      exact nomatch hrest

theorem fault_of_late {m' : Machine R} (h : runStep cfg m input = some m')
    (hlate : ¬ InTime m input) : ∃ ctx, m'.running = some ctx ∧ ctx.state = .fault := by
  obtain ⟨ctx, hrun, rfl⟩ := runStep_eq_some h
  simp only [InTime, hrun, Option.some.injEq, forall_eq', Classical.not_imp] at hlate
  obtain ⟨hstate, hcaptured⟩ := hlate
  refine ⟨{ ctx with state := .fault }, ?_, rfl⟩
  rw [fsmStep, hstate]
  dsimp only
  rw [if_neg hcaptured]

/-- A call that nothing interrupts returns true exactly when every capture is in time. The
induction is on the steps, from any state of a call on its way. -/
theorem completed_iff {inputs : List Input} {u : Machine R} (hpoints : points cfg < 65536)
    (hgoing : Going cfg m) (h : inputs.foldlM (runStep cfg) m = some u) (hend : u.running = none) :
    u.outcome = some .completed ↔ Along (runStep cfg) InTime m inputs := by
  induction inputs generalizing m with
  | nil =>
    obtain rfl := Option.some.inj h
    exact iff_of_true (hgoing.returned hend) trivial
  | cons input inputs ih =>
    rw [List.foldlM_cons] at h
    obtain ⟨t, ht, hrest⟩ := Option.bind_eq_some_iff.mp h
    by_cases hintime : InTime m input
    · obtain ⟨ctx, hrun, rfl⟩ := runStep_eq_some ht
      rw [ih (going_step hpoints hgoing hrun hintime) hrest]
      refine ⟨fun hall => ⟨hintime, fun t' ht' => ?_⟩, fun hall => hall.2 _ ht⟩
      exact Option.some.inj (ht.symm.trans ht') ▸ hall
    · obtain ⟨ctx, hrun, hfault⟩ := fault_of_late ht hintime
      have hfailed := failed_of_timeout hrun hfault hrest hend
      refine iff_of_false (fun hcompleted => ?_) fun hall => hintime hall.1
      exact nomatch hfailed.symm.trans hcompleted

end NanoVNA.SweepTimeouts
