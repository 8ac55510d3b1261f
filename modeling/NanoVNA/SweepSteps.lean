import NanoVNA.SweepInvariant

namespace NanoVNA.SweepSteps

open NanoVNA.DeviceState NanoVNA.SweepGrid NanoVNA.Calibration NanoVNA.SweepPoint
open NanoVNA.SweepMachine NanoVNA.SweepInvariant NanoVNA.GuardedRun

variable {R : Type} [Field R] [LinearOrder R]
variable {cfg : Config R} {m₀ m : Machine R} {ctx : Ctx R}

theorem exitLoop_inv (h : Inv cfg m₀ m) (hrun : m.running = some ctx)
    (hstate : ctx.state = .idle) : Inv cfg m₀ (exitLoop cfg m) := by
  have hsame : ∀ ch i, Written cfg.mask m.pSweep (none : Option (Ctx R)) ch i ↔
      Written cfg.mask m.pSweep m.running ch i := by
    intro ch i
    have hdone : ¬ Done ctx ch := by
      rw [Done, hstate]
      exact not_false
    rw [hrun, written_none, written_running]
    simp only [hdone, and_false, or_false]
  refine ⟨h.bound, fun ch i hw => h.cells ch i ((hsame ch i).mp hw),
    fun ch i hw => h.fresh ch i (fun hold => hw ((hsame ch i).mpr hold)), h.outside, ?_, ?_, ?_, ?_⟩
  · exact fun _ hctx => nomatch hctx
  · exact fun hrun => nomatch hrun
  · intro hout
    by_cases hall : points cfg ≤ m.pSweep
    · exact Nat.le_antisymm h.bound hall
    · have hpaused := Option.some.inj hout
      rw [if_neg hall] at hpaused
      cases hpaused
  · intro hout
    have hout := Option.some.inj hout
    split at hout <;> cases hout

theorem inv_forget (h : Inv cfg m₀ m) (hrun : m.running = none) :
    Inv cfg m₀ { m with outcome := none } := by
  refine ⟨h.bound, h.cells, h.fresh, h.outside, ?_, fun _ => rfl, ?_, ?_⟩
  · exact fun _ hctx => nomatch hrun.symm.trans hctx
  · exact fun hout => nomatch hout
  · exact fun hout => nomatch hout

theorem call_inv (h : Inv cfg m₀ m) (hrun : m.running = none) (breakOnOperation inputPending : Bool)
    (stack : Ctx R) :
    Inv cfg m₀ (appMeasurementSweep cfg breakOnOperation inputPending stack m) := by
  have hready : Inv cfg m₀
      { (if points cfg ≤ m.pSweep || !breakOnOperation then sweepResetProgress m else m) with
        outcome := none } := by
    split
    · exact inv_reset h hrun
    · exact inv_forget h hrun
  have hidle : (if points cfg ≤ m.pSweep || !breakOnOperation then sweepResetProgress m
      else m).running = none := by
    split <;> exact hrun
  unfold appMeasurementSweep
  generalize (if points cfg ≤ m.pSweep || !breakOnOperation then sweepResetProgress m else m) = s
    at hready hidle ⊢
  dsimp only
  split
  · have hfailed := inv_exitFailure hready
    exact hfailed
  · have hsame : ∀ (ctx : Ctx R), ctx.state = .setupFreq → ∀ ch i,
        Written cfg.mask s.pSweep (some ctx) ch i ↔ Written cfg.mask s.pSweep s.running ch i := by
      intro ctx hstate ch i
      have hdone : ¬ Done ctx ch := by
        rw [Done, hstate]
        exact not_false
      rw [hidle, written_none, written_running]
      simp only [hdone, and_false, or_false]
    refine ⟨hready.bound, fun ch i hw => hready.cells ch i ((hsame _ rfl ch i).mp hw),
      fun ch i hw => hready.fresh ch i (fun hold => hw ((hsame _ rfl ch i).mpr hold)),
      hready.outside, ?_, fun _ => rfl, ?_, ?_⟩
    · rintro _ ⟨⟩
      exact ⟨rfl, rfl⟩
    · exact fun hout => nomatch hout
    · exact fun hout => nomatch hout

theorem fsmSetupFreq_inv (h : Inv cfg m₀ m) (hrun : m.running = some ctx)
    (hstate : ctx.state = .setupFreq) (hrange : m.pSweep < points cfg) (input : Input) :
    Inv cfg m₀ (fsmSetupFreq cfg input ctx m) := by
  obtain ⟨hoffset, hch⟩ : ctx.offset = sweepOffset cfg ∧ ctx.channelIndex = 0 := by
    have hctx := h.ctx ctx hrun
    rwa [CtxOk, hstate] at hctx
  have hsame : ∀ ch i, Written cfg.mask m.pSweep (fsmSetupFreq cfg input ctx m).running ch i ↔
      Written cfg.mask m.pSweep m.running ch i := by
    intro ch i
    rw [hrun]
    refine written_congr fun _ => ?_
    simp only [Done, hstate, hch, Nat.not_lt_zero, and_false, or_false, Nat.le_zero_eq,
      Nat.add_eq_zero_iff, Nat.one_ne_zero]
  have hother : ∀ ch i, Written cfg.mask m.pSweep m.running ch i →
      (fsmSetupFreq cfg input ctx m).entries i = m.entries i := by
    intro ch i hw
    refine Function.update_of_ne ?_ _ _
    rintro rfl
    rw [hrun, written_running] at hw
    obtain hlt | ⟨-, hdone⟩ := hw.2
    · exact Nat.lt_irrefl _ hlt
    · rw [Done, hstate] at hdone
      exact hdone
  refine ⟨h.bound, fun ch i hw => ?_,
    fun ch i hw => h.fresh ch i (fun hold => hw ((hsame ch i).mpr hold)), h.outside, ?_, ?_,
    h.completed, h.failed⟩
  · have hold := (hsame ch i).mp hw
    rw [hother ch i hold]
    exact h.cells ch i hold
  · rintro _ ⟨⟩
    refine ⟨hrange, rfl, fun hch => ?_, hoffset, fun _ => hch, fun _ => ?_, fun _ _ hidx => ?_⟩
    · have hmeasures : (cfg.mask.ch0Measure || cfg.mask.ch1Measure) = true := by
        rw [Bool.or_eq_true]
        exact hch
      exact if_pos hmeasures
    · exact (Function.update_self m.pSweep ctx.sweepData.s11 m.entries).symm
    · exact absurd hch (Nat.ne_of_gt hidx)
  · exact fun _ => h.calling (by rw [hrun]; rfl)

theorem setupFreq_inv (h : Inv cfg m₀ m) (hrun : m.running = some ctx)
    (hstate : ctx.state = .setupFreq) (input : Input) : Inv cfg m₀ (setupFreq cfg input ctx m) := by
  have hidle : Inv cfg m₀ { m with running := some { ctx with state := .idle } } :=
    inv_of_same h hrun (fun ch _ => by simp only [Done, hstate]) trivial
  unfold setupFreq
  split
  · exact hidle
  · split
    · exact hidle
    · exact fsmSetupFreq_inv h hrun hstate (Nat.lt_of_not_le ‹_›) input

theorem nextStep_inv (h : Inv cfg m₀ m) (hrun : m.running = some ctx)
    (hstate : ctx.state = .nextStep) : Inv cfg m₀ (nextStep ctx m) := by
  obtain ⟨hpoint, hch⟩ : InPoint cfg m ctx ∧ ctx.channelIndex = 0 := by
    have hctx := h.ctx ctx hrun
    rwa [CtxOk, hstate] at hctx
  have hsame : ∀ ch i, Written cfg.mask (m.pSweep + 1) (nextStep ctx m).running ch i ↔
      Written cfg.mask m.pSweep m.running ch i := by
    intro ch i
    rw [hrun, nextStep, written_running, written_running]
    refine and_congr_right fun _ => ?_
    simp only [Done, hstate, and_false, or_false, and_true]
    exact Nat.lt_succ_iff_lt_or_eq
  refine ⟨hpoint.range, fun ch i hw => h.cells ch i ((hsame ch i).mp hw),
    fun ch i hw => h.fresh ch i (fun hold => hw ((hsame ch i).mpr hold)), h.outside, ?_, ?_, ?_, ?_⟩
  · rintro _ ⟨⟩
    exact ⟨hpoint.offset, hch⟩
  · exact fun _ => h.calling (by rw [hrun]; rfl)
  all_goals
    have hnone : m.outcome = none := h.calling (by rw [hrun]; rfl)
    exact fun hout => nomatch hnone.symm.trans hout

theorem nextCycle_inv (h : Inv cfg m₀ m) (hrun : m.running = some ctx)
    (hpoint : InPoint cfg m ctx) (hstate : ctx.state = .setupMeasure)
    (hcycle : ctx.currentCycle < ctx.totalCycles)
    (hch0 : ¬ (cfg.mask.ch0Measure = true ∧ ctx.channelIndex = 0))
    (hch1 : ¬ (cfg.mask.ch1Measure = true ∧ ctx.channelIndex ≤ 1)) :
    Inv cfg m₀
      { m with
        running := some
          { ctx with currentCycle := ctx.currentCycle + 1, channelIndex := 0 } } := by
  refine inv_of_same h hrun (fun ch hreq => ?_) ?_
  · have hpassed : ch.val < ctx.channelIndex := by
      obtain rfl | rfl := channel_cases ch
      · exact Nat.pos_of_ne_zero fun hidx => hch0 ⟨hreq, hidx⟩
      · exact Nat.lt_of_not_le fun hidx => hch1 ⟨hreq, hidx⟩
    simp only [Done, hstate, hpassed, Nat.not_lt_zero, and_false, and_true, or_false]
    omega
  · rw [CtxOk]
    simp only [hstate]
    exact ⟨hpoint.range, hpoint.frequency, hpoint.index, hpoint.offset, fun _ => rfl,
      hpoint.untouched, fun _ _ hidx => absurd hidx (Nat.not_succ_le_zero 0)⟩

theorem startMeasure_inv (h : Inv cfg m₀ m) (hrun : m.running = some ctx)
    {ctx' : Ctx R} (hpoint : InPoint cfg m ctx')
    (hcycle : ctx'.currentCycle < ctx'.totalCycles) (hidx : ctx'.channelIndex ≤ 1)
    (hreq : cfg.mask.requests (channel ctx') = true)
    (hdone : ∀ ch, cfg.mask.requests ch = true →
      (Done { ctx' with state := .waitCapture } ch ↔ Done ctx ch)) :
    Inv cfg m₀ (startMeasure cfg ctx' m) := by
  refine inv_of_same h hrun hdone ⟨?_, hcycle, hidx, hreq, fun hfinal hcal => ?_⟩
  · exact ⟨hpoint.range, hpoint.frequency, hpoint.index, hpoint.offset, hpoint.cycles,
      hpoint.untouched, hpoint.reflection⟩
  · have hlast : (finalCycle ctx' && cfg.mask.applyCalibration) = true := by
      rw [Bool.and_eq_true]
      exact ⟨hfinal, hcal⟩
    have hany : cfg.mask.ch0Measure = true ∨ cfg.mask.ch1Measure = true := by
      unfold SweepMask.requests at hreq
      split at hreq
      · exact Or.inl hreq
      · exact Or.inr hreq
    dsimp only
    rw [if_pos hlast, hpoint.index hany, hpoint.frequency]
    rfl

theorem setupMeasure_inv (h : Inv cfg m₀ m) (hrun : m.running = some ctx)
    (hstate : ctx.state = .setupMeasure) : Inv cfg m₀ (fsmSetupMeasure cfg ctx m) := by
  have hpoint : InPoint cfg m ctx := by
    have hctx := h.ctx ctx hrun
    rwa [CtxOk, hstate] at hctx
  unfold fsmSetupMeasure
  split
  · rename_i hall
    refine inv_of_same h hrun (fun ch _ => ?_) ⟨?_, hpoint.cycles hall⟩
    · simp only [Done, hstate, hall, true_or]
    · exact ⟨hpoint.range, hpoint.frequency, hpoint.index, hpoint.offset, hpoint.cycles,
        hpoint.untouched, hpoint.reflection⟩
  · rename_i hcycle
    have hcycle := Nat.lt_of_not_le hcycle
    split
    · rename_i hch0
      obtain ⟨hreq, hidx⟩ := Bool.and_eq_true_iff.mp hch0
      have hidx := of_decide_eq_true hidx
      refine startMeasure_inv h hrun hpoint hcycle (by omega) ?_ (fun ch _ => ?_)
      · unfold channel
        rw [if_pos hidx]
        exact hreq
      · simp only [Done, hstate]
    · rename_i hch0
      split
      · rename_i hch1
        obtain ⟨hreq, hidx⟩ := Bool.and_eq_true_iff.mp hch1
        have hidx := of_decide_eq_true hidx
        have hone : cfg.mask.ch0Measure = true → ctx.channelIndex = 1 := by
          intro hch
          have hzero : ctx.channelIndex ≠ 0 := fun hzero => hch0 (by simp [hch, hzero])
          omega
        have hpoint' : InPoint cfg m { ctx with channelIndex := 1 } :=
          ⟨hpoint.range, hpoint.frequency, hpoint.index, hpoint.offset,
            fun hall => absurd hcycle (Nat.not_lt_of_le hall), hpoint.untouched,
            fun hch hlast _ => hpoint.reflection hch hlast (Nat.le_of_eq (hone hch).symm)⟩
        refine startMeasure_inv h hrun hpoint' hcycle (Nat.le_refl 1) hreq (fun ch hch => ?_)
        simp only [Done, hstate]
        obtain rfl | rfl := channel_cases ch
        · rw [hone hch]
        · have hval : (1 : Fin 2).val = 1 := rfl
          omega
      · rename_i hch1
        refine nextCycle_inv h hrun hpoint hstate hcycle (fun hc => hch0 ?_) (fun hc => hch1 ?_)
        · rw [Bool.and_eq_true, decide_eq_true_eq]
          exact hc
        · rw [Bool.and_eq_true, decide_eq_true_eq]
          exact hc

section Process

omit [Field R] [LinearOrder R] in
theorem channel_val (h : ctx.channelIndex ≤ 1) : (channel ctx).val = ctx.channelIndex := by
  unfold channel
  split
  · rename_i hzero
    exact hzero.symm
  · have hone : (1 : Fin 2).val = 1 := rfl
    omega

omit [Field R] [LinearOrder R] in
theorem last_of_final (hcycle : ctx.currentCycle < ctx.totalCycles)
    (hfinal : finalCycle ctx = true) :
    ctx.currentCycle + 1 = ctx.totalCycles := by
  have heq := of_decide_eq_true hfinal
  omega

def processed (cfg : Config R) (m : Machine R) (ctx : Ctx R) : Data R :=
  processChannel cfg (channel ctx) ctx.frequency m.sweepCalData ctx.offset
    (setHalf (channel ctx) (cfg.response ctx.frequency (channel ctx)) ctx.sweepData)

theorem processed_value (hpoint : InPoint cfg m ctx) (hcapture : Capturing cfg m ctx)
    (hfinal : finalCycle ctx = true) :
    half (channel ctx) (processed cfg m ctx) =
      pointValue cfg m.pSweep (m.entries m.pSweep) (channel ctx) := by
  have hlast := last_of_final hcapture.running hfinal
  have hterms := hcapture.terms hfinal
  have hval := channel_val hcapture.channelIndex
  have hreq := hcapture.requested
  unfold processed processChannel half setHalf pointValue
  rw [hpoint.frequency, hpoint.offset]
  obtain hch | hch := channel_cases (channel ctx)
  · rw [hch] at hreq ⊢
    have hch0 : cfg.mask.ch0Measure = true := hreq
    simp only [if_true]
    rw [pointS11, if_pos hch0, processCh0_terms cfg _ _ hterms]
    exact processCh0_s11 cfg _ _ rfl
  · rw [hch] at hval ⊢
    have hne : (1 : Fin 2) ≠ 0 := by decide
    have hs11 : ctx.sweepData.s11 = pointS11 cfg m.pSweep (m.entries m.pSweep) := by
      cases hch0 : cfg.mask.ch0Measure with
      | true => exact hpoint.reflection hch0 hlast (Nat.le_of_eq hval)
      | false =>
        rw [pointS11, hch0]
        exact hpoint.untouched hch0
    simp only [if_neg hne]
    rw [processCh1_terms cfg _ _ hterms, hs11]

theorem processed_s11 (hch : channel ctx = 1) :
    (processed cfg m ctx).s11 = ctx.sweepData.s11 := by
  unfold processed processChannel setHalf
  have hne : (1 : Fin 2) ≠ 0 := by decide
  rw [hch, if_neg hne, if_neg hne, processCh1_s11]

theorem processed_point (hpoint : InPoint cfg m ctx) (hcapture : Capturing cfg m ctx)
    {data : Data R} {measured : Fin 2 → Nat → Sample R} {writes : Fin 2 → Nat → Nat}
    (hother : channel ctx = 1 → data.s11 = ctx.sweepData.s11)
    (hself : channel ctx = 0 → ctx.currentCycle + 1 = ctx.totalCycles →
      data.s11 = pointS11 cfg m.pSweep (m.entries m.pSweep)) (running : Option (Ctx R)) :
    InPoint cfg { m with measured := measured, writes := writes, running := running }
      { ctx with sweepData := data, channelIndex := ctx.channelIndex + 1, state := .setupMeasure }
    := by
  have hval := channel_val hcapture.channelIndex
  refine ⟨hpoint.range, hpoint.frequency, hpoint.index, hpoint.offset, fun hall => ?_,
    fun hch0 => ?_, fun hch0 hlast _ => ?_⟩
  · exact absurd hcapture.running (Nat.not_lt_of_le hall)
  · obtain hch | hch := channel_cases (channel ctx)
    · have hreq := hcapture.requested
      rw [hch] at hreq
      exact nomatch hch0.symm.trans hreq
    · exact (hother hch).trans (hpoint.untouched hch0)
  · obtain hch | hch := channel_cases (channel ctx)
    · exact hself hch hlast
    · rw [hch] at hval
      exact (hother hch).trans (hpoint.reflection hch0 hlast (Nat.le_of_eq hval))

theorem process_raw_inv (h : Inv cfg m₀ m) (hrun : m.running = some ctx)
    (hstate : ctx.state = .process) (hpoint : InPoint cfg m ctx) (hcapture : Capturing cfg m ctx)
    (hfinal : finalCycle ctx = false) : Inv cfg m₀ (fsmProcess cfg ctx m) := by
  have hmore : ctx.currentCycle + 1 ≠ ctx.totalCycles := by
    have hne := of_decide_eq_false hfinal
    omega
  unfold fsmProcess
  rw [hfinal]
  refine inv_of_same h hrun (fun ch _ => ?_) (processed_point hpoint hcapture ?_ ?_ _)
  · simp only [Done, hstate, hmore, false_and, or_false]
  · intro hch
    rw [hch]
    rfl
  · exact fun _ hlast => absurd hlast hmore

omit [LinearOrder R] in
theorem written_process (hrun : m.running = some ctx) (hstate : ctx.state = .process)
    (hcapture : Capturing cfg m ctx) (hlast : ctx.currentCycle + 1 = ctx.totalCycles)
    (data : Data R) (ch : Fin 2) (i : Nat) :
    Written cfg.mask m.pSweep
        (some { ctx with
          sweepData := data, channelIndex := ctx.channelIndex + 1, state := .setupMeasure }) ch i ↔
      Written cfg.mask m.pSweep m.running ch i ∨ ch = channel ctx ∧ i = m.pSweep := by
  have hval := channel_val hcapture.channelIndex
  have hreq := hcapture.requested
  have hcycle := hcapture.running
  have hnext : ch.val < ctx.channelIndex + 1 ↔ ch.val < ctx.channelIndex ∨ ch = channel ctx := by
    rw [Fin.ext_iff]
    omega
  rw [hrun, written_running, written_running]
  simp only [Done, hstate, hlast, true_and, Nat.not_le_of_lt hcycle, false_or, hnext]
  constructor
  · rintro ⟨hch, hlt | ⟨hi, hlt | hch'⟩⟩
    · exact Or.inl ⟨hch, Or.inl hlt⟩
    · exact Or.inl ⟨hch, Or.inr ⟨hi, hlt⟩⟩
    · exact Or.inr ⟨hch', hi⟩
  · rintro (⟨hch, hlt | ⟨hi, hlt⟩⟩ | ⟨rfl, hi⟩)
    · exact ⟨hch, Or.inl hlt⟩
    · exact ⟨hch, Or.inr ⟨hi, Or.inl hlt⟩⟩
    · exact ⟨hreq, Or.inr ⟨hi, Or.inr rfl⟩⟩

omit [LinearOrder R] in
theorem unwritten_process (hrun : m.running = some ctx) (hstate : ctx.state = .process)
    (hcapture : Capturing cfg m ctx) :
    ¬ Written cfg.mask m.pSweep m.running (channel ctx) m.pSweep := by
  have hval := channel_val hcapture.channelIndex
  have hcycle := hcapture.running
  rw [hrun, written_running]
  simp only [Done, hstate]
  omega

theorem process_final_inv (h : Inv cfg m₀ m) (hrun : m.running = some ctx)
    (hstate : ctx.state = .process) (hpoint : InPoint cfg m ctx) (hcapture : Capturing cfg m ctx)
    (hfinal : finalCycle ctx = true) : Inv cfg m₀ (fsmProcess cfg ctx m) := by
  have hlast := last_of_final hcapture.running hfinal
  have hvalue := processed_value hpoint hcapture hfinal
  have hnew := unwritten_process hrun hstate hcapture
  have hwritten := written_process hrun hstate hcapture hlast (processed cfg m ctx)
  have hproc : fsmProcess cfg ctx m =
      { m with
        measured := Function.update m.measured (channel ctx)
          (Function.update (m.measured (channel ctx)) m.pSweep
            (half (channel ctx) (processed cfg m ctx)))
        writes := Function.update m.writes (channel ctx)
          (Function.update (m.writes (channel ctx)) m.pSweep (m.writes (channel ctx) m.pSweep + 1))
        running := some
          { ctx with
            sweepData := processed cfg m ctx, channelIndex := ctx.channelIndex + 1
            state := .setupMeasure } } := by
    unfold fsmProcess
    exact if_pos hfinal
  rw [hproc]
  refine ⟨h.bound, fun ch i hw => ?_, fun ch i hw => ?_, fun ch i hout => ?_, ?_, ?_, h.completed,
    h.failed⟩
  · dsimp only
    rw [update_cell, update_cell]
    by_cases hcell : ch = channel ctx ∧ i = m.pSweep
    · obtain ⟨rfl, rfl⟩ := hcell
      rw [if_pos ⟨rfl, rfl⟩, if_pos ⟨rfl, rfl⟩, h.fresh _ _ hnew, hvalue]
      exact ⟨rfl, rfl⟩
    · rw [if_neg hcell, if_neg hcell]
      exact h.cells ch i (((hwritten ch i).mp hw).resolve_right hcell)
  · have hcell : ¬ (ch = channel ctx ∧ i = m.pSweep) :=
      fun hcell => hw ((hwritten ch i).mpr (Or.inr hcell))
    dsimp only
    rw [update_cell, if_neg hcell]
    exact h.fresh ch i fun hold => hw ((hwritten ch i).mpr (Or.inl hold))
  · have hcell : ¬ (ch = channel ctx ∧ i = m.pSweep) := by
      rintro ⟨rfl, rfl⟩
      obtain hreq | hrange := hout
      · exact nomatch hreq.symm.trans hcapture.requested
      · exact Nat.not_lt_of_le hrange hpoint.range
    dsimp only
    rw [update_cell, if_neg hcell]
    exact h.outside ch i hout
  · rintro _ ⟨⟩
    refine processed_point hpoint hcapture processed_s11 (fun hch _ => ?_) _
    rw [hch] at hvalue
    exact hvalue
  · exact fun _ => h.calling (by rw [hrun]; rfl)

theorem process_inv (h : Inv cfg m₀ m) (hrun : m.running = some ctx)
    (hstate : ctx.state = .process) : Inv cfg m₀ (fsmProcess cfg ctx m) := by
  obtain ⟨hpoint, hcapture⟩ : InPoint cfg m ctx ∧ Capturing cfg m ctx := by
    have hctx := h.ctx ctx hrun
    rwa [CtxOk, hstate] at hctx
  cases hfinal : finalCycle ctx with
  | true => exact process_final_inv h hrun hstate hpoint hcapture hfinal
  | false => exact process_raw_inv h hrun hstate hpoint hcapture hfinal

end Process

theorem waitCapture_inv (h : Inv cfg m₀ m) (hrun : m.running = some ctx)
    (hstate : ctx.state = .waitCapture) {next : RfState} (hnext : next = .process ∨ next = .fault) :
    Inv cfg m₀ { m with running := some { ctx with state := next } } := by
  have hctx : InPoint cfg m ctx ∧ Capturing cfg m ctx := by
    have hctx := h.ctx ctx hrun
    rwa [CtxOk, hstate] at hctx
  obtain rfl | rfl := hnext
  · refine inv_of_same h hrun (fun ch _ => by simp only [Done, hstate]) ?_
    obtain ⟨hpoint, hcapture⟩ := hctx
    exact ⟨⟨hpoint.range, hpoint.frequency, hpoint.index, hpoint.offset, hpoint.cycles,
      hpoint.untouched, hpoint.reflection⟩,
      ⟨hcapture.running, hcapture.channelIndex, hcapture.requested, hcapture.terms⟩⟩
  · exact inv_of_same h hrun (fun ch _ => by simp only [Done, hstate]) trivial

theorem fsmStep_inv (h : Inv cfg m₀ m) (hrun : m.running = some ctx) (input : Input) :
    Inv cfg m₀ (fsmStep cfg input ctx m) := by
  unfold fsmStep
  cases hstate : ctx.state with
  | idle => exact exitLoop_inv h hrun hstate
  | setupFreq => exact setupFreq_inv h hrun hstate input
  | setupMeasure => exact setupMeasure_inv h hrun hstate
  | waitCapture =>
    dsimp only
    split
    · exact waitCapture_inv h hrun hstate (Or.inl rfl)
    · exact waitCapture_inv h hrun hstate (Or.inr rfl)
  | process => exact process_inv h hrun hstate
  | nextStep => exact nextStep_inv h hrun hstate
  | fault => exact inv_exitFailure h

theorem step_inv {a : Action R} {m' : Machine R} (h : Inv cfg m₀ m)
    (hstep : step cfg m a = some m') : Inv cfg m₀ m' := by
  cases a with
  | call breakOnOperation inputPending stack =>
    simp only [step] at hstep
    split at hstep <;> cases hstep
    exact call_inv h ‹_› breakOnOperation inputPending stack
  | step input =>
    simp only [step] at hstep
    split at hstep <;> cases hstep
    exact fsmStep_inv h ‹_› input

/-- However a sweep is cut into calls, the invariant holds after each step. -/
theorem run_inv (hfresh : Fresh m₀) {actions : List (Action R)}
    (hrun : actions.foldlM (step cfg) m₀ = some m) : Inv cfg m₀ m :=
  foldlM_invariant (fun _ _ _ h => step_inv h) (inv_fresh hfresh) hrun

end NanoVNA.SweepSteps
