import NanoVNA.ChannelIsolation
import NanoVNA.SweepSnapshot

namespace NanoVNA.SnapshotConsistency

open NanoVNA.Word32 NanoVNA.DeviceState NanoVNA.SweepPoint
open NanoVNA.SweepMachine hiding step Action
open NanoVNA.SweepOrigins NanoVNA.SweepSnapshot NanoVNA.GuardedRun NanoVNA.ChannelIsolation
open NanoVNA.SweepUninterrupted

variable {R : Type} [Field R] [LinearOrder R] {cfg : Config R} {post : Processing R}
variable {m₀ : Machine R} {s t : System R} {a : Action R}

def busy : Control R → Bool
  | .entering tick => tick
  | .flagged _ | .cleared _ | .sweeping _ => true
  | _ => false

def alone : Control R → Bool
  | .cleared _ | .sweeping _ => true
  | _ => false

omit [Field R] [LinearOrder R] in
theorem busy_of_alone {control : Control R} (h : alone control = true) : busy control = true := by
  cases control with
  | cleared tick => rfl
  | sweeping tick => rfl
  | _ => cases h

def uncounted : Control R → Bool
  | .renormalizing _ | .ending _ | .counting => true
  | _ => false

def Kept (cfg : Config R) (s : System R) (snapshot : Snapshot R) : Prop :=
  s.machine.measured snapshot.channel = snapshot.contents ∧
    OneSweep cfg s.toTraced snapshot.channel

structure Inv (cfg : Config R) (m₀ : Machine R) (s : System R) : Prop where
  origins : SweepOrigins.Inv cfg m₀ s.toTraced
  generation_lt : s.generation < 2 ^ 32
  copying : s.copyInProgress = s.held.isSome
  busy : busy s.control = true → s.inProgress = true
  alone : alone s.control = true → s.held = none
  current : uncounted s.control = true →
    ∀ snapshot, s.held = some snapshot → snapshot.generation = s.generation
  kept : ∀ snapshot, s.held = some snapshot → snapshot.generation = s.generation →
    Kept cfg s snapshot

theorem inv_started {m : Machine R} (h : SweepInvariant.Fresh m) : Inv cfg m (started m) where
  origins := inv_untraced h
  generation_lt := Nat.two_pow_pos 32
  copying := rfl
  busy := fun hbusy => nomatch hbusy
  alone := fun _ => rfl
  current := fun hu => nomatch hu
  kept := fun _ hheld => nomatch hheld

theorem moved_inv (h : Inv cfg m₀ s) (inProgress : Bool) {control : Control R}
    (hbusy : SnapshotConsistency.busy control = true → inProgress = true)
    (halone : SnapshotConsistency.alone control = true → s.held = none)
    (hcurrent : uncounted control = true →
      ∀ snapshot, s.held = some snapshot → snapshot.generation = s.generation) :
    Inv cfg m₀ { s with inProgress := inProgress, control := control } :=
  ⟨h.origins, h.generation_lt, h.copying, hbusy, halone, hcurrent, h.kept⟩

theorem passed_inv (h : Inv cfg m₀ s) {control : Control R}
    (hbusy : SnapshotConsistency.busy control = false)
    (halone : SnapshotConsistency.alone control = false) (hcurrent : uncounted control = false) :
    Inv cfg m₀ { s with control := control } :=
  moved_inv h s.inProgress (fun hb => nomatch hbusy.symm.trans hb)
    (fun ha => nomatch halone.symm.trans ha) (fun hu => nomatch hcurrent.symm.trans hu)

/-- A store to an array leaves the snapshots of the other channel, and those that are stale. -/
theorem storeMeasured_inv (h : Inv cfg m₀ s) {ch : Fin 2} (i : Nat) (x : Sample R)
    (hstored : storing cfg s = some ch)
    (hguard : ∀ snapshot ∈ s.held, storing cfg s = some snapshot.channel →
      snapshot.generation ≠ s.generation) : Inv cfg m₀ (storeMeasured ch i x s) := by
  refine ⟨inv_process h.origins _, h.generation_lt, h.copying, h.busy, h.alone, h.current, ?_⟩
  intro snapshot hheld hgeneration
  obtain ⟨hcontents, hsweep⟩ := h.kept snapshot hheld hgeneration
  refine ⟨?_, hsweep⟩
  have hother : snapshot.channel ≠ ch := by
    rintro rfl
    exact hguard snapshot hheld hstored hgeneration
  exact (Function.update_of_ne hother _ _).trans hcontents

theorem leave_inv (h : Inv cfg m₀ s) {tick : Bool} (hcontrol : s.control = .sweeping tick) :
    Inv cfg m₀ (leave cfg post tick s) := by
  have hnone := h.alone (hcontrol ▸ rfl)
  refine moved_inv h false (fun hb => ?_) (fun _ => hnone) (fun _ snapshot hheld => ?_)
  · split at hb
    · cases hb
    · split at hb <;> cases hb
  · exact nomatch hnone.symm.trans hheld

theorem renormalizing_inv (h : Inv cfg m₀ s) {i : Nat} (hcontrol : s.control = .renormalizing i)
    (hguard : ∀ snapshot ∈ s.held, storing cfg s = some snapshot.channel →
      snapshot.generation ≠ s.generation) (x : Sample R) :
    (i < points cfg →
      Inv cfg m₀ { storeMeasured 0 i x s with control := .renormalizing (i + 1) }) ∧
      Inv cfg m₀ { s with control := .ending true } := by
  have hcurrent := h.current (hcontrol ▸ rfl)
  refine ⟨fun hi => ?_, ?_⟩
  · have hstored : storing cfg s = some 0 := by simp only [storing, hcontrol, if_pos hi]
    exact moved_inv (storeMeasured_inv h i x hstored hguard) s.inProgress (fun hb => nomatch hb)
      (fun ha => nomatch ha) (fun _ => hcurrent)
  · exact moved_inv h s.inProgress (fun hb => nomatch hb) (fun ha => nomatch ha)
      (fun _ => hcurrent)

theorem copying_inv (h : Inv cfg m₀ s) {ch : Fin 2} {tmp : Nat → Sample R} {i : Nat}
    (hcontrol : s.control = .copying ch tmp i)
    (hguard : ∀ snapshot ∈ s.held, storing cfg s = some snapshot.channel →
      snapshot.generation ≠ s.generation) (hi : i < sweepPointsMax cfg.board) :
    Inv cfg m₀ { storeMeasured ch i (tmp i) s with control := .copying ch tmp (i + 1) } := by
  have hstored : storing cfg s = some ch := by simp only [storing, hcontrol, if_pos hi]
  exact passed_inv (storeMeasured_inv h i (tmp i) hstored hguard) rfl rfl rfl

theorem ending_inv (h : Inv cfg m₀ s) {completed : Bool}
    (hcontrol : s.control = .ending completed) :
    Inv cfg m₀ { s with
      inProgress := false
      control := if completed then .counting else .handling false } := by
  have hcurrent := h.current (hcontrol ▸ rfl)
  cases completed with
  | false =>
    exact moved_inv h false (fun hb => nomatch hb) (fun ha => nomatch ha) (fun hu => nomatch hu)
  | true =>
    exact moved_inv h false (fun hb => nomatch hb) (fun ha => nomatch ha) (fun _ => hcurrent)

theorem counted_ne {g : Nat} (_ : g < 2 ^ 32) : g ≠ u32 (g + 1) := by
  unfold u32
  omega

/-- A snapshot acquired before its sweep is counted is stale from then on. -/
theorem counting_inv (h : Inv cfg m₀ s) (hcontrol : s.control = .counting) :
    Inv cfg m₀ { s with generation := u32 (s.generation + 1), control := .handling true } := by
  refine ⟨h.origins, u32_lt _, h.copying, fun hbusy => (nomatch hbusy),
    fun halone => (nomatch halone), fun hu => (nomatch hu), fun snapshot hheld hgeneration => ?_⟩
  have hcurrent := h.current (hcontrol ▸ rfl) snapshot hheld
  exact absurd (hcurrent.symm.trans hgeneration) (counted_ne h.generation_lt)

theorem proceed_inv (h : Inv cfg m₀ s) {timeDomain : Bool}
    (hguard : Guarded cfg s (.proceed timeDomain))
    (hstep : proceed cfg post timeDomain s = some t) : Inv cfg m₀ t := by
  unfold proceed at hstep
  cases hcontrol : s.control with
  | idle => simp [hcontrol] at hstep
  | cleared tick => simp [hcontrol] at hstep
  | awaiting =>
    simp only [hcontrol] at hstep
    split at hstep <;> cases hstep
    · exact h
    · exact passed_inv h rfl rfl rfl
  | beginning =>
    simp only [hcontrol] at hstep
    cases hstep
    exact moved_inv h true (fun _ => rfl) (fun ha => nomatch ha) (fun hu => nomatch hu)
  | entering tick =>
    simp only [hcontrol] at hstep
    cases hstep
    exact moved_inv h true (fun _ => rfl) (fun ha => nomatch ha) (fun hu => nomatch hu)
  | flagged tick =>
    simp only [hcontrol] at hstep
    have hbusy : s.inProgress = true := h.busy (hcontrol ▸ rfl)
    split at hstep <;> cases hstep
    · exact h
    · rename_i hfree
      refine moved_inv h s.inProgress (fun _ => hbusy) (fun _ => ?_) (fun hu => nomatch hu)
      rwa [h.copying, Option.isSome_iff_ne_none, not_not] at hfree
  | sweeping tick =>
    simp only [hcontrol] at hstep
    split at hstep <;> cases hstep
    exact leave_inv h hcontrol
  | renormalizing i =>
    simp only [hcontrol] at hstep
    obtain ⟨hstore, hend⟩ := renormalizing_inv h hcontrol hguard
      (renormalize post (s.machine.measured 0 i))
    split at hstep <;> cases hstep
    · exact hstore ‹_›
    · exact hend
  | ending completed =>
    simp only [hcontrol] at hstep
    cases hstep
    exact ending_inv h hcontrol
  | counting =>
    simp only [hcontrol] at hstep
    cases hstep
    exact counting_inv h hcontrol
  | handling completed =>
    simp only [hcontrol] at hstep
    cases hstep
    cases completed && timeDomain with
    | false => exact passed_inv h rfl rfl rfl
    | true => exact passed_inv h rfl rfl rfl
  | transforming ch =>
    simp only [hcontrol] at hstep
    split at hstep
    · split at hstep <;> cases hstep
      · exact passed_inv h rfl rfl rfl
      · exact passed_inv h rfl rfl rfl
    · cases hstep
      exact passed_inv h rfl rfl rfl
  | copying ch tmp i =>
    simp only [hcontrol] at hstep
    split at hstep <;> cases hstep
    · exact copying_inv h hcontrol hguard ‹_›
    · exact passed_inv h rfl rfl rfl

theorem call_inv (h : Inv cfg m₀ s) {inputPending : Bool} {stack : Ctx R}
    (hstep : call cfg inputPending stack s = some t) : Inv cfg m₀ t := by
  unfold call at hstep
  split at hstep
  next tick hcontrol =>
    obtain ⟨traced, htraced, rfl⟩ := Option.map_eq_some_iff.mp hstep
    have hbusy := h.busy (hcontrol ▸ rfl)
    have hnone := h.alone (hcontrol ▸ rfl)
    exact ⟨tracedStep_inv h.origins htraced, h.generation_lt, h.copying, fun _ => hbusy,
      fun _ => hnone, fun hu => (nomatch hu), fun _ hheld => (nomatch hnone.symm.trans hheld)⟩
  next => cases hstep

theorem sweep_inv (h : Inv cfg m₀ s) {input : Input} (hstep : sweep cfg input s = some t) :
    Inv cfg m₀ t := by
  unfold sweep at hstep
  split at hstep
  next tick hcontrol =>
    obtain ⟨traced, htraced, rfl⟩ := Option.map_eq_some_iff.mp hstep
    have hnone := h.alone (hcontrol ▸ rfl)
    exact ⟨tracedStep_inv h.origins htraced, h.generation_lt, h.copying, h.busy, h.alone, h.current,
      fun _ hheld => (nomatch hnone.symm.trans hheld)⟩
  next => cases hstep

theorem acquire_inv (h : Inv cfg m₀ s) {channel : Fin 2}
    (hguard : Guarded cfg s (.acquire channel)) :
    Inv cfg m₀ (sweepServiceSnapshotAcquire cfg channel s) := by
  unfold sweepServiceSnapshotAcquire
  split
  next => exact h
  next hfree =>
    rw [Bool.or_eq_true, not_or, Bool.not_eq_true, Bool.not_eq_true] at hfree
    obtain ⟨hidle, hcopy⟩ := hfree
    obtain ⟨hintact, hrequested⟩ := hguard hidle hcopy
    refine ⟨h.origins, h.generation_lt, rfl, h.busy, fun halone => ?_, fun _ snapshot hheld => ?_,
      fun snapshot hheld _ => ?_⟩
    · -- a sweep past its wait has the flag set
      exact nomatch hidle.symm.trans (h.busy (busy_of_alone halone))
    · cases hheld
      rfl
    · cases hheld
      exact ⟨rfl, h.origins.intact hintact channel hrequested⟩

theorem release_inv (h : Inv cfg m₀ s) (snapshot : Snapshot R) :
    Inv cfg m₀ (sweepServiceSnapshotRelease snapshot s).2 :=
  ⟨h.origins, h.generation_lt, rfl, h.busy, fun _ => rfl, fun _ _ hheld => (nomatch hheld),
    fun _ hheld => (nomatch hheld)⟩

theorem step_inv (h : Inv cfg m₀ s) (hguard : Guarded cfg s a)
    (hstep : step cfg post s a = some t) : Inv cfg m₀ t := by
  cases a with
  | tick =>
    simp only [step] at hstep
    split at hstep <;> cases hstep
    exact passed_inv h rfl rfl rfl
  | direct =>
    simp only [step] at hstep
    split at hstep <;> cases hstep
    exact passed_inv h rfl rfl rfl
  | call inputPending stack => exact call_inv h hstep
  | sweep input => exact sweep_inv h hstep
  | proceed timeDomain => exact proceed_inv h hguard hstep
  | acquire channel =>
    cases hstep
    exact acquire_inv h hguard
  | release =>
    obtain ⟨snapshot, -, rfl⟩ := Option.map_eq_some_iff.mp hstep
    exact release_inv h snapshot

/-- However the sweep thread and a reader are interleaved: as long as snapshots are acquired of
completed sweeps only and no array is processed under a current snapshot of it, a snapshot whose
release returns true is the result of one completed sweep, and nobody has touched it. -/
theorem snapshot_consistent (hfresh : SweepInvariant.Fresh m₀)
    {actions : List (Action R)}
    (hguard : Along (step cfg post) (Guarded cfg) (started m₀) actions)
    (hrun : actions.foldlM (step cfg post) (started m₀) = some s) : Consistent cfg s := by
  have hinv := foldlM_invariant_of_along (fun _ _ _ => step_inv) (inv_started hfresh) hguard hrun
  exact fun snapshot hheld hstable => hinv.kept snapshot hheld (of_decide_eq_true hstable)

instance (s : System R) (a : Action R) : Decidable (Guarded cfg s a) := by
  cases a <;> simp only [Guarded] <;> infer_instance

def twoPoints : Config ℚ :=
  { calibratedSweep false true 0 with
    mask := { SweepMask.zero with ch0Measure := true }
    props := { (calibratedSweep false true 0).props with sweepPoints := 2 } }

def negated : Processing ℚ := ⟨false, 50, fun x i => ⟨-(x i).re, (x i).im⟩⟩

def begins : List (Action ℚ) :=
  [.tick, .proceed false, .proceed false, .proceed false, .proceed false,
    .call false (stackWith ⟨0, 0⟩)]

/-- A tick whose sweep is cut after its first point, and a snapshot after it. -/
def cut : List (Action ℚ) :=
  begins ++ List.replicate 7 (.sweep quiet) ++
    [.sweep { quiet with timesliceExpired := true }, .sweep quiet, .proceed false, .proceed false,
      .proceed false, .acquire 0]

def whole : List (Action ℚ) :=
  begins ++ List.replicate 16 (.sweep quiet) ++
    [.proceed false, .proceed false, .proceed false, .acquire 0]

def transformed : List (Action ℚ) := whole ++ [.proceed true, .proceed true, .proceed true]

/-- The first point of channel 0 in a current snapshot of it and now, and the writers of both
points. -/
structure View where
  contents : Sample ℚ
  measured : Sample ℚ
  writer0 : Nat
  writer1 : Nat
  deriving DecidableEq

def view (s : System ℚ) : Option View :=
  match s.held with
  | some ⟨0, generation, _, contents⟩ =>
    if generation = s.generation then
      some ⟨contents 0, s.machine.measured 0 0, s.writer 0 0, s.writer 0 1⟩
    else none
  | _ => none

theorem run_view {actions : List (Action ℚ)} {v : View}
    (h : (actions.foldlM (step twoPoints negated) (started cleared)).bind view = some v) :
    ∃ s snapshot, actions.foldlM (step twoPoints negated) (started cleared) = some s ∧
      s.held = some snapshot ∧ snapshot.channel = 0 ∧
      (sweepServiceSnapshotRelease snapshot s).1 = true ∧
      v = ⟨snapshot.contents 0, s.machine.measured 0 0, s.writer 0 0, s.writer 0 1⟩ := by
  obtain ⟨s, hs, hview⟩ := Option.bind_eq_some_iff.mp h
  unfold view at hview
  split at hview
  next generation points contents hheld =>
    split at hview <;> cases hview
    exact ⟨s, _, hs, hheld, rfl, decide_eq_true ‹_›, rfl⟩
  next => cases hview

theorem snapshot_consistent_whole :
    ∃ s snapshot, whole.foldlM (step twoPoints negated) (started cleared) = some s ∧
      s.held = some snapshot ∧ (sweepServiceSnapshotRelease snapshot s).1 = true ∧
      Consistent twoPoints s := by
  have hguard : Along (step twoPoints negated) (Guarded twoPoints) (started cleared) whole := by
    decide +kernel
  have hrun : (whole.foldlM (step twoPoints negated) (started cleared)).bind view =
      some ⟨⟨1 / 2, 0⟩, ⟨1 / 2, 0⟩, 1, 1⟩ := by decide +kernel
  obtain ⟨s, snapshot, hs, hheld, -, hstable, -⟩ := run_view hrun
  exact ⟨s, snapshot, hs, hheld, hstable, snapshot_consistent cleared_fresh hguard hs⟩

/-- Two snapshots whose release returns true: one of a sweep with a point left, and one that is
transformed under the reader. -/
theorem snapshot_fails :
    (∃ s, cut.foldlM (step twoPoints negated) (started cleared) = some s ∧
      ¬ Consistent twoPoints s) ∧
    ∃ s, transformed.foldlM (step twoPoints negated) (started cleared) = some s ∧
      ¬ Consistent twoPoints s := by
  constructor
  · have hrun : (cut.foldlM (step twoPoints negated) (started cleared)).bind view =
        some ⟨⟨1 / 2, 0⟩, ⟨1 / 2, 0⟩, 1, 0⟩ := by decide +kernel
    obtain ⟨s, snapshot, hs, hheld, hchannel, hstable, hview⟩ := run_view hrun
    refine ⟨s, hs, fun hconsistent => ?_⟩
    obtain ⟨-, k, -, hwriter⟩ := hconsistent snapshot hheld hstable
    rw [hchannel] at hwriter
    rw [hwriter 0 (by decide), hwriter 1 (by decide)] at hview
    injection hview with _ _ hfirst hsecond
    exact nomatch hfirst.trans hsecond.symm
  · have hrun : (transformed.foldlM (step twoPoints negated) (started cleared)).bind view =
        some ⟨⟨1 / 2, 0⟩, ⟨-1 / 2, 0⟩, 1, 1⟩ := by decide +kernel
    obtain ⟨s, snapshot, hs, hheld, hchannel, hstable, hview⟩ := run_view hrun
    refine ⟨s, hs, fun hconsistent => ?_⟩
    have hsame := congrFun (hconsistent snapshot hheld hstable).1 0
    rw [hchannel] at hsame
    injection hview with hcontents hmeasured
    exact absurd (hmeasured.trans (hsame.trans hcontents.symm)) (by decide +kernel)

end NanoVNA.SnapshotConsistency
