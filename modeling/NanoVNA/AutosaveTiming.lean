import NanoVNA.Autosave

namespace NanoVNA.AutosaveTiming

open NanoVNA.DeviceState NanoVNA.ConfigService NanoVNA.GuardedRun NanoVNA.Autosave

section Ticks

theorem toInt_sub_ofNat {earlier now : Nat} (h : earlier ≤ now) :
    (BitVec.ofNat 32 now - BitVec.ofNat 32 earlier).toInt =
      if (now - earlier) % 2 ^ 32 < 2 ^ 31 then (((now - earlier) % 2 ^ 32 : Nat) : Int)
      else (((now - earlier) % 2 ^ 32 : Nat) : Int) - 2 ^ 32 := by
  have hsub : (BitVec.ofNat 32 now - BitVec.ofNat 32 earlier).toNat = (now - earlier) % 2 ^ 32 := by
    rw [BitVec.toNat_sub, BitVec.toNat_ofNat, BitVec.toNat_ofNat]
    omega
  rw [BitVec.toInt_eq_toNat_cond, hsub]
  split <;> split <;> omega

theorem toInt_sub_ofNat_nonneg_iff {earlier now : Nat} (h : earlier ≤ now) :
    0 ≤ (BitVec.ofNat 32 now - BitVec.ofNat 32 earlier).toInt ↔
      (now - earlier) % 2 ^ 32 < 2 ^ 31 := by
  rw [toInt_sub_ofNat h]
  split <;> omega

theorem le_toInt_sub_ofNat_iff {earlier now gap : Nat} (h : earlier ≤ now) (hgap : gap < 2 ^ 31) :
    (gap : Int) ≤ (BitVec.ofNat 32 now - BitVec.ofNat 32 earlier).toInt ↔
      gap ≤ (now - earlier) % 2 ^ 32 ∧ (now - earlier) % 2 ^ 32 < 2 ^ 31 := by
  rw [toInt_sub_ofNat h]
  split <;> omega

end Ticks

/-- The state manager with a count of ticks that does not wrap, and on that count the deadline, the
moment `sweep_state_last_save` was taken and the end of the last save. -/
structure Clocked where
  managed : Managed
  time : Nat
  deadline : Nat
  stamp : Nat
  lastSave : Nat

/-- `chVTGetSystemTimeX` -/
def systemTime (time : Nat) : Word := BitVec.ofNat 32 time

/-- Ticks that pass between the calls, and the calls; a save takes a number of ticks. -/
inductive ClockedCall
  | pass (ticks : Nat)
  | markDirty
  | service (duration : Nat) (granted : Bool) (program : Image → Image)
  | forceSave (duration : Nat) (granted : Bool) (program : Image → Image)
  | edit (props : Image)
  | calibrating (on : Bool)
  | backup (on : Bool)
  | caldataSave (id : Nat) (granted : Bool) (program : Image → Image)
  | caldataRecall (id : Nat) (granted : Bool)

def untimed (board : Board) (s : Clocked) (call : ManagedCall) : Option Clocked :=
  (managedCall board s.managed call).map fun t => { s with managed := t }

/-- After a forced save that took `duration`; during a calibration it stamps and writes nothing. -/
def forced (s : Clocked) (duration : Nat) (t : Managed) : Clocked where
  managed := t
  time := s.time + duration
  deadline := s.deadline
  stamp := s.time + duration
  lastSave := if s.managed.storage.calibrating then s.lastSave else s.time + duration

def clockedCall (board : Board) (s : Clocked) : ClockedCall → Option Clocked
  | .pass ticks => some { s with time := s.time + ticks }
  | .markDirty =>
    some { s with
      managed := stateManagerMarkDirty (systemTime s.time) s.managed
      deadline := s.time + sweepStateAutosaveDelay.toNat }
  | .service duration granted program =>
    let t := stateManagerService board granted program (systemTime s.time)
      (systemTime (s.time + duration)) s.managed
    some (if s.managed.sweepStateDirty = t.sweepStateDirty then { s with managed := t }
      else forced s duration t)
  | .forceSave duration granted program =>
    some (forced s duration
      (stateManagerForceSave board granted program (systemTime (s.time + duration)) s.managed))
  | .edit props => untimed board s (.edit props)
  | .calibrating on => untimed board s (.calibrating on)
  | .backup on => untimed board s (.backup on)
  | .caldataSave id granted program => untimed board s (.caldataSave id granted program)
  | .caldataRecall id granted => untimed board s (.caldataRecall id granted)

/-- At power on the counter and the variables of the state manager are zero. -/
def powerOn (storage : Storage) (backup : Bool) : Clocked where
  managed :=
    { storage, backup, sweepStateDirty := false, sweepStateDeadline := 0, sweepStateLastSave := 0 }
  time := 0
  deadline := 0
  stamp := 0
  lastSave := 0

def minGap : Nat := sweepStateAutosaveMinGap.toNat

/-- An edit waits, no calibration runs, the deadline has passed and the gap is over. -/
def SaveDue (s : Clocked) : Prop :=
  s.managed.sweepStateDirty = true ∧ s.managed.storage.calibrating = false ∧
    s.deadline ≤ s.time ∧ s.lastSave + minGap ≤ s.time

def SavesInTime (board : Board) (s : Clocked) : ClockedCall → Prop
  | .service duration granted program =>
    let t := stateManagerService board granted program (systemTime s.time)
      (systemTime (s.time + duration)) s.managed
    (SaveDue s → t.sweepStateDirty = false ∧ t.storage =
      (caldataSave board granted program s.managed.storage
        (activeCalibrationSlot board s.managed.storage)).2) ∧
    (s.time < s.lastSave + minGap → t = s.managed)
  | _ => True

/-- The mode is on when a save is due, and on a counter of 32 bits less than half a turn has passed
since the deadline, and at least the gap and less than half a turn since the last stamp. -/
def WithinHalfTurn (s : Clocked) : ClockedCall → Prop
  | .service _ _ _ => SaveDue s → s.managed.backup = true ∧
      (s.time - s.deadline) % 2 ^ 32 < 2 ^ 31 ∧
      minGap ≤ (s.time - s.stamp) % 2 ^ 32 ∧ (s.time - s.stamp) % 2 ^ 32 < 2 ^ 31
  | _ => True

structure InStep (s : Clocked) : Prop where
  deadline : s.managed.sweepStateDeadline = systemTime s.deadline
  stamp : s.managed.sweepStateLastSave = systemTime s.stamp
  saved : s.lastSave ≤ s.stamp
  past : s.stamp ≤ s.time

section Run

variable {board : Board} {s t : Clocked}

theorem inStep_powerOn (storage : Storage) (backup : Bool) : InStep (powerOn storage backup) :=
  ⟨rfl, rfl, Nat.le_refl _, Nat.le_refl _⟩

theorem inStep_forced (h : InStep s) (duration : Nat) {u : Managed}
    (hdeadline : u.sweepStateDeadline = s.managed.sweepStateDeadline)
    (hstamp : u.sweepStateLastSave = systemTime (s.time + duration)) :
    InStep (forced s duration u) := by
  refine ⟨hdeadline.trans h.deadline, hstamp, ?_, Nat.le_refl _⟩
  have hpast := Nat.le_trans h.saved h.past
  simp only [forced]
  split <;> omega

theorem inStep_untimed (h : InStep s) {call : ManagedCall}
    (hcall : ∀ u, managedCall board s.managed call = some u →
      u.sweepStateDeadline = s.managed.sweepStateDeadline ∧
        u.sweepStateLastSave = s.managed.sweepStateLastSave)
    (ht : untimed board s call = some t) : InStep t := by
  obtain ⟨u, hu, rfl⟩ := Option.map_eq_some_iff.mp ht
  obtain ⟨hdeadline, hstamp⟩ := hcall u hu
  exact ⟨hdeadline.trans h.deadline, hstamp.trans h.stamp, h.saved, h.past⟩

theorem inStep_clockedCall {call : ClockedCall} (h : InStep s)
    (ht : clockedCall board s call = some t) : InStep t := by
  cases call with
  | pass ticks =>
    obtain rfl := Option.some.inj ht
    exact ⟨h.deadline, h.stamp, h.saved, Nat.le_add_right_of_le h.past⟩
  | markDirty =>
    obtain rfl := Option.some.inj ht
    refine ⟨?_, h.stamp, h.saved, h.past⟩
    simp [stateManagerMarkDirty, systemTime, BitVec.ofNat_add]
  | service duration granted program =>
    simp only [clockedCall, Option.some.injEq] at ht
    obtain ⟨-, hdirty, -, heq⟩ | ⟨-, heq⟩ := stateManagerService_cases board granted program
      (systemTime s.time) (systemTime (s.time + duration)) s.managed
    · rw [heq, if_neg (by simp [hdirty, stateManagerForceSave])] at ht
      exact ht ▸ inStep_forced h duration rfl rfl
    · rw [heq, if_pos rfl] at ht
      exact ht ▸ h
  | forceSave duration granted program =>
    obtain rfl := Option.some.inj ht
    exact inStep_forced h duration rfl rfl
  | edit | calibrating | backup | caldataSave | caldataRecall =>
    refine inStep_untimed h (fun u hu => ?_) ht
    obtain rfl := Option.some.inj hu
    exact ⟨rfl, rfl⟩

theorem elapsed_iff (h : InStep s) (hdeadline : s.deadline ≤ s.time) :
    Elapsed (systemTime s.time) s.managed ↔
      (s.time - s.deadline) % 2 ^ 32 < 2 ^ 31 ∧
        minGap ≤ (s.time - s.stamp) % 2 ^ 32 ∧ (s.time - s.stamp) % 2 ^ 32 < 2 ^ 31 := by
  have hgap : sweepStateAutosaveMinGap.toInt = (minGap : Int) := by decide
  rw [Elapsed, h.deadline, h.stamp, hgap, systemTime, systemTime, systemTime,
    toInt_sub_ofNat_nonneg_iff hdeadline, le_toInt_sub_ofNat_iff h.past (by decide)]

theorem not_elapsed_of_lt (h : InStep s) (hgap : s.time < s.lastSave + minGap) :
    ¬ Elapsed (systemTime s.time) s.managed := by
  rintro ⟨-, hle⟩
  have hgap' : sweepStateAutosaveMinGap.toInt = (minGap : Int) := by decide
  rw [h.stamp, hgap', systemTime, systemTime, le_toInt_sub_ofNat_iff h.past (by decide)] at hle
  have hmod := Nat.mod_le (s.time - s.stamp) (2 ^ 32)
  have hsaved := h.saved
  have hpast := h.past
  omega

theorem savesInTime_iff (board : Board) (h : InStep s) (call : ClockedCall) :
    SavesInTime board s call ↔ WithinHalfTurn s call := by
  cases call with
  | service duration granted program =>
    simp only [SavesInTime, WithinHalfTurn]
    obtain ⟨hbackup, hdirty, helapsed, heq⟩ | ⟨hnot, heq⟩ := stateManagerService_cases board granted
      program (systemTime s.time) (systemTime (s.time + duration)) s.managed
    · rw [heq]
      refine iff_of_true ⟨?_, fun hgap => absurd helapsed (not_elapsed_of_lt h hgap)⟩ ?_
      · rintro ⟨-, hcal, -⟩
        exact ⟨rfl, by simp [stateManagerForceSave, forcedSave, hcal]⟩
      · rintro ⟨-, -, hdeadline, -⟩
        exact ⟨hbackup, (elapsed_iff h hdeadline).mp helapsed⟩
    · rw [heq]
      constructor
      · rintro ⟨hsaves, -⟩ hdue
        exact absurd ((hsaves hdue).1.symm.trans hdue.1) Bool.false_ne_true
      · intro hturn
        refine ⟨fun hdue => ?_, fun _ => rfl⟩
        obtain ⟨hbackup, hhalf⟩ := hturn hdue
        exact absurd ⟨hbackup, hdue.1, (elapsed_iff h hdue.2.2.1).mpr hhalf⟩ hnot
  | pass | markDirty | forceSave | edit | calibrating | backup | caldataSave | caldataRecall =>
    exact Iff.rfl

end Run

/-- In a run from power on every service saves when a save is due, and never within the gap,
exactly when no save is due while the mode is off or a count has gone half a turn. -/
theorem savesInTime_along_iff (board : Board) (storage : Storage) (backup : Bool)
    (calls : List ClockedCall) :
    Along (clockedCall board) (SavesInTime board) (powerOn storage backup) calls ↔
      Along (clockedCall board) WithinHalfTurn (powerOn storage backup) calls :=
  along_congr_of_invariant (fun _ call h => savesInTime_iff board h call)
    (fun _ _ _ h ht => inStep_clockedCall h ht) (inStep_powerOn storage backup)

/-- After six hours without an edit the edit's save is overdue and not made. -/
theorem save_overdue : ¬ Along (clockedCall .f303) (SavesInTime .f303)
    (powerOn managedStart.storage true)
    [.pass (2 ^ 31), .edit ⟨0, [6], 0⟩, .markDirty, .pass 75000, .service 0 true id] := by
  rintro ⟨-, h⟩
  obtain ⟨-, h⟩ := h _ rfl
  obtain ⟨-, h⟩ := h _ rfl
  obtain ⟨-, h⟩ := h _ rfl
  obtain ⟨⟨h, -⟩, -⟩ := h _ rfl
  have hdue := h ⟨rfl, rfl, by decide +kernel, by decide +kernel⟩
  exact absurd hdue.1 (by decide +kernel)

end NanoVNA.AutosaveTiming
