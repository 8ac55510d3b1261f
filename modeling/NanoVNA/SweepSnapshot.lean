import NanoVNA.SweepOrigins
import NanoVNA.Word32

namespace NanoVNA.SweepSnapshot

open NanoVNA.Word32 NanoVNA.DeviceState NanoVNA.SweepPoint NanoVNA.SweepMachine
open NanoVNA.SweepOrigins

variable {R : Type}

/-- What is done to the arrays after a sweep: the build option and the setting of the
renormalization, and the windowed inverse transform of a channel. -/
structure Processing (R : Type) where
  zRenormalization : Bool
  portz : R
  transform : (Nat → Sample R) → Nat → Sample R

/-- Where the sweep thread stands in `measurement_engine_tick`, or in a call of
`app_measurement_sweep` from its service loop. -/
inductive Control (R : Type)
  | idle
  | awaiting
  | beginning
  | entering (tick : Bool)
  | flagged (tick : Bool)
  | cleared (tick : Bool)
  | sweeping (tick : Bool)
  | renormalizing (i : Nat)
  | ending (completed : Bool)
  | counting
  | handling (completed : Bool)
  | transforming (ch : Nat)
  | copying (ch : Fin 2) (tmp : Nat → Sample R) (i : Nat)

/-- `sweep_service_snapshot_t`; `contents` is what the array held when it was acquired. -/
structure Snapshot (R : Type) where
  channel : Fin 2
  generation : Nat
  points : Nat
  contents : Nat → Sample R

/-- The sweep thread, the flags it shares with a reader, and the snapshot of the reader. -/
structure System (R : Type) extends Traced R where
  inProgress : Bool
  copyInProgress : Bool
  generation : Nat
  control : Control R
  held : Option (Snapshot R)

inductive Action (R : Type)
  | tick
  | direct
  | call (inputPending : Bool) (stack : Ctx R)
  | sweep (input : Input)
  | proceed (timeDomain : Bool)
  | acquire (channel : Fin 2)
  | release

/-- `sweep_service_init` -/
def started (m : Machine R) : System R :=
  { untraced m with
    inProgress := false
    copyInProgress := false
    generation := 0
    control := .idle
    held := none }

def storeMeasured (ch : Fin 2) (i : Nat) (x : Sample R) (s : System R) : System R :=
  { s with
    machine :=
      { s.machine with
        measured := Function.update s.machine.measured ch
          (Function.update (s.machine.measured ch) i x) } }

section Thread

variable [Field R] [LinearOrder R] (cfg : Config R) (post : Processing R)

/-- `measured[0][i]` for another impedance of the port -/
def renormalize (x : Sample R) : Sample R :=
  let k := (post.portz - 50) / (post.portz + 50)
  let a := x.re - k
  let b := x.im
  let c := 1 - x.re * k
  let d := -x.im * k
  let den := c * c + d * d
  if 1 / 10 ^ 9 < den then ⟨(a * c + b * d) / den, (b * c - a * d) / den⟩ else x

/-- The condition on a completed sweep under which the pipeline writes to `measured[0]`. -/
def renormalizes : Bool :=
  post.zRenormalization && decide (post.portz ≠ 50) && decide (1 < post.portz) &&
    cfg.mask.ch0Measure

/-- What `app_measurement_sweep` returns. -/
def completed (s : System R) : Bool := s.machine.outcome = some .completed

/-- `app_measurement_sweep` clears the flag and returns to the tick or to the service loop. -/
def leave (tick : Bool) (s : System R) : System R :=
  { s with
    inProgress := false
    control :=
      if !tick then .idle
      else if completed s && renormalizes cfg post then .renormalizing 0
      else .ending (completed s) }

def proceed (timeDomain : Bool) (s : System R) : Option (System R) :=
  match s.control with
  | .idle | .cleared _ => none
  | .awaiting => if s.copyInProgress then some s else some { s with control := .beginning }
  | .beginning => some { s with inProgress := true, control := .entering true }
  | .entering tick => some { s with inProgress := true, control := .flagged tick }
  | .flagged tick => if s.copyInProgress then some s else some { s with control := .cleared tick }
  | .sweeping tick => if s.machine.running.isSome then none else some (leave cfg post tick s)
  | .renormalizing i =>
    if i < points cfg then
      some { storeMeasured 0 i (renormalize post (s.machine.measured 0 i)) s with
        control := .renormalizing (i + 1) }
    else some { s with control := .ending true }
  | .ending completed =>
    some { s with
      inProgress := false
      control := if completed then .counting else .handling false }
  | .counting => some { s with generation := u32 (s.generation + 1), control := .handling true }
  | .handling completed =>
    some { s with control := if completed && timeDomain then .transforming 0 else .idle }
  | .transforming ch =>
    if h : ch < 2 then
      if cfg.mask.requests ⟨ch, h⟩ then
        some { s with control := .copying ⟨ch, h⟩ (post.transform (s.machine.measured ⟨ch, h⟩)) 0 }
      else some { s with control := .transforming (ch + 1) }
    else some { s with control := .idle }
  | .copying ch tmp i =>
    if i < sweepPointsMax cfg.board then
      some { storeMeasured ch i (tmp i) s with control := .copying ch tmp (i + 1) }
    else some { s with control := .transforming (ch.val + 1) }

def call (inputPending : Bool) (stack : Ctx R) (s : System R) : Option (System R) :=
  match s.control with
  | .cleared tick =>
    (tracedStep cfg s.toTraced (.call tick inputPending stack)).map fun t =>
      { s with toTraced := t, control := .sweeping tick }
  | _ => none

def sweep (input : Input) (s : System R) : Option (System R) :=
  match s.control with
  | .sweeping _ => (tracedStep cfg s.toTraced (.step input)).map fun t => { s with toTraced := t }
  | _ => none

/-- One round of the loop of `sweep_service_snapshot_acquire`. -/
def sweepServiceSnapshotAcquire (channel : Fin 2) (s : System R) : System R :=
  if s.inProgress || s.copyInProgress then s
  else
    { s with
      copyInProgress := true
      held := some ⟨channel, s.generation, points cfg, s.machine.measured channel⟩ }

def sweepServiceSnapshotRelease (snapshot : Snapshot R) (s : System R) : Bool × System R :=
  (snapshot.generation = s.generation, { s with copyInProgress := false, held := none })

def step (s : System R) : Action R → Option (System R)
  | .tick => match s.control with
    | .idle => some { s with control := .awaiting }
    | _ => none
  | .direct => match s.control with
    | .idle => some { s with control := .entering false }
    | _ => none
  | .call inputPending stack => call cfg inputPending stack s
  | .sweep input => sweep cfg input s
  | .proceed timeDomain => proceed cfg post timeDomain s
  | .acquire channel => some (sweepServiceSnapshotAcquire cfg channel s)
  | .release => s.held.map fun snapshot => (sweepServiceSnapshotRelease snapshot s).2

/-- When the release of a snapshot would return true, the array is as it was when the snapshot
was acquired, and all its points come from one completed sweep. -/
def Consistent (s : System R) : Prop :=
  ∀ snapshot, s.held = some snapshot → (sweepServiceSnapshotRelease snapshot s).1 = true →
    s.machine.measured snapshot.channel = snapshot.contents ∧
      OneSweep cfg s.toTraced snapshot.channel

def storing (s : System R) : Option (Fin 2) :=
  match s.control with
  | .renormalizing i => if i < points cfg then some 0 else none
  | .copying ch _ i => if i < sweepPointsMax cfg.board then some ch else none
  | _ => none

/-- A snapshot is acquired only of a measured channel to which nothing was written since a sweep
was completed, and no channel is processed while a snapshot of it that is still current is
held. -/
def Guarded (s : System R) : Action R → Prop
  | .acquire channel =>
    s.inProgress = false → s.copyInProgress = false →
      s.intact = true ∧ cfg.mask.requests channel = true
  | .proceed _ =>
    ∀ snapshot ∈ s.held, storing cfg s = some snapshot.channel →
      snapshot.generation ≠ s.generation
  | _ => True

end Thread

end NanoVNA.SweepSnapshot
