namespace NanoVNA.ShellDeferred

/-- `vna_shell_command` with the flags that the service looks at -/
structure Command where
  name : String
  breakSweep : Bool
  waitMutex : Bool
  noAutoResume : Bool
  deriving DecidableEq, Repr

/-- A parsed line whose command is deferred, and whether the sweep is to resume after it. -/
structure Request where
  command : Command
  args : List String
  autoResume : Bool
  deriving DecidableEq, Repr

/-- A call of a handler: `argv` with what it pointed to, or NULL. -/
structure Invocation where
  command : Command
  argc : Nat
  argv : Option (List String)
  deriving DecidableEq, Repr

def Request.invocation (r : Request) : Invocation := ⟨r.command, r.args.length, some r.args⟩

/-- The shell thread in `shell_request_deferred_execution`, between its three stores and its
wait. -/
inductive Requester
  | idle
  | parsed (r : Request)
  | commanded (r : Request)
  | counted (r : Request)
  | published (r : Request)
  | waiting (r : Request)
  | woken
  deriving DecidableEq, Repr

/-- The measurement thread in `shell_service_pending_commands`. -/
inductive Servicer
  | idle
  | serving (command : Command) (argc : Nat) (argv : Bool)
  | returned (command : Command)
  | settled
  deriving DecidableEq, Repr

/-- `pendingArgv` tells whether the pointer is set; it always points to `shell_args`, which the
next line overwrites. The last two fields are the requests made and the handlers run. -/
structure State where
  shellArgs : List String
  pendingCommand : Option Command
  pendingArgc : Nat
  pendingArgv : Bool
  autoResume : Bool
  sweepEnabled : Bool
  requester : Requester
  servicer : Servicer
  requested : List Request
  runs : List Invocation
  deriving DecidableEq, Repr

/-- A step of the shell thread, the end of its wait by the clock or by a disconnected host, or a
step of the measurement thread. -/
inductive Action
  | request (r : Request)
  | storeCommand
  | storeArgc
  | storeArgv
  | enqueue
  | timeout
  | wakeAll
  | proceed
  | pick
  | execute
  | settle
  | dequeue
  deriving DecidableEq, Repr

def started (sweepEnabled : Bool) : State :=
  ⟨[], none, 0, false, false, sweepEnabled, .idle, .idle, [], []⟩

def wake (s : State) : State :=
  match s.requester with
  | .waiting _ => { s with requester := .woken }
  | _ => s

/-- Under the lock: the command is read and cleared. -/
def pick (s : State) : State :=
  match s.pendingCommand with
  | some command =>
    { s with
      pendingCommand := none
      servicer := .serving command s.pendingArgc s.pendingArgv }
  | none => s

/-- The handler runs and returns; it finds in its arguments what they hold by then. -/
def execute (command : Command) (argc : Nat) (argv : Bool) (s : State) : State :=
  { s with
    sweepEnabled := if command.breakSweep || command.waitMutex then false else s.sweepEnabled
    servicer := .returned command
    runs := s.runs ++ [⟨command, argc, if argv then some s.shellArgs else none⟩] }

def settle (command : Command) (s : State) : State :=
  { s with
    sweepEnabled := s.sweepEnabled || s.autoResume && !command.noAutoResume
    autoResume := false
    servicer := .settled }

def step (s : State) : Action → Option State
  | .request r => match s.requester with
    | .idle => some { s with
        shellArgs := r.args
        autoResume := r.autoResume
        requester := .parsed r
        requested := s.requested ++ [r] }
    | _ => none
  | .storeCommand => match s.requester with
    | .parsed r => some { s with pendingCommand := some r.command, requester := .commanded r }
    | _ => none
  | .storeArgc => match s.requester with
    | .commanded r => some { s with pendingArgc := r.args.length, requester := .counted r }
    | _ => none
  | .storeArgv => match s.requester with
    | .counted r => some { s with pendingArgv := true, requester := .published r }
    | _ => none
  | .enqueue => match s.requester with
    | .published r => some { s with requester := .waiting r }
    | _ => none
  | .timeout => match s.requester with
    | .waiting _ => some { s with requester := .woken }
    | _ => none
  | .wakeAll => some (wake s)
  | .proceed => match s.requester with
    | .woken => some { s with requester := .idle }
    | _ => none
  | .pick => match s.servicer with
    | .idle => some (pick s)
    | _ => none
  | .execute => match s.servicer with
    | .serving command argc argv => some (execute command argc argv s)
    | _ => none
  | .settle => match s.servicer with
    | .returned command => some (settle command s)
    | _ => none
  | .dequeue => match s.servicer with
    | .settled => some (wake { s with servicer := .idle })
    | _ => none

def Requester.isWaiting : Requester → Bool
  | .waiting _ => true
  | _ => false

def Servicer.owes : Servicer → Bool
  | .returned _ | .settled => true
  | _ => false

def service : Servicer → List Action
  | .idle => [.pick, .execute, .settle, .dequeue]
  | .serving _ _ _ => [.execute, .settle, .dequeue]
  | .returned _ => [.settle, .dequeue]
  | .settled => [.dequeue]

/-- Handlers run for the requests made, once each, in order and with their arguments; who goes on
after a wait has been served, and who waits is brought on by the service, with its handler run. -/
structure ExactlyOnce (s : State) : Prop where
  ordered : s.runs <+: s.requested.map Request.invocation
  continued : s.requester = .woken ∨ s.requester = .idle →
    s.runs = s.requested.map Request.invocation
  awaited : s.requester.isWaiting = true →
    ∃ t, (service s.servicer).foldlM step s = some t ∧ t.requester = .woken ∧
      t.runs = t.requested.map Request.invocation

/-- A command is picked up only when its requester waits in the queue; a wait ends early only when
the handler has returned, and none begins while a wakeup is owed for another. -/
def Guarded (s : State) : Action → Prop
  | .pick => s.pendingCommand.isSome → s.requester.isWaiting
  | .timeout | .wakeAll => s.requester.isWaiting → s.servicer.owes
  | .enqueue => s.servicer.owes = false
  | _ => True

instance (s : State) (a : Action) : Decidable (Guarded s a) := by
  cases a <;> simp only [Guarded] <;> infer_instance

end NanoVNA.ShellDeferred
