import Mathlib.Data.List.Basic
import NanoVNA.Numerals

namespace NanoVNA.ByteBus

/-- What passes on a bus that shifts a byte each way at a time: the selection of the device, and
the bytes out and back. -/
inductive Signal
  | select (selected : Bool)
  | byte (out back : UInt8)
  deriving DecidableEq, Repr

/-- A device on the bus. What comes back waits in a queue of `depth` bytes; `patience` is how
often a loop over the clock reads again from a state before the time is over. -/
structure Bus (σ : Type) where
  exchange : σ → UInt8 → σ × UInt8
  select : σ → Bool → σ
  patience : σ → Nat → Nat
  depth : Nat
  depth_pos : 0 < depth

structure Host (σ : Type) where
  device : σ
  queue : List UInt8
  passed : List Signal

variable {σ : Type} (bus : Bus σ)

section Operations

def setSelected (selected : Bool) (h : Host σ) : Host σ :=
  { h with
    device := bus.select h.device selected
    passed := h.passed ++ [.select selected] }

/-- A full queue loses what comes back. -/
def clock (out : UInt8) (h : Host σ) : Host σ :=
  let (device, back) := bus.exchange h.device out
  { device := device
    queue := if h.queue.length < bus.depth then h.queue ++ [back] else h.queue
    passed := h.passed ++ [.byte out back] }

def drop (h : Host σ) : Host σ := { h with queue := [] }

def receive (h : Host σ) : Host σ × UInt8 :=
  let h := clock bus 0xFF h
  ({ h with queue := h.queue.tail }, h.queue.headD 0)

def send (outs : List UInt8) (h : Host σ) : Host σ := outs.foldl (fun h out => clock bus out h) h

def receiveMany : Nat → Host σ → Host σ × List UInt8
  | 0, h => (h, [])
  | n + 1, h =>
    let (h, b) := receive bus h
    let (h, bs) := receiveMany n h
    (h, b :: bs)

/-- Read until a byte ends the loop, and `n` times more at most. -/
def poll (again : UInt8 → Bool) : Nat → Host σ → Host σ × UInt8
  | 0, h => receive bus h
  | n + 1, h =>
    let (h, b) := receive bus h
    if again b then poll again n h else (h, b)

end Operations

section Dialogues

def Speaks : σ → List Signal → σ → Prop
  | s, [], t => t = s
  | s, .select selected :: rest, t => Speaks (bus.select s selected) rest t
  | s, .byte out back :: rest, t =>
    (bus.exchange s out).2 = back ∧ Speaks (bus.exchange s out).1 rest t

/-- Between two states of the host this dialogue has passed, and the device took its part. -/
structure Says (h : Host σ) (dialogue : List Signal) (h' : Host σ) : Prop where
  passed : h'.passed = h.passed ++ dialogue
  speaks : Speaks bus h.device dialogue h'.device

variable {bus}

theorem Speaks.append {s t u : σ} {d e : List Signal} (h : Speaks bus s d t)
    (h' : Speaks bus t e u) : Speaks bus s (d ++ e) u := by
  induction d generalizing s with
  | nil =>
    obtain rfl := h
    exact h'
  | cons signal d ih =>
    cases signal with
    | select selected => exact ih h
    | byte out back => exact ⟨h.1, ih h.2⟩

theorem speaks_append {s u : σ} {d e : List Signal} (h : Speaks bus s (d ++ e) u) :
    ∃ t, Speaks bus s d t ∧ Speaks bus t e u := by
  induction d generalizing s with
  | nil => exact ⟨s, rfl, h⟩
  | cons signal d ih =>
    cases signal with
    | select selected => exact ih h
    | byte out back =>
      obtain ⟨t, ht, hrest⟩ := ih h.2
      exact ⟨t, ⟨h.1, ht⟩, hrest⟩

theorem Says.refl (h : Host σ) : Says bus h [] h := ⟨(List.append_nil _).symm, rfl⟩

theorem Says.trans {h₀ h₁ h₂ : Host σ} {d e : List Signal} (h : Says bus h₀ d h₁)
    (h' : Says bus h₁ e h₂) : Says bus h₀ (d ++ e) h₂ :=
  ⟨by rw [h'.passed, h.passed, List.append_assoc], h.speaks.append h'.speaks⟩

end Dialogues

section Rules

def heard (backs : List UInt8) : List Signal := backs.map (Signal.byte 0xFF)

@[simp] theorem heard_nil : heard [] = [] := rfl

@[simp] theorem heard_cons (b : UInt8) (bs : List UInt8) :
    heard (b :: bs) = .byte 0xFF b :: heard bs := rfl

@[simp] theorem heard_append (bs cs : List UInt8) : heard (bs ++ cs) = heard bs ++ heard cs :=
  List.map_append

def Sends (outs : List UInt8) (dialogue : List Signal) : Prop :=
  ∃ backs, backs.length = outs.length ∧ dialogue = List.zipWith Signal.byte outs backs

theorem says_setSelected (selected : Bool) (h : Host σ) :
    Says bus h [.select selected] (setSelected bus selected h) := ⟨rfl, rfl⟩

theorem says_drop (h : Host σ) : Says bus h [] (drop h) := ⟨(List.append_nil _).symm, rfl⟩

@[simp] theorem drop_queue (h : Host σ) : (drop h).queue = [] := rfl

@[simp] theorem setSelected_queue (selected : Bool) (h : Host σ) :
    (setSelected bus selected h).queue = h.queue := rfl

theorem says_clock (out : UInt8) (h : Host σ) :
    Says bus h [.byte out (bus.exchange h.device out).2] (clock bus out h) :=
  ⟨rfl, rfl, rfl⟩

/-- Nothing old waits, so what is read is what has just come back. -/
theorem receive_spec {h : Host σ} (hq : h.queue = []) :
    (receive bus h).1.queue = [] ∧ Says bus h (heard [(receive bus h).2]) (receive bus h).1 := by
  have hlt : ([] : List UInt8).length < bus.depth := bus.depth_pos
  have hqueue : (clock bus 0xFF h).queue = [(bus.exchange h.device 0xFF).2] := by
    simp only [clock, hq, hlt, if_true, List.nil_append]
  have hback : (receive bus h).2 = (bus.exchange h.device 0xFF).2 := by
    simp only [receive, hqueue, List.headD_cons]
  refine ⟨by simp only [receive, hqueue, List.tail_cons], ?_⟩
  rw [hback]
  exact ⟨rfl, rfl, rfl⟩

theorem send_spec (outs : List UInt8) (h : Host σ) :
    ∃ dialogue, Sends outs dialogue ∧ Says bus h dialogue (send bus outs h) := by
  induction outs generalizing h with
  | nil => exact ⟨[], ⟨[], rfl, rfl⟩, Says.refl h⟩
  | cons out outs ih =>
    obtain ⟨dialogue, ⟨backs, hlength, hzip⟩, hspoken⟩ := ih (clock bus out h)
    refine ⟨_, ⟨(bus.exchange h.device out).2 :: backs, by simp [hlength], rfl⟩, ?_⟩
    rw [List.zipWith_cons_cons, ← hzip]
    exact (says_clock bus out h).trans hspoken

theorem receiveMany_spec (n : Nat) {h : Host σ} (hq : h.queue = []) :
    (receiveMany bus n h).1.queue = [] ∧ (receiveMany bus n h).2.length = n ∧
      Says bus h (heard (receiveMany bus n h).2) (receiveMany bus n h).1 := by
  induction n generalizing h with
  | zero => exact ⟨hq, rfl, Says.refl h⟩
  | succ n ih =>
    obtain ⟨hqueue, hspoken⟩ := receive_spec bus hq
    obtain ⟨hlast, hlength, hrest⟩ := ih hqueue
    exact ⟨hlast, congrArg Nat.succ hlength, hspoken.trans hrest⟩

theorem poll_spec (again : UInt8 → Bool) (n : Nat) {h : Host σ} (hq : h.queue = []) :
    ∃ waits, (∀ b ∈ waits, again b = true) ∧ waits.length ≤ n ∧
      (again (poll bus again n h).2 = true → waits.length = n) ∧
      (poll bus again n h).1.queue = [] ∧
      Says bus h (heard (waits ++ [(poll bus again n h).2])) (poll bus again n h).1 := by
  induction n generalizing h with
  | zero =>
    obtain ⟨hqueue, hspoken⟩ := receive_spec bus hq
    exact ⟨[], by simp, Nat.le_refl 0, fun _ => rfl, hqueue, hspoken⟩
  | succ n ih =>
    obtain ⟨hqueue, hspoken⟩ := receive_spec bus hq
    by_cases hagain : again (receive bus h).2 = true
    · obtain ⟨waits, hwaits, hlength, hall, hlast, hrest⟩ := ih hqueue
      have hpoll : poll bus again (n + 1) h = poll bus again n (receive bus h).1 := by
        rw [poll]
        exact if_pos hagain
      rw [hpoll]
      refine ⟨(receive bus h).2 :: waits, List.forall_mem_cons.mpr ⟨hagain, hwaits⟩,
        Nat.succ_le_succ hlength, fun h' => congrArg Nat.succ (hall h'), hlast, ?_⟩
      exact hspoken.trans hrest
    · have hpoll : poll bus again (n + 1) h = receive bus h := by
        rw [poll]
        exact if_neg hagain
      rw [hpoll]
      exact ⟨[], by simp, Nat.zero_le _, fun h' => absurd h' hagain, hqueue, hspoken⟩

end Rules

end NanoVNA.ByteBus
