import NanoVNA.Capture

namespace NanoVNA.CaptureTimes

open NanoVNA.Word32 NanoVNA.GuardedRun NanoVNA.Capture

variable {A B : Type} {dsp : Dsp A B} {s s' : State A B} {start delay now : Nat} {buffer : B}

def Continues : Action B → Prop
  | .ready _ _ => False
  | _ => True

instance (a : Action B) : Decidable (Continues a) :=
  match a with
  | .ready _ _ => inferInstanceAs (Decidable False)
  | .load | .store | .wait _ | .poll | .clock _ | .expire | .setBandwidth _ | .interrupt _ _ =>
    inferInstanceAs (Decidable True)

/-- Before the delay is over a received buffer is not taken, after it every one is that the capture
waits for; the ticks are counted without wrapping. -/
def Prompt (dsp : Dsp A B) (start delay : Nat) (s : State A B) : Action B → Prop
  | .interrupt now buffer =>
    (now < start + delay → i2sLldServeRxInterrupt dsp now buffer s = s) ∧
      (start + delay ≤ now → s.waitCount ≠ 0 →
        (i2sLldServeRxInterrupt dsp now buffer s).waitCount = s.waitCount - 1)
  | _ => True

def turn (ticks : Nat) : Nat := ticks / 2 ^ 32

/-- A tick of the turn of the ready time, or of another turn on the side of it that the counter
shows. -/
def InTurn (ready now : Nat) : Prop :=
  turn now = turn ready ∨ (turn now < turn ready ∧ u32 now < u32 ready) ∨
    (turn ready < turn now ∧ u32 ready ≤ u32 now)

instance (ready now : Nat) : Decidable (InTurn ready now) := inferInstanceAs (Decidable (_ ∨ _))

/-- An interrupt of a capture that waits for buffers comes in the right turn. -/
def TurnKept (start delay : Nat) (s : State A B) : Action B → Prop
  | .interrupt now _ => s.waitCount ≠ 0 → InTurn (start + delay) now
  | _ => True

instance (s : State A B) (a : Action B) : Decidable (TurnKept start delay s a) :=
  match a with
  | .interrupt now _ => inferInstanceAs (Decidable (s.waitCount ≠ 0 → InTurn (start + delay) now))
  | .ready _ _ | .load | .store | .wait _ | .poll | .clock _ | .expire | .setBandwidth _ =>
    inferInstanceAs (Decidable True)

theorem inTurn_iff {ready : Nat} : InTurn ready now ↔ (u32 now < u32 ready ↔ now < ready) := by
  unfold InTurn turn u32
  omega

theorem interrupt_early (h : u32 now < s.readyTime) :
    i2sLldServeRxInterrupt dsp now buffer s = s := if_pos (Or.inr h)

theorem interrupt_taken (hwait : s.waitCount ≠ 0) (h : s.readyTime ≤ u32 now) :
    (i2sLldServeRxInterrupt dsp now buffer s).waitCount = s.waitCount - 1 := by
  have hserved : ¬ (s.waitCount = 0 ∨ u32 now < s.readyTime) :=
    not_or.mpr ⟨hwait, Nat.not_lt.mpr h⟩
  simp only [i2sLldServeRxInterrupt, if_neg hserved]
  split
  · rfl
  split <;> rfl

theorem prompt_iff (hready : s.readyTime = u32 (start + delay)) (a : Action B) :
    Prompt dsp start delay s a ↔ TurnKept start delay s a := by
  cases a with
  | interrupt now buffer =>
    by_cases hwait : s.waitCount = 0
    · have hidle : i2sLldServeRxInterrupt dsp now buffer s = s := interrupt_idle hwait
      simp [Prompt, TurnKept, hidle, hwait]
    · rw [Prompt, TurnKept, inTurn_iff, ← hready]
      constructor
      · intro ⟨hearly, hlate⟩ _
        constructor
        · intro hcounter
          apply Nat.lt_of_not_le
          intro hnow
          have htaken := hlate hnow hwait
          rw [interrupt_early hcounter] at htaken
          omega
        · intro hnow
          apply Nat.lt_of_not_le
          intro hcounter
          have htaken : (i2sLldServeRxInterrupt dsp now buffer s).waitCount = s.waitCount - 1 :=
            interrupt_taken hwait hcounter
          rw [hearly hnow] at htaken
          omega
      · intro hkept
        have hside := hkept hwait
        refine ⟨fun hnow => interrupt_early (hside.mpr hnow), fun hnow _ => ?_⟩
        exact interrupt_taken hwait
          (Nat.le_of_not_lt fun hcounter => Nat.not_lt.mpr hnow (hside.mp hcounter))
  | _ => exact Iff.rfl

theorem interrupt_readyTime :
    (i2sLldServeRxInterrupt dsp now buffer s).readyTime = s.readyTime := by
  simp only [i2sLldServeRxInterrupt]
  split
  · rfl
  split
  · rfl
  split <;> rfl

theorem step_readyTime {a : Action B} (h : Continues a) (hs : step dsp s a = some s') :
    s'.readyTime = s.readyTime := by
  cases a with
  | ready now delay => exact h.elim
  | interrupt now buffer =>
    cases hs
    exact interrupt_readyTime
  | setBandwidth count =>
    cases hs
    rfl
  | load =>
    obtain ⟨-, hs⟩ := Option.ite_none_right_eq_some.mp hs
    cases hs
    rfl
  | wait now =>
    obtain ⟨-, hs⟩ := Option.ite_none_right_eq_some.mp hs
    cases hs
    rfl
  | expire =>
    obtain ⟨-, hs⟩ := Option.ite_none_right_eq_some.mp hs
    cases hs
    rfl
  | store =>
    simp only [step] at hs
    split at hs <;> cases hs
    rfl
  | poll =>
    simp only [step] at hs
    split at hs
    · split at hs <;> cases hs <;> rfl
    · cases hs
  | clock now =>
    simp only [step] at hs
    split at hs
    · split at hs <;> cases hs <;> rfl
    · cases hs

theorem run_prompt_iff {as : List (Action B)} (hcontinues : ∀ a ∈ as, Continues a)
    (hready : s.readyTime = u32 (start + delay)) :
    Along (step dsp) (Prompt dsp start delay) s as ↔
      Along (step dsp) (TurnKept start delay) s as := by
  induction as generalizing s with
  | nil => exact Iff.rfl
  | cons a as ih =>
    refine and_congr (prompt_iff hready a) (forall₂_congr fun s' hs => ?_)
    refine ih (fun b hb => hcontinues b (List.mem_cons_of_mem a hb)) ?_
    exact (step_readyTime (hcontinues a List.mem_cons_self) hs).trans hready

/-- A capture is started with a delay; until the next one is started, every received buffer is taken
at its time if and only if every interrupt comes in the right turn of the counter. -/
theorem capture_prompt_iff {as : List (Action B)} (hcontinues : ∀ a ∈ as, Continues a)
    (hs : step dsp s (.ready start delay) = some s') :
    Along (step dsp) (Prompt dsp start delay) s' as ↔
      Along (step dsp) (TurnKept start delay) s' as := by
  refine run_prompt_iff hcontinues ?_
  obtain ⟨-, hs⟩ := Option.ite_none_right_eq_some.mp hs
  cases hs
  exact u32_u32_add start delay

def readied (start delay : Nat) : State (List Nat) Nat :=
  { started 0 [] with
    readyTime := u32 (u32 start + delay)
    control := .readied
    inForce := [0] }

def interrupted (start : Nat) (interrupts : List Nat) : List (Action Nat) :=
  [.load, .store, .wait (start + 1)] ++ interrupts.map fun now => .interrupt now now

theorem step_ready (start delay : Nat) :
    step recorder (started 0 []) (.ready start delay) = some (readied start delay) := rfl

theorem capture_prompt_iff_early :
    Along (step recorder) (Prompt recorder 100 10) (readied 100 10)
      (interrupted 100 [105, 110, 115]) :=
  (capture_prompt_iff (by decide) (step_ready 100 10)).mpr (by decide)

/-- Five ticks before the counter wraps a buffer is taken at once; twenty before, none is taken in
the turn after. -/
theorem capture_not_prompt :
    ¬ Along (step recorder) (Prompt recorder (2 ^ 32 - 5) 10) (readied (2 ^ 32 - 5) 10)
        (interrupted (2 ^ 32 - 5) [2 ^ 32 - 3]) ∧
      ¬ Along (step recorder) (Prompt recorder (2 ^ 32 - 20) 10) (readied (2 ^ 32 - 20) 10)
        (interrupted (2 ^ 32 - 20) [2 ^ 32 + 1]) := by
  constructor
  · rw [run_prompt_iff (by decide) rfl]
    decide
  · rw [run_prompt_iff (by decide) rfl]
    decide

end NanoVNA.CaptureTimes
