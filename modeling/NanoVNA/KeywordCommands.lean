import Mathlib.Data.Rat.Defs
import NanoVNA.FloatText
import NanoVNA.SweepRequests

namespace NanoVNA.KeywordCommands

open NanoVNA.Word32 NanoVNA.DeviceState NanoVNA.SweepGrid NanoVNA.SweepFrequency
open NanoVNA.SweepRequests NanoVNA.ShellArguments NanoVNA.FloatText

variable {R F : Type}

/-- The values of `enum stimulus_type`. -/
def StimulusType.ofIndex : Nat → StimulusType
  | 0 => .start
  | 1 => .stop
  | 2 => .center
  | 3 => .cw
  | 4 => .span
  | 5 => .step
  | _ => .var

def sweepCmd : String := "start|stop|center|span|cw|step|var"

/-- What `cmd_sweep` prints, with the numbers in it. -/
inductive SweepReply
  | none
  | range (start stop points : Nat)
  | outOfRange (name : String) (freq : Nat)
  | usage
  deriving DecidableEq

def SweepReply.text : SweepReply → String
  | .none => ""
  | .range start stop points => s!"{start} {stop} {points}\r\n"
  | .outOfRange name freq => s!"error: {name}frequency out of range (50kHz-2.7GHz): {freq} Hz\r\n"
  | .usage => "usage: sweep \x7bstart(Hz)\x7d [stop(Hz)] [points]\r\n\tsweep \x7b" ++ sweepCmd ++
      "\x7d \x7bfreq(Hz)\x7d\r\n"

def outOfRange (freq : Nat) : Prop := freq < 50000 ∨ frequencyMax < freq

instance (freq : Nat) : Decidable (outOfRange freq) := inferInstanceAs (Decidable (_ ∨ _))

/-- Every keyword but start and stop moves the other end of the range along. -/
def enforced (type : StimulusType) : Bool := type ≠ .start ∧ type ≠ .stop

def sweepKeyword (word value : Arg) (s : Vna R) : Vna R × SweepReply :=
  match getStrIndex word sweepCmd with
  | none => (s, .usage)
  | some index =>
    let type := StimulusType.ofIndex index
    if outOfRange (myAtoui value) then (s, .outOfRange "" (myAtoui value))
    else (setSweepFrequencyInternal type (myAtoui value) (enforced type) s, .none)

/-- A number that is missing or zero leaves its setting as it is. -/
def sweepNumbers (board : Board) (value0 value1 value2 : Nat) (s : Vna R) : Vna R × SweepReply :=
  if value0 ≠ 0 ∧ outOfRange value0 then (s, .outOfRange "start " value0)
  else if value1 ≠ 0 ∧ outOfRange value1 then (s, .outOfRange "stop " value1)
  else
    let s := if value0 ≠ 0 then setSweepFrequencyInternal .start value0 false s else s
    let s := if value1 ≠ 0 then setSweepFrequencyInternal .stop value1 false s else s
    (if value2 ≠ 0 then setSweepPoints board value2 s else s, .none)

def cmdSweep (board : Board) (argv : List Arg) (s : Vna R) : Vna R × SweepReply :=
  match argv with
  | [] =>
    (s, .range (getSweepFrequency s.props .start) (getSweepFrequency s.props .stop)
      s.props.sweepPoints)
  | [start] => sweepNumbers board (myAtoui start) 0 0 s
  | [start, stop] =>
    if myAtoui start = 0 then sweepKeyword start stop s
    else sweepNumbers board (myAtoui start) (myAtoui stop) 0 s
  | [start, stop, points] => sweepNumbers board (myAtoui start) (myAtoui stop) (myAtoui points) s
  | _ => (s, .usage)

def keywordOf : StimulusType → String
  | .start => "start"
  | .stop => "stop"
  | .center => "center"
  | .cw => "cw"
  | .span => "span"
  | .step => "step"
  | .var => "var"

/-- The electrical delays of the two channels, in seconds, and the request to draw the markers. -/
structure Delays (F : Type) where
  delay : Fin 2 → F
  redrawMarker : Bool

/-- The arithmetic of `value * 1e-12` and of the number that is printed. -/
structure DelayArith (F : Type) extends FloatArith F where
  fromPico : F → F
  toPico : F → F

section Delay

variable (a : DelayArith F)

def setElectricalDelay (ch : Fin 2) (seconds : F) (d : Delays F) : Delays F :=
  if a.eq (d.delay ch) seconds then d
  else ⟨fun k => if k = ch then seconds else d.delay k, true⟩

def cmdEdelayList : String := "s11|s21"

/-- Also gives the number the command prints when it has no argument. -/
def cmdEdelay (argv : List Arg) (d : Delays F) : Delays F × Option F :=
  match argv with
  | [] => (d, some (a.toPico (d.delay 0)))
  | word :: args =>
    match getStrIndex word cmdEdelayList with
    | none => (setElectricalDelay a 0 (a.fromPico (myAtof a.toFloatArith word)) d, none)
    | some ch =>
      if args.length = 1 then
        (setElectricalDelay a (Fin.ofNat 2 ch) (a.fromPico (myAtof a.toFloatArith word)) d, none)
      else (d, none)

def channelWord (ch : Fin 2) : String := if ch = 0 then "s11" else "s21"

/-- The delay of the channel is the value in picoseconds, and the other one is as before. -/
structure DelaySet (ch : Fin 2) (value : Arg) (d d' : Delays F) : Prop where
  channel : a.eq (d'.delay ch) (a.fromPico (myAtof a.toFloatArith value))
  other : ∀ k, k ≠ ch → d'.delay k = d.delay k

end Delay

section Sweep

theorem getStrIndex_keywordOf (type : StimulusType) :
    (getStrIndex (keywordOf type).toList sweepCmd).map StimulusType.ofIndex =
      some (if type = .cw then .span else if type = .span then .cw else type) := by
  cases type <;> decide

theorem myAtoui_keywordOf (type : StimulusType) : myAtoui (keywordOf type).toList = 0 := by
  cases type <;> decide

theorem cmdSweep_keyword (board : Board) (type : StimulusType) {value : Arg}
    (hvalue : ¬ outOfRange (myAtoui value)) (s : Vna R) :
    (cmdSweep board [(keywordOf type).toList, value] s).1 =
      setSweepFrequencyInternal (if type = .cw then .span else if type = .span then .cw else type)
        (myAtoui value) (enforced type) s := by
  have hindex := getStrIndex_keywordOf type
  obtain ⟨index, hword, htype⟩ := Option.map_eq_some_iff.mp hindex
  have henforced : enforced (StimulusType.ofIndex index) = enforced type := by
    rw [htype]
    cases type <;> rfl
  rw [cmdSweep, if_pos (myAtoui_keywordOf type), sweepKeyword, hword]
  dsimp only
  rw [if_neg hvalue, henforced, htype]

theorem cw_range {freq : Nat} (hlo : 50000 ≤ freq) (hhi : freq ≤ frequencyMax) (enforceOrder : Bool)
    (s : Vna R) :
    (setSweepFrequencyInternal .cw freq enforceOrder s).props.frequency0 = freq ∧
      (setSweepFrequencyInternal .cw freq enforceOrder s).props.frequency1 = freq := by
  have hmin : frequencyMin ≤ freq := Nat.le_trans (by decide) hlo
  obtain ⟨hlow, hstep, hhigh⟩ := @request_inside _ .cw freq nofun (fun _ => hmin) hhi s.props
  simp only [setSweepFrequencyInternal, hlow, hstep, hhigh]
  exact ⟨rfl, rfl⟩

theorem span_range {freq : Nat} (hhi : freq ≤ frequencyMax) (enforceOrder : Bool) (s : Vna R) :
    let p := (setSweepFrequencyInternal .span freq enforceOrder s).props
    p.frequency1 = u32 (p.frequency0 + 2 * (freq / 2)) := by
  obtain ⟨hlow, hstep, hhigh⟩ := @request_inside _ .span freq nofun nofun hhi s.props
  simp only [setSweepFrequencyInternal, hlow, hstep, hhigh, update_frequency0, update_frequency1,
    setSpan, withRange_frequency0, withRange_frequency1]
  rw [frequencyMax] at hhi
  unfold sub32 u32
  omega

theorem cw_ne_span {freq : Nat} (hlo : 50000 ≤ freq) (hhi : freq ≤ frequencyMax)
    (enforceOrder enforceOrder' : Bool) (s : Vna R) :
    setSweepFrequencyInternal .cw freq enforceOrder s ≠
      setSweepFrequencyInternal .span freq enforceOrder' s := by
  intro h
  obtain ⟨h0, h1⟩ := cw_range hlo hhi enforceOrder s
  have hspan := span_range hhi enforceOrder' s
  rw [← h] at hspan
  dsimp only at hspan
  rw [h0, h1] at hspan
  rw [frequencyMax] at hhi
  unfold u32 at hspan
  omega

theorem keyword_reaches_iff (board : Board) (type : StimulusType) {value : Arg}
    (hvalue : ¬ outOfRange (myAtoui value)) (s : Vna R) :
    (cmdSweep board [(keywordOf type).toList, value] s).1 =
        setSweepFrequencyInternal type (myAtoui value) (enforced type) s ↔
      type ≠ .cw ∧ type ≠ .span := by
  obtain ⟨hlo, hhi⟩ : 50000 ≤ myAtoui value ∧ myAtoui value ≤ frequencyMax := by
    rw [outOfRange] at hvalue
    omega
  rw [cmdSweep_keyword board type hvalue]
  constructor
  · intro h
    constructor
    · rintro rfl
      exact cw_ne_span hlo hhi _ _ s h.symm
    · rintro rfl
      exact cw_ne_span hlo hhi _ _ s h
  · rintro ⟨hcw, hspan⟩
    rw [if_neg hcw, if_neg hspan]

end Sweep

section Edelay

variable (a : DelayArith F)

theorem setElectricalDelay_channel (ch : Fin 2) (seconds : F) (d : Delays F) :
    (setElectricalDelay a ch seconds d).delay ch = seconds ∨
      a.eq (d.delay ch) seconds ∧ setElectricalDelay a ch seconds d = d := by
  unfold setElectricalDelay
  split
  · rename_i heq
    exact .inr ⟨heq, rfl⟩
  · exact .inl (if_pos rfl)

theorem setElectricalDelay_other {ch k : Fin 2} (h : k ≠ ch) (seconds : F) (d : Delays F) :
    (setElectricalDelay a ch seconds d).delay k = d.delay k := by
  unfold setElectricalDelay
  split
  · rfl
  · exact if_neg h

theorem setElectricalDelay_eq_iff (ch : Fin 2) (seconds value : F) (d : Delays F) :
    a.eq ((setElectricalDelay a ch seconds d).delay ch) value = true ↔ a.eq seconds value = true := by
  obtain h | ⟨heq, h⟩ := setElectricalDelay_channel a ch seconds d
  · rw [h]
  · rw [h]
    exact ⟨a.eq_trans (a.eq_symm heq), a.eq_trans heq⟩

/-- The text of the channel is read as the number, which is zero. -/
theorem cmdEdelay_channel (ch : Fin 2) (value : Arg) (d : Delays F) :
    (cmdEdelay a [(channelWord ch).toList, value] d).1 =
      setElectricalDelay a ch (a.fromPico (a.ofInt 0)) d := by
  obtain rfl | rfl : ch = 0 ∨ ch = 1 := by omega
  · rfl
  · rfl

theorem edelay_sets_iff (ch : Fin 2) (value : Arg) (d : Delays F) :
    DelaySet a ch value d (cmdEdelay a [(channelWord ch).toList, value] d).1 ↔
      a.eq (a.fromPico (a.ofInt 0)) (a.fromPico (myAtof a.toFloatArith value)) = true := by
  rw [cmdEdelay_channel]
  constructor
  · intro h
    exact (setElectricalDelay_eq_iff ..).mp h.channel
  · intro h
    exact ⟨(setElectricalDelay_eq_iff ..).mpr h, fun k hk => setElectricalDelay_other a hk _ d⟩

end Edelay

section Commands

variable (board : Board) (a : DelayArith F)

def ActsAsNamed (type : StimulusType) (value : Arg) (s : Vna R) : Prop :=
  (cmdSweep board [(keywordOf type).toList, value] s).1 =
    setSweepFrequencyInternal type (myAtoui value) (enforced type) s

/-- Two places of the list of words are exchanged against the enumeration, and a delay is read
from the word of its channel. -/
theorem keyword_commands_iff :
    (∀ (type : StimulusType) (value : Arg) (s : Vna R), ¬ outOfRange (myAtoui value) →
      (ActsAsNamed board type value s ↔ type ≠ .cw ∧ type ≠ .span)) ∧
    (∀ (ch : Fin 2) (value : Arg) (d : Delays F),
      DelaySet a ch value d (cmdEdelay a [(channelWord ch).toList, value] d).1 ↔
        a.eq (a.fromPico (a.ofInt 0)) (a.fromPico (myAtof a.toFloatArith value)) = true) :=
  ⟨fun type _ s hvalue => keyword_reaches_iff board type hvalue s,
    fun ch value d => edelay_sets_iff a ch value d⟩

end Commands

def exactArith : DelayArith Rat where
  ofInt n := n
  add x y := x + y
  mul x y := x * y
  neg x := -x
  tenth := 1 / 10
  ten := 10
  eq x y := x = y
  eq_symm := decide_eq_symm
  eq_trans := decide_eq_trans
  fromPico x := x / 10 ^ 12
  toPico x := x * 10 ^ 12

theorem named_start_and_zero_delay :
    ActsAsNamed .f072 .start "1500000".toList oneToTwoMHz ∧
      DelaySet exactArith 0 "0".toList ⟨fun _ => 1, false⟩
        (cmdEdelay exactArith ["s11".toList, "0".toList] ⟨fun _ => 1, false⟩).1 :=
  have h := keyword_commands_iff .f072 exactArith
  ⟨(h.1 .start "1500000".toList oneToTwoMHz (by decide)).mpr ⟨by decide, by decide⟩,
    (h.2 0 "0".toList ⟨fun _ => 1, false⟩).mpr (by decide +kernel)⟩

theorem cw_keyword_and_delay_redirected :
    ¬ ActsAsNamed .f072 .cw "1500000".toList oneToTwoMHz ∧
      ¬ DelaySet exactArith 0 "100".toList ⟨fun _ => 1, false⟩
        (cmdEdelay exactArith ["s11".toList, "100".toList] ⟨fun _ => 1, false⟩).1 := by
  constructor
  · intro h
    exact absurd rfl ((keyword_reaches_iff .f072 .cw (by decide) _).mp h).1
  · intro h
    exact absurd ((edelay_sets_iff exactArith 0 _ _).mp h) (by decide +kernel)

end NanoVNA.KeywordCommands
