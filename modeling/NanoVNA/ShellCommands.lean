import NanoVNA.KeywordCommands
import NanoVNA.Markers
import NanoVNA.SavedSlots

namespace NanoVNA.ShellCommands

open NanoVNA.DeviceState NanoVNA.ShellArguments NanoVNA.KeywordCommands NanoVNA.Markers
open NanoVNA.SavedSlots (saveareaMax)

/-- What a command asks of the device once it has read its arguments; the text of a number that is
not whole is given as it is. -/
inductive Call
  | nothing
  | usage
  /-- The command without arguments. -/
  | run
  | power (value : Nat)
  | offset (requested : Int)
  | rtcSetTime (dr tr : Nat)
  | rtcSetCal (ppm : Arg)
  | rtcSetField (field value : Nat)
  | measureMode (mode : Nat)
  | outOfRange (name : String) (freq : Nat)
  | rangeInvalid
  | pointsOutOfRange
  | scan (binary : Bool) (start stop : Nat) (points mask : Option Nat)
  | bandwidth (value : Nat)
  | bandwidthHz (f : Nat)
  | freq (f : Nat)
  | sweepKeyword (type freq : Nat)
  | sweepNumbers (value0 value1 value2 : Nat)
  | data (sel : Nat)
  | threshold (requested : Nat)
  | keyUnmatched
  | clearConfig
  | sdList (pattern : Option Arg)
  | sdRead (filename : Arg)
  | sdDelete (filename : Arg)
  | messageBox (delay : Nat) (text header : Option Arg)
  | cal (step : Option Nat)
  | save (id : Nat)
  | recall (id : Nat)
  | traceEnable (t : Nat) (enable : Bool)
  | traceType (t type : Nat)
  | marker (request : MarkerRequest)
  | edelay (ch : Nat) (value : Arg)
  | s21Offset (value : Arg)
  | refresh (enable : Option Nat)
  | touch (x y : Int)
  | release (x y : Int)
  | tcxo (freq : Nat)
  | smooth (factor : Nat)
  | config (mode : Nat) (set : Bool)
  | vbatOffset (offset : Int)
  | transform (words : List (Option Nat))
  | color (id rgb : Nat)
  | enterDfu
  deriving DecidableEq

/-- The count of the arguments, and the array with whatever is behind them in it. -/
abbrev Handler := Nat → (Nat → Arg) → Call

def noArguments (call : Call) : Handler := fun _ _ => call

/-- Of a command that looks at its argument only if it has just one. -/
def oneArgument (otherwise : Call) (call : Arg → Call) : Handler := fun argc argv =>
  if argc ≠ 1 then otherwise else call (argv 0)

def cmdPower : Handler := oneArgument .usage fun arg =>
  if getStrIndex arg "auto" = some 0 then .power 255 else .power (myAtoi arg % 256).toNat

def cmdOffset : Handler := oneArgument .usage fun arg => .offset (myAtoi arg)

def cmdTime : Handler := fun argc argv =>
  if argc = 3 ∧ getStrIndex (argv 0) "b" = some 0 then
    .rtcSetTime (myAtoui (argv 1)) (myAtoui (argv 2))
  else if argc ≠ 2 then .usage
  else
    match getStrIndex (argv 0) "y|m|d|h|min|sec|ppm" with
    | none => .usage
    | some 6 => .rtcSetCal (argv 1)
    | some field =>
      if 99 < myAtoui (argv 1) then .usage else .rtcSetField field (myAtoui (argv 1))

def cmdMeasure : Handler := oneArgument .usage fun arg =>
  match getStrIndex arg "none|lc|lcshunt|lcseries|xtal|filter|cable|resonance" with
  | none => .usage
  | some mode => .measureMode mode

/-- The body of `cmd_scan` and of `cmd_scan_bin`. -/
def scanArguments (board : Board) (binary : Bool) : Handler := fun argc argv =>
  if argc < 2 ∨ 4 < argc then .usage
  else
    let start := myAtoui (argv 0)
    let stop := myAtoui (argv 1)
    if start = 0 ∨ stop = 0 ∨ stop < start ∨ start < 50000 ∨ frequencyMax < stop then
      if start < 50000 ∨ frequencyMax < start then .outOfRange "start " start
      else if stop < 50000 ∨ frequencyMax < stop then .outOfRange "stop " stop
      else .rangeInvalid
    else if argc = 2 then .scan binary start stop none none
    else
      let points := myAtoui (argv 2) % 65536
      if points = 0 ∨ sweepPointsMax board < points then .pointsOutOfRange
      else .scan binary start stop points (if argc = 4 then some (myAtoui (argv 3) % 65536) else none)

def cmdScan (board : Board) : Handler := scanArguments board false

def cmdScanBin (board : Board) : Handler := scanArguments board true

def cmdBandwidth : Handler := fun argc argv =>
  if argc = 1 then .bandwidth (myAtoui (argv 0) % 65536)
  else if argc = 2 then .bandwidthHz (myAtoui (argv 0) % 65536)
  else .run

def cmdFreq : Handler := oneArgument .usage fun arg =>
  if outOfRange (myAtoui arg) then .outOfRange "" (myAtoui arg) else .freq (myAtoui arg)

def cmdSweep : Handler := fun argc argv =>
  if argc = 0 then .run
  else if 3 < argc then .usage
  else
    let value0 := if 1 ≤ argc then myAtoui (argv 0) else 0
    let value1 := if 2 ≤ argc then myAtoui (argv 1) else 0
    let value2 := if 3 ≤ argc then myAtoui (argv 2) else 0
    if argc = 2 ∧ value0 = 0 then
      match getStrIndex (argv 0) sweepCmd with
      | none => .usage
      | some type => if outOfRange value1 then .outOfRange "" value1 else .sweepKeyword type value1
    else if value0 ≠ 0 ∧ outOfRange value0 then .outOfRange "start " value0
    else if value1 ≠ 0 ∧ outOfRange value1 then .outOfRange "stop " value1
    else .sweepNumbers value0 value1 value2

def cmdData : Handler := oneArgument (.data 0) fun arg =>
  if myAtoi arg < 0 ∨ 7 ≤ myAtoi arg then .usage else .data (myAtoi arg).toNat

def cmdThreshold : Handler := oneArgument .usage fun arg => .threshold (myAtoui arg)

def cmdClearconfig : Handler := oneArgument .usage fun arg =>
  if getStrIndex arg "1234" ≠ some 0 then .keyUnmatched else .clearConfig

def cmdCal : Handler := fun argc argv =>
  if argc = 0 then .run
  else .cal (getStrIndex (argv 0) "load|open|short|thru|isoln|done|on|off|reset")

def cmdSave (board : Board) : Handler := oneArgument .nothing fun arg =>
  if saveareaMax board ≤ myAtoui arg then .nothing else .save (myAtoui arg)

def cmdRecall (board : Board) : Handler := oneArgument .nothing fun arg =>
  if saveareaMax board ≤ myAtoui arg then .nothing else .recall (myAtoui arg)

def tracesMax : Nat := 4

/-- `(uint32_t)my_atoi(argv[0])` -/
def traceNumber (arg : Arg) : Nat := (myAtoi arg % 2 ^ 32).toNat

def cmdTypeList : String :=
  "logmag|phase|delay|smith|polar|linear|swr|real|imag|r|x|z|zp|g|b|y|rp|xp|cs|ls|cp|lp|q|" ++
    "rser|xser|zser|rsh|xsh|zsh|q21"

/-- The second argument is looked up also where there is none. -/
def cmdTrace : Handler := fun argc argv =>
  if argc = 0 then .run
  else if tracesMax ≤ traceNumber (argv 0) then .nothing
  else if 2 ≤ argc ∧ getStrIndex (argv 1) "off" = some 0 then .traceEnable (traceNumber (argv 0)) false
  else
    match getStrIndex (argv 1) cmdTypeList with
    | none => .nothing
    | some type => .traceType (traceNumber (argv 0)) type

def cmdMarker : Handler := fun argc argv =>
  if argc = 0 then .marker .list
  else
    match getStrIndex (argv 0) "on|off" with
    | some enable => .marker (.all (enable = 0))
    | none =>
      let t := myAtoi (argv 0) - 1
      if h : 0 ≤ t ∧ t < 8 then
        let t : Fin 8 := ⟨t.toNat, markerIndex_lt h⟩
        if argc = 1 then .marker (.select t)
        else
          match getStrIndex (argv 1) "on|off" with
          | some 0 => .marker (.on t)
          | some 1 => .marker (.off t)
          | _ => .marker (.index t (myAtoi (argv 1)))
      else .marker .usage

/-- The value is read from the first argument also behind a channel. -/
def cmdEdelay : Handler := fun argc argv =>
  if 1 ≤ argc then
    match getStrIndex (argv 0) cmdEdelayList with
    | none => .edelay 0 (argv 0)
    | some ch => if argc = 2 then .edelay ch (argv 0) else .nothing
  else .run

def cmdS21offset : Handler := oneArgument .run fun arg => .s21Offset arg

def cmdTransform : Handler := fun argc argv =>
  if argc = 0 then .usage
  else
    .transform ((List.range argc).map fun i =>
      getStrIndex (argv i) "on|off|impulse|step|bandpass|minimum|normal|maximum")

def cmdTcxo : Handler := oneArgument .usage fun arg => .tcxo (myAtoui arg)

def cmdRefresh : Handler := oneArgument .nothing fun arg => .refresh (getStrIndex arg "on|off")

def cmdTouch : Handler := fun argc argv =>
  if argc ≠ 2 then .nothing else .touch (myAtoi (argv 0)) (myAtoi (argv 1))

def cmdRelease : Handler := fun argc argv =>
  if argc = 2 then .release (myAtoi (argv 0)) (myAtoi (argv 1)) else .release (-1) (-1)

def cmdSdList : Handler := fun argc argv =>
  match argc with
  | 0 => .sdList (some "*.*".toList)
  | 1 => .sdList (some (argv 0))
  | _ => .sdList none

def cmdSdRead : Handler := oneArgument .usage .sdRead

def cmdSdDelete : Handler := oneArgument .usage .sdDelete

def cmdMsg : Handler := fun argc argv =>
  if argc = 0 then .usage
  else
    .messageBox (myAtoui (argv 0)) (if 1 < argc then some (argv 1) else none)
      (if 2 < argc then some (argv 2) else none)

def cmdSmooth : Handler := oneArgument .usage fun arg => .smooth (myAtoui arg)

def cmdConfig : Handler := fun argc argv =>
  if argc = 2 then
    match getStrIndex (argv 0) "auto|avg|mode|grid|dot|bk|separator" with
    | none => .usage
    | some mode => .config mode (myAtoui (argv 1) ≠ 0)
  else .usage

def cmdVbatOffset : Handler := oneArgument .run fun arg => .vbatOffset (myAtoi arg)

/-- Without two arguments the palette is printed. -/
def cmdColor : Handler := fun argc argv =>
  if argc ≠ 2 then .usage else .color (myAtoui (argv 0) % 65536) (myAtoui (argv 1))

def cmdReset : Handler := fun argc argv =>
  if argc = 1 ∧ getStrIndex (argv 0) "dfu" = some 0 then .enterDfu else .run

structure VnaShellCommand where
  scName : String
  scFunction : Handler
  runInLoad : Bool

def commandsBefore (board : Board) : List VnaShellCommand :=
  [⟨"scan", cmdScan board, false⟩, ⟨"scan_bin", cmdScanBin board, false⟩, ⟨"data", cmdData, false⟩,
    ⟨"frequencies", noArguments .run, false⟩, ⟨"freq", cmdFreq, true⟩, ⟨"sweep", cmdSweep, true⟩,
    ⟨"power", cmdPower, true⟩, ⟨"offset", cmdOffset, true⟩, ⟨"bandwidth", cmdBandwidth, true⟩,
    ⟨"time", cmdTime, false⟩, ⟨"saveconfig", noArguments .run, true⟩,
    ⟨"clearconfig", cmdClearconfig, true⟩, ⟨"sd_list", cmdSdList, false⟩,
    ⟨"sd_read", cmdSdRead, false⟩, ⟨"sd_delete", cmdSdDelete, false⟩,
    ⟨"touchcal", noArguments .run, false⟩, ⟨"touchtest", noArguments .run, false⟩,
    ⟨"pause", noArguments .run, true⟩, ⟨"resume", noArguments .run, true⟩, ⟨"msg", cmdMsg, true⟩,
    ⟨"cal", cmdCal, false⟩, ⟨"save", cmdSave board, true⟩, ⟨"recall", cmdRecall board, true⟩,
    ⟨"trace", cmdTrace, true⟩, ⟨"marker", cmdMarker, true⟩, ⟨"edelay", cmdEdelay, true⟩,
    ⟨"s21offset", cmdS21offset, true⟩, ⟨"capture", noArguments .run, false⟩,
    ⟨"measure", cmdMeasure, true⟩]

def remoteCommands : Board → List VnaShellCommand
  | .f072 => []
  | .f303 =>
    [⟨"refresh", cmdRefresh, false⟩, ⟨"touch", cmdTouch, false⟩, ⟨"release", cmdRelease, false⟩]

def commandsAfter : List VnaShellCommand :=
  [⟨"vbat", noArguments .run, true⟩, ⟨"tcxo", cmdTcxo, true⟩, ⟨"reset", cmdReset, true⟩,
    ⟨"smooth", cmdSmooth, true⟩, ⟨"config", cmdConfig, true⟩, ⟨"vbat_offset", cmdVbatOffset, true⟩,
    ⟨"transform", cmdTransform, true⟩, ⟨"threshold", cmdThreshold, true⟩,
    ⟨"help", noArguments .run, false⟩, ⟨"info", noArguments .run, false⟩,
    ⟨"version", noArguments .run, false⟩, ⟨"color", cmdColor, true⟩]

def commands (board : Board) : List VnaShellCommand :=
  commandsBefore board ++ remoteCommands board ++ commandsAfter

/-- The command whose name is the typed word, or the first of the typed words between bars. -/
def findCommand (board : Board) (word : Arg) : Option VnaShellCommand :=
  (commands board).find? fun c =>
    strIndexFrom c.scName.toList (some c.scName.toList) 0 word = some 0

/-! ### What the handlers read -/

def ReadsCounted (h : Handler) : Prop :=
  ∀ argc argv argv', (∀ k < argc, argv' k = argv k) → h argc argv' = h argc argv

theorem readsCounted_noArguments (call : Call) : ReadsCounted (noArguments call) :=
  fun _ _ _ _ => rfl

theorem readsCounted_oneArgument (otherwise : Call) (call : Arg → Call) :
    ReadsCounted (oneArgument otherwise call) := by
  intro argc argv argv' h
  unfold oneArgument
  by_cases hc : argc = 1
  · rw [h 0 (by omega)]
  · rw [if_pos hc, if_pos hc]

theorem readsCounted_cmdTime : ReadsCounted cmdTime := by
  intro argc argv argv' h
  obtain _ | _ | _ | _ | argc := argc <;> simp [cmdTime, h]

theorem readsCounted_scanArguments (board : Board) (binary : Bool) :
    ReadsCounted (scanArguments board binary) := by
  intro argc argv argv' h
  obtain _ | _ | _ | _ | _ | argc := argc <;> simp [scanArguments, h]

theorem readsCounted_cmdBandwidth : ReadsCounted cmdBandwidth := by
  intro argc argv argv' h
  obtain _ | _ | _ | argc := argc <;> simp [cmdBandwidth, h]

theorem readsCounted_cmdSweep : ReadsCounted cmdSweep := by
  intro argc argv argv' h
  obtain _ | _ | _ | _ | argc := argc <;> simp [cmdSweep, h]

theorem readsCounted_cmdCal : ReadsCounted cmdCal := by
  intro argc argv argv' h
  cases argc <;> simp [cmdCal, h]

theorem readsCounted_cmdMarker : ReadsCounted cmdMarker := by
  intro argc argv argv' h
  obtain _ | _ | argc := argc <;> simp [cmdMarker, h]

theorem readsCounted_cmdEdelay : ReadsCounted cmdEdelay := by
  intro argc argv argv' h
  cases argc <;> simp [cmdEdelay, h]

theorem readsCounted_cmdTransform : ReadsCounted cmdTransform := by
  intro argc argv argv' h
  unfold cmdTransform
  split
  · rfl
  · congr 1
    exact List.map_congr_left fun i hi => by rw [h i (List.mem_range.mp hi)]

theorem readsCounted_cmdTouch : ReadsCounted cmdTouch := by
  intro argc argv argv' h
  obtain _ | _ | _ | argc := argc <;> simp [cmdTouch, h]

theorem readsCounted_cmdRelease : ReadsCounted cmdRelease := by
  intro argc argv argv' h
  obtain _ | _ | _ | argc := argc <;> simp [cmdRelease, h]

theorem readsCounted_cmdSdList : ReadsCounted cmdSdList := by
  intro argc argv argv' h
  obtain _ | _ | argc := argc <;> simp [cmdSdList, h]

theorem readsCounted_cmdMsg : ReadsCounted cmdMsg := by
  intro argc argv argv' h
  obtain _ | _ | _ | argc := argc <;> simp [cmdMsg, h]

theorem readsCounted_cmdConfig : ReadsCounted cmdConfig := by
  intro argc argv argv' h
  obtain _ | _ | _ | argc := argc <;> simp [cmdConfig, h]

theorem readsCounted_cmdColor : ReadsCounted cmdColor := by
  intro argc argv argv' h
  obtain _ | _ | _ | argc := argc <;> simp [cmdColor, h]

theorem readsCounted_cmdReset : ReadsCounted cmdReset := by
  intro argc argv argv' h
  obtain _ | _ | argc := argc <;> simp [cmdReset, h]

/-- `trace` with one argument looks at the entry behind it. -/
theorem cmdTrace_reads {argc : Nat} (hargc : argc ≠ 1) {argv argv' : Nat → Arg}
    (h : ∀ k < argc, argv' k = argv k) : cmdTrace argc argv' = cmdTrace argc argv := by
  obtain _ | _ | argc := argc
  · rfl
  · exact absurd rfl hargc
  · simp [cmdTrace, h]

theorem cmdTrace_eq_nothing {argv : Nat → Arg} (h : tracesMax ≤ traceNumber (argv 0)) :
    cmdTrace 1 argv = .nothing := by
  simp [cmdTrace, h]

theorem cmdTrace_of_behind {argv : Nat → Arg} (h : traceNumber (argv 0) < tracesMax) :
    cmdTrace 1 argv =
      match getStrIndex (argv 1) cmdTypeList with
      | none => .nothing
      | some type => .traceType (traceNumber (argv 0)) type := by
  have hlt : ¬ tracesMax ≤ traceNumber (argv 0) := Nat.not_le.mpr h
  simp [cmdTrace, hlt]

theorem readsCounted_commandsBefore (board : Board) :
    ∀ c ∈ commandsBefore board, c.scFunction = cmdTrace ∧ c.scName = "trace" ∨
      ReadsCounted c.scFunction ∧ c.scName ≠ "trace" := by
  have hone := readsCounted_oneArgument
  have hno := readsCounted_noArguments .run
  have hscan := readsCounted_scanArguments board
  simp only [commandsBefore, List.forall_mem_cons]
  exact ⟨.inr ⟨hscan _, by decide⟩, .inr ⟨hscan _, by decide⟩, .inr ⟨hone _ _, by decide⟩,
    .inr ⟨hno, by decide⟩, .inr ⟨hone _ _, by decide⟩, .inr ⟨readsCounted_cmdSweep, by decide⟩,
    .inr ⟨hone _ _, by decide⟩, .inr ⟨hone _ _, by decide⟩,
    .inr ⟨readsCounted_cmdBandwidth, by decide⟩, .inr ⟨readsCounted_cmdTime, by decide⟩,
    .inr ⟨hno, by decide⟩, .inr ⟨hone _ _, by decide⟩, .inr ⟨readsCounted_cmdSdList, by decide⟩,
    .inr ⟨hone _ _, by decide⟩, .inr ⟨hone _ _, by decide⟩, .inr ⟨hno, by decide⟩,
    .inr ⟨hno, by decide⟩, .inr ⟨hno, by decide⟩, .inr ⟨hno, by decide⟩,
    .inr ⟨readsCounted_cmdMsg, by decide⟩, .inr ⟨readsCounted_cmdCal, by decide⟩,
    .inr ⟨hone _ _, by decide⟩, .inr ⟨hone _ _, by decide⟩, .inl (by simp),
    .inr ⟨readsCounted_cmdMarker, by decide⟩, .inr ⟨readsCounted_cmdEdelay, by decide⟩,
    .inr ⟨hone _ _, by decide⟩, .inr ⟨hno, by decide⟩, .inr ⟨hone _ _, by decide⟩, by simp⟩

theorem readsCounted_remoteCommands (board : Board) :
    ∀ c ∈ remoteCommands board, ReadsCounted c.scFunction ∧ c.scName ≠ "trace" := by
  have hone := readsCounted_oneArgument
  cases board
  case f072 => simp [remoteCommands]
  case f303 =>
    simp only [remoteCommands, List.forall_mem_cons]
    exact ⟨⟨hone _ _, by decide⟩, ⟨readsCounted_cmdTouch, by decide⟩,
      ⟨readsCounted_cmdRelease, by decide⟩, by simp⟩

theorem readsCounted_commandsAfter :
    ∀ c ∈ commandsAfter, ReadsCounted c.scFunction ∧ c.scName ≠ "trace" := by
  have hone := readsCounted_oneArgument
  have hno := readsCounted_noArguments .run
  simp only [commandsAfter, List.forall_mem_cons]
  exact ⟨⟨hno, by decide⟩, ⟨hone _ _, by decide⟩, ⟨readsCounted_cmdReset, by decide⟩,
    ⟨hone _ _, by decide⟩, ⟨readsCounted_cmdConfig, by decide⟩, ⟨hone _ _, by decide⟩,
    ⟨readsCounted_cmdTransform, by decide⟩, ⟨hone _ _, by decide⟩, ⟨hno, by decide⟩,
    ⟨hno, by decide⟩, ⟨hno, by decide⟩, ⟨readsCounted_cmdColor, by decide⟩, by simp⟩

/-- Every command but `trace` reads what is counted and nothing else. -/
theorem trace_or_readsCounted {board : Board} {c : VnaShellCommand} (h : c ∈ commands board) :
    c.scFunction = cmdTrace ∧ c.scName = "trace" ∨
      ReadsCounted c.scFunction ∧ c.scName ≠ "trace" := by
  obtain h | h := List.mem_append.mp h
  · obtain h | h := List.mem_append.mp h
    · exact readsCounted_commandsBefore board c h
    · exact .inr (readsCounted_remoteCommands board c h)
  · exact .inr (readsCounted_commandsAfter c h)

theorem getStrIndex_logmag : getStrIndex "logmag".toList cmdTypeList = some 0 := by decide +kernel

theorem getStrIndex_empty : getStrIndex [] cmdTypeList = none := by decide +kernel

def ReadsBehind (c : VnaShellCommand) (argc : Nat) (argv : Nat → Arg) : Prop :=
  c.scName = "trace" ∧ argc = 1 ∧ traceNumber (argv 0) < tracesMax

instance (c : VnaShellCommand) (argc : Nat) (argv : Nat → Arg) :
    Decidable (ReadsBehind c argc argv) :=
  inferInstanceAs (Decidable (_ ∧ _ ∧ _))

theorem reads_counted_iff {board : Board} {c : VnaShellCommand} (h : c ∈ commands board)
    (argc : Nat) (argv : Nat → Arg) :
    (∀ argv', (∀ k < argc, argv' k = argv k) → c.scFunction argc argv' = c.scFunction argc argv) ↔
      ¬ ReadsBehind c argc argv := by
  obtain ⟨htrace, hname⟩ | ⟨hreads, hname⟩ := trace_or_readsCounted h
  · rw [htrace]
    constructor
    · rintro hsame ⟨-, rfl, ht⟩
      have hbehind : ∀ word : Arg, cmdTrace 1 argv =
          match getStrIndex word cmdTypeList with
          | none => .nothing
          | some type => .traceType (traceNumber (argv 0)) type := by
        intro word
        obtain ⟨argv', hfirst, hnext⟩ : ∃ argv' : Nat → Arg, argv' 0 = argv 0 ∧ argv' 1 = word :=
          ⟨fun k => if k = 0 then argv 0 else word, if_pos rfl, if_neg Nat.one_ne_zero⟩
        have hword := hsame argv' fun k hk => by rw [Nat.lt_one_iff.mp hk, hfirst]
        have hcall := @cmdTrace_of_behind argv' (by rwa [hfirst])
        rw [hfirst, hnext] at hcall
        exact hword.symm.trans hcall
      have hlogmag := hbehind "logmag".toList
      have hempty := hbehind []
      rw [getStrIndex_logmag] at hlogmag
      rw [getStrIndex_empty] at hempty
      cases hlogmag.symm.trans hempty
    · intro hnot argv' hargv
      by_cases hone : argc = 1
      · subst hone
        have ht : tracesMax ≤ traceNumber (argv 0) :=
          Nat.not_lt.mp fun ht => hnot ⟨hname, rfl, ht⟩
        have ht' : tracesMax ≤ traceNumber (argv' 0) := by rwa [hargv 0 (by decide)]
        rw [cmdTrace_eq_nothing ht, cmdTrace_eq_nothing ht']
      · exact cmdTrace_reads hone hargv
  · exact ⟨fun _ hb => hname hb.1, fun _ argv' hargv => hreads argc argv argv' hargv⟩

end NanoVNA.ShellCommands
