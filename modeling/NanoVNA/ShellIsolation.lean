import NanoVNA.ArgumentBuffer
import NanoVNA.CommandFiles
import NanoVNA.ShellCommands

namespace NanoVNA.ShellIsolation

open NanoVNA.DeviceState NanoVNA.ShellArguments NanoVNA.LineParser NanoVNA.ArgumentBuffer
open NanoVNA.ShellCommands
open NanoVNA.CommandFiles (shellMaxLength)

/-- The entries of `shell_args`: the name and `VNA_SHELL_MAX_ARGUMENTS` arguments. -/
def shellArgs : Nat := 5

/-- A line in `shell_line`, read from the console or, for `load`, from the file `config.ini`;
with what was typed behind it and taken back again. -/
structure Entry where
  load : Bool
  line : List Char
  erased : List Char
  fits : line.length + erased.length < shellMaxLength
  printable : line.all fun c => decide (' ' ≤ c)

theorem Entry.ne_nul (entry : Entry) : ∀ c ∈ entry.line, c ≠ nul := by
  rintro c hc rfl
  exact absurd (of_decide_eq_true (List.all_eq_true.mp entry.printable nul hc)) (by decide)

/-- How the device takes a call, for a line that is loaded or not, with what the command prints; and
the text at the address zero. -/
structure Device (D : Type) where
  perform : Bool → String → Call → D → D × List Char
  nullText : Arg

/-- The memory is that from `shell_line` on, the pointers of `shell_args` are places in it. -/
structure Shell (D : Type) where
  device : D
  memory : List Char
  args : Nat → Option Nat

def fresh {D : Type} (device : D) (behind : List Char) : Shell D :=
  ⟨device, List.replicate shellMaxLength nul ++ behind, fun _ => none⟩

def stale (entry : Entry) (memory : List Char) : List Char :=
  (entry.erased ++ memory.drop (entry.line.length + entry.erased.length)).drop 1

def typed (entry : Entry) (memory : List Char) : List Char :=
  entry.line ++ nul :: stale entry memory

/-- Entries behind the arguments keep their old pointers. -/
def store (places : List Nat) (args : Nat → Option Nat) : Nat → Option Nat :=
  fun k => if h : k < places.length then some places[k] else args k

def argumentAt (nullText : Arg) (memory : List Char) : Option Nat → Arg
  | none => nullText
  | some pos => textAt memory pos

/-- What becomes of the words in the array, of which the first ones are counted. -/
def invoke {D : Type} (board : Board) (dev : Device D) (load : Bool) (nargs : Nat)
    (text : Nat → Arg) (device : D) : D × List Char :=
  if nargs = 0 then (device, [])
  else
    match findCommand board (text 0) with
    | none => (device, if load ∨ text 0 = [] then [] else text 0 ++ "?\r\n".toList)
    | some c =>
      if load ∧ ¬ c.runInLoad then (device, [])
      else
        let r := dev.perform load c.scName (c.scFunction (nargs - 1) fun k => text (k + 1)) device
        (r.1, if load then [] else r.2)

/-- The console's `vna_shell_execute_line`, and `vna_shell_execute_cmd_line` for a loaded line. -/
def execute {D : Type} (board : Board) (dev : Device D) (entry : Entry) (s : Shell D) :
    Shell D × List Char :=
  let parsed := parseFrom shellArgs 0 (typed entry s.memory)
  let args := store parsed.1 s.args
  let r := invoke board dev entry.load parsed.1.length
    (fun k => argumentAt dev.nullText parsed.2 (args k)) s.device
  (⟨r.1, parsed.2, args⟩, r.2)

def run {D : Type} (board : Board) (dev : Device D) (entries : List Entry) (s : Shell D) : Shell D :=
  entries.foldl (fun s entry => (execute board dev entry s).1) s

def ownArguments (line : List Char) : List Arg := parseLine shellArgs (line ++ [nul])

def Holds (args : List Arg) (argv : Nat → Arg) : Prop :=
  ∀ k, ∀ arg ∈ args[k]?, argv k = arg

/-- What a line does is its own: its arguments are, they are all that its command reads, and two
histories that lead to one state of the device make no difference. -/
structure OwnLine (board : Board) (line : List Char) : Prop where
  arguments : ∀ behind, parseLine shellArgs (line ++ nul :: behind) = ownArguments line
  reads : ∀ word args, ownArguments line = word :: args → ∀ c ∈ findCommand board word,
    ∀ argv argv', Holds args argv → Holds args argv' →
      c.scFunction args.length argv' = c.scFunction args.length argv
  effect : ∀ {D : Type} (dev : Device D) (before before' : List Entry) (start start' : D)
    (behind behind' : List Char) (entry entry' : Entry),
    entry.line = line → entry'.line = line → entry.load = entry'.load →
    (run board dev before (fresh start behind)).device =
      (run board dev before' (fresh start' behind')).device →
    let result := execute board dev entry (run board dev before (fresh start behind))
    let result' := execute board dev entry' (run board dev before' (fresh start' behind'))
    result.1.device = result'.1.device ∧ result.2 = result'.2

/-- `trace` with the number of a trace and nothing else. -/
def ShortTrace (board : Board) (line : List Char) : Prop :=
  ∃ word number, ownArguments line = [word, number] ∧
    (∃ c ∈ findCommand board word, c.scName = "trace") ∧ traceNumber number < tracesMax

/-! ### What an execution reads -/

theorem Holds.cons {word : Arg} {args : List Arg} {text : Nat → Arg}
    (h : Holds (word :: args) text) : text 0 = word ∧ Holds args fun k => text (k + 1) :=
  ⟨h 0 word rfl, fun k arg hk => h (k + 1) arg (by rwa [List.getElem?_cons_succ])⟩

theorem Holds.eq {args : List Arg} {argv argv' : Nat → Arg} (h : Holds args argv)
    (h' : Holds args argv') : ∀ k < args.length, argv' k = argv k := by
  intro k hk
  rw [h k args[k] (List.getElem?_eq_getElem hk), h' k args[k] (List.getElem?_eq_getElem hk)]

theorem Holds.exists (args : List Arg) : ∃ argv, Holds args argv :=
  ⟨fun k => args.getD k [], fun k arg hk => by
    simp only [List.getD_eq_getElem?_getD, Option.mem_def.mp hk, Option.getD_some]⟩

theorem holds_execute (nullText : Arg) (memory : List Char) (args : Nat → Option Nat) :
    let parsed := parseFrom shellArgs 0 memory
    Holds (parseLine shellArgs memory) fun k =>
      argumentAt nullText parsed.2 (store parsed.1 args k) := by
  intro parsed k arg hk
  obtain ⟨-, htexts⟩ := parseFrom_spec shellArgs 0 memory
  rw [← htexts, List.getElem?_map] at hk
  obtain ⟨p, hp, rfl⟩ := Option.map_eq_some_iff.mp hk
  obtain ⟨hlt, hp⟩ := List.getElem?_eq_some_iff.mp hp
  have hstore : store parsed.1 args k = some p := by rw [store, dif_pos hlt, hp]
  dsimp only
  rw [hstore, Nat.sub_zero]
  rfl

theorem length_execute (memory : List Char) :
    (parseFrom shellArgs 0 memory).1.length = (parseLine shellArgs memory).length := by
  rw [← (parseFrom_spec shellArgs 0 memory).2, List.length_map]

theorem readsBehind_iff {board : Board} {word : Arg} {args : List Arg} {c : VnaShellCommand}
    {line : List Char} (hargs : ownArguments line = word :: args)
    (hc : c ∈ findCommand board word) {argv : Nat → Arg} (hargv : Holds args argv) :
    ReadsBehind c args.length argv ↔ ShortTrace board line := by
  constructor
  · rintro ⟨hname, hone, ht⟩
    obtain ⟨number, rfl⟩ := List.length_eq_one_iff.mp hone
    rw [hargv 0 number rfl] at ht
    exact ⟨word, number, hargs, ⟨c, hc, hname⟩, ht⟩
  · rintro ⟨word', number, hargs', ⟨c', hc', hname⟩, ht⟩
    obtain ⟨rfl, rfl⟩ := List.cons.inj (hargs.symm.trans hargs')
    obtain rfl := Option.mem_unique hc hc'
    exact ⟨hname, rfl, by rwa [hargv 0 number rfl]⟩

theorem reads_iff {board : Board} {word : Arg} {args : List Arg} {c : VnaShellCommand}
    {line : List Char} (hargs : ownArguments line = word :: args)
    (hc : c ∈ findCommand board word) :
    (∀ argv argv', Holds args argv → Holds args argv' →
      c.scFunction args.length argv' = c.scFunction args.length argv) ↔
      ¬ ShortTrace board line := by
  have hmem := List.mem_of_find?_eq_some hc
  constructor
  · intro hreads
    obtain ⟨argv, hargv⟩ := Holds.exists args
    rw [← readsBehind_iff hargs hc hargv, ← reads_counted_iff hmem]
    intro argv' hsame
    refine hreads argv argv' hargv fun k arg hk => ?_
    rw [hsame k (List.getElem?_eq_some_iff.mp hk).1, hargv k arg hk]
  · intro hshort argv argv' hargv hargv'
    rw [← readsBehind_iff hargs hc hargv, ← reads_counted_iff hmem] at hshort
    exact hshort argv' (hargv.eq hargv')

theorem invoke_eq {D : Type} {board : Board} (dev : Device D) (load : Bool) {line : List Char}
    (hshort : ¬ ShortTrace board line) {text text' : Nat → Arg}
    (htext : Holds (ownArguments line) text) (htext' : Holds (ownArguments line) text')
    (device : D) :
    invoke board dev load (ownArguments line).length text' device =
      invoke board dev load (ownArguments line).length text device := by
  cases hargs : ownArguments line with
  | nil => rfl
  | cons word args =>
    rw [hargs] at htext htext'
    obtain ⟨hword, htext⟩ := htext.cons
    obtain ⟨hword', htext'⟩ := htext'.cons
    have hne : (word :: args).length ≠ 0 := Nat.succ_ne_zero _
    rw [invoke, invoke, if_neg hne, if_neg hne, hword, hword']
    cases hc : findCommand board word with
    | none => rfl
    | some c =>
      have hcall := (reads_iff hargs hc).mpr hshort _ _ htext htext'
      dsimp only
      rw [List.length_cons, Nat.add_sub_cancel, hcall]

theorem execute_eq {D : Type} {board : Board} (dev : Device D) {entry : Entry} {line : List Char}
    (hline : entry.line = line) (hclosed : closed shellArgs line)
    (hshort : ¬ ShortTrace board line) {text : Nat → Arg} (htext : Holds (ownArguments line) text)
    (s : Shell D) :
    ((execute board dev entry s).1.device, (execute board dev entry s).2) =
      invoke board dev entry.load (ownArguments line).length text s.device := by
  subst hline
  have hown : parseLine shellArgs (typed entry s.memory) = ownArguments entry.line :=
    parseLine_closed entry.ne_nul hclosed _
  have hholds := holds_execute dev.nullText (typed entry s.memory) s.args
  have hlength := length_execute (typed entry s.memory)
  rw [hown] at hlength
  dsimp only at hholds
  rw [hown] at hholds
  rw [← invoke_eq dev entry.load hshort htext hholds, ← hlength]
  rfl

/-- The lines that stand on their own. -/
theorem ownLine_iff (board : Board) (entry : Entry) :
    OwnLine board entry.line ↔
      closed shellArgs entry.line ∧ ¬ ShortTrace board entry.line := by
  constructor
  · intro hown
    refine ⟨?_, fun hshort => ?_⟩
    · refine Decidable.of_not_not fun hclosed => ?_
      exact parseLine_not_closed entry.ne_nul hclosed (hown.arguments quoted)
    · obtain ⟨word, number, hargs, ⟨c, hc, -⟩, -⟩ := id hshort
      exact (reads_iff hargs hc).mp (hown.reads word [number] hargs c hc) hshort
  · rintro ⟨hclosed, hshort⟩
    refine ⟨fun behind => parseLine_closed entry.ne_nul hclosed behind,
      fun word args hargs c hc => (reads_iff hargs hc).mpr hshort, ?_⟩
    intro D dev before before' start start' behind behind' first second hfirst hsecond hload hdevice
    obtain ⟨text, htext⟩ := Holds.exists (ownArguments entry.line)
    have hone := execute_eq dev hfirst hclosed hshort htext (run board dev before (fresh start behind))
    have htwo :=
      execute_eq dev hsecond hclosed hshort htext (run board dev before' (fresh start' behind'))
    rw [← hload, ← hdevice, ← hone] at htwo
    exact Prod.mk.inj htwo.symm

def traceDevice : Device Nat where
  perform := fun _ _ call type =>
    match call with
    | .traceType 0 type => (type, [])
    | _ => (type, [])
  nullText := []

def versionSwr : Entry := ⟨false, "version 1 swr".toList, [], by decide, by decide⟩

def versionLogmag : Entry := ⟨false, "version 1 logmag".toList, [], by decide, by decide⟩

def traceZero : Entry := ⟨false, "trace 0".toList, [], by decide, by decide⟩

/-- A short `trace` takes the type from the line before, here `swr` and there `logmag`. -/
theorem trace_zero_follows :
    let swr := run .f072 traceDevice [versionSwr] (fresh 1 [])
    let logmag := run .f072 traceDevice [versionLogmag] (fresh 1 [])
    swr.device = logmag.device ∧
      (execute .f072 traceDevice traceZero swr).1.device = 6 ∧
      (execute .f072 traceDevice traceZero logmag).1.device = 0 := by
  decide +kernel

end NanoVNA.ShellIsolation
