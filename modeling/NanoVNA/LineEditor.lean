import Mathlib.Data.List.Induction
import NanoVNA.Numerals

namespace NanoVNA.LineEditor

def carriageReturn : UInt8 := 0x0d

def lineFeed : UInt8 := 0x0a

def isEnd (c : UInt8) : Bool := c = carriageReturn ∨ c = lineFeed

def isErase (c : UInt8) : Bool := c = 0x08 ∨ c = 0x7f

def backspace : List UInt8 := [0x08, 0x20, 0x08, 0x00]

def newline : List UInt8 := [carriageReturn, lineFeed]

/-- `shell_skip_linefeed`, what `shell_read` still gets, and what the shell has written. -/
structure Shell where
  skipLinefeed : Bool
  input : List UInt8
  output : List UInt8

/-- The loop of `vna_shell_read_line`: whether it has a line, the buffer, and what it leaves. The
place in the buffer has 16 bits. -/
def readLoop (maxSize : Nat) :
    List UInt8 → Bool → List UInt8 → List UInt8 → Nat → Bool × List UInt8 × Shell
  | [], skip, output, line, _ => (false, line, ⟨skip, [], output⟩)
  | c :: input, skip, output, line, j =>
    if skip = true ∧ c = lineFeed then readLoop maxSize input false output line j
    else if isErase c then
      if 0 < j then readLoop maxSize input false (output ++ backspace) line (j - 1)
      else readLoop maxSize input false output line j
    else if isEnd c then
      (true, line.set j 0, ⟨decide (c = carriageReturn), input, output ++ newline⟩)
    else if c < 0x20 ∨ maxSize ≤ j + 1 then readLoop maxSize input false output line j
    else readLoop maxSize input false (output ++ [c]) (line.set j c) ((j + 1) % 2 ^ 16)

def vnaShellReadLine (maxSize : Nat) (line : List UInt8) (shell : Shell) :
    Bool × List UInt8 × Shell :=
  readLoop maxSize shell.input shell.skipLinefeed shell.output line 0

/-- The buffers that calls in turn leave, where they return a line. What is in a buffer before its
call is arbitrary. -/
def readLines (maxSize : Nat) : List (List UInt8) → Shell → List (Option (List UInt8))
  | [], _ => []
  | line :: buffers, shell =>
    let (done, line, shell) := vnaShellReadLine maxSize line shell
    (if done then some line else none) :: readLines maxSize buffers shell

def edit (room : Nat) (text : List UInt8) (c : UInt8) : List UInt8 :=
  if isErase c then text.dropLast
  else if c < 0x20 ∨ room ≤ text.length then text
  else text ++ [c]

def edited (room : Nat) (piece : List UInt8) : List UInt8 := piece.foldl (edit room) []

/-- A CRLF pair counts once. -/
def joinPairs : List UInt8 → List UInt8
  | [] => []
  | c :: rest =>
    if c = carriageReturn ∧ rest.head? = some lineFeed then joinPairs rest
    else c :: joinPairs rest

def behind (skip : Bool) (stream : List UInt8) : List UInt8 :=
  if skip = true ∧ stream.head? = some lineFeed then stream.tail else stream

def pieces (skip : Bool) (stream : List UInt8) : List (List UInt8) :=
  ((joinPairs (behind skip stream)).splitOnP isEnd).dropLast

structure Holds (maxSize : Nat) (line text : List UInt8) : Prop where
  length : line.length = maxSize
  short : text.length < maxSize
  text : line.takeWhile (· ≠ 0) = text

def ReadsLines (maxSize : Nat) (skip : Bool) (stream : List UInt8) : Prop :=
  ∀ buffers output, (∀ line ∈ buffers, line.length = maxSize) → ∀ i < buffers.length, ∃ result,
    (readLines maxSize buffers ⟨skip, stream, output⟩)[i]? = some result ∧
      Option.Rel (Holds maxSize) result (((pieces skip stream).map (edited (maxSize - 1)))[i]?)

/-- The text has 65536 characters at some time, and is not empty after that. -/
def Overruns (room : Nat) (piece : List UInt8) : Prop :=
  ∃ front, front <+: piece ∧ 2 ^ 16 ≤ (edited room front).length ∧
    ∀ longer, front <+: longer → longer <+: piece → edited room longer ≠ []

example : readLines 4 [[9, 9, 9, 9], [9, 9, 9, 9]]
    ⟨true, [10, 97, 8, 98, 99, 100, 101, 13, 10, 10], []⟩ =
      [some [98, 99, 100, 0], some [0, 9, 9, 9]] := by decide

example : pieces true [10, 97, 8, 98, 99, 100, 101, 13, 10, 10, 97] =
    [[97, 8, 98, 99, 100, 101], []] := by decide

section Edit

variable {room : Nat} {piece : List UInt8} {c : UInt8}

theorem edited_concat (room : Nat) (piece : List UInt8) (c : UInt8) :
    edited room (piece ++ [c]) = edit room (edited room piece) c := by
  rw [edited, edited, List.foldl_append]
  rfl

theorem overruns_concat : Overruns room (piece ++ [c]) ↔ edited room (piece ++ [c]) ≠ [] ∧
    (Overruns room piece ∨ 2 ^ 16 ≤ (edited room (piece ++ [c])).length) := by
  constructor
  · intro ⟨front, hfront, hlong, hstays⟩
    refine ⟨hstays _ hfront (List.prefix_refl _), ?_⟩
    obtain rfl | hfront := List.prefix_concat_iff.mp hfront
    · exact Or.inr hlong
    · exact Or.inl ⟨front, hfront, hlong, fun longer h h' =>
        hstays longer h (h'.trans (List.prefix_append _ _))⟩
  · intro ⟨hne, h⟩
    obtain ⟨front, hfront, hlong, hstays⟩ | hlong := h
    · refine ⟨front, hfront.trans (List.prefix_append _ _), hlong, fun longer h h' => ?_⟩
      obtain rfl | h' := List.prefix_concat_iff.mp h'
      · exact hne
      · exact hstays longer h h'
    · refine ⟨_, List.prefix_refl _, hlong, fun longer h h' => ?_⟩
      obtain rfl := h.eq_of_length (Nat.le_antisymm h.length_le h'.length_le)
      exact hne

theorem length_edited_le (room : Nat) (piece : List UInt8) :
    (edited room piece).length ≤ room := by
  induction piece using List.reverseRecOn with
  | nil => exact Nat.zero_le _
  | append_singleton piece c ih =>
    rw [edited_concat, edit]
    split
    · rw [List.length_dropLast]
      omega
    · split
      · exact ih
      · rw [List.length_append, List.length_singleton]
        omega

/-- Only a line of 65536 characters or more loses its text. -/
theorem Overruns.room_le (h : Overruns room piece) : 2 ^ 16 ≤ room := by
  obtain ⟨front, -, hlong, -⟩ := h
  exact Nat.le_trans hlong (length_edited_le room front)

end Edit

/-- The buffer in a call that has read the piece. From the first overrun on, the place in the buffer
is behind the end of the text. -/
structure Editing (maxSize : Nat) (line : List UInt8) (j : Nat) (piece : List UInt8) : Prop where
  length : line.length = maxSize
  bound : j < 2 ^ 16
  inside : j < maxSize
  chars : ∀ x ∈ line.take j, x ≠ 0
  kept : ¬ Overruns (maxSize - 1) piece → line.take j = edited (maxSize - 1) piece
  lost : Overruns (maxSize - 1) piece → j < (edited (maxSize - 1) piece).length

section Keys

variable {maxSize j : Nat} {line piece : List UInt8} {c : UInt8}

theorem editing_start (hsize : 1 ≤ maxSize) (hlength : line.length = maxSize) :
    Editing maxSize line 0 [] := by
  have hover : ¬ Overruns (maxSize - 1) [] := by
    intro ⟨front, hfront, hlong, _⟩
    rw [List.prefix_nil.mp hfront] at hlong
    exact Nat.not_le.mpr (show 0 < 2 ^ 16 by decide) hlong
  refine ⟨hlength, by decide, hsize, fun x hx => ?_, fun _ => ?_, fun h => absurd h hover⟩
  · rw [List.take_zero] at hx
    cases hx
  · rw [List.take_zero]
    rfl

theorem Editing.length_kept (h : Editing maxSize line j piece)
    (hkept : ¬ Overruns (maxSize - 1) piece) : (edited (maxSize - 1) piece).length = j := by
  rw [← h.kept hkept, List.length_take, h.length]
  have hinside := h.inside
  omega

theorem Editing.erase (h : Editing maxSize line j piece) (hc : isErase c = true) :
    Editing maxSize line (j - 1) (piece ++ [c]) := by
  have hnew : edited (maxSize - 1) (piece ++ [c]) = (edited (maxSize - 1) piece).dropLast := by
    rw [edited_concat, edit, if_pos hc]
  have hbound := h.bound
  have hinside := h.inside
  refine ⟨h.length, by omega, by omega, fun x hx => ?_, fun hkept => ?_, fun hover => ?_⟩
  · exact h.chars x (List.take_subset_take_left line (Nat.sub_le j 1) hx)
  · rw [overruns_concat, hnew] at hkept
    rw [hnew]
    by_cases hover : Overruns (maxSize - 1) piece
    · have hlost := h.lost hover
      have hempty : (edited (maxSize - 1) piece).dropLast = [] := by
        by_contra hne
        exact hkept ⟨hne, Or.inl hover⟩
      have hlength := congrArg List.length hempty
      rw [List.length_dropLast, List.length_nil] at hlength
      have hj : j = 0 := by omega
      rw [hempty, hj]
      rfl
    · have hlength := h.length
      rw [← h.kept hover, List.dropLast_eq_take, List.length_take, List.take_take, hlength]
      congr 1
      omega
  · rw [overruns_concat, hnew] at hover
    obtain ⟨hne, hover⟩ := hover
    rw [hnew]
    have hpos := List.length_pos_iff.mpr hne
    rw [List.length_dropLast] at hpos ⊢
    by_cases hbefore : Overruns (maxSize - 1) piece
    · have hlost := h.lost hbefore
      omega
    · have hlong := hover.resolve_left hbefore
      have hlength := h.length_kept hbefore
      rw [List.length_dropLast] at hlong
      omega

theorem Editing.ignore (h : Editing maxSize line j piece) (hc : isErase c = false)
    (hignored : c < 0x20 ∨ maxSize ≤ j + 1) : Editing maxSize line j (piece ++ [c]) := by
  have hbound := h.bound
  have hinside := h.inside
  have hlost := h.lost
  have hnew : edited (maxSize - 1) (piece ++ [c]) = edited (maxSize - 1) piece := by
    rw [edited_concat, edit, hc, if_neg (by decide), if_pos]
    refine hignored.imp_right fun hfull => ?_
    by_cases hover : Overruns (maxSize - 1) piece
    · have hlong := hlost hover
      omega
    · rw [h.length_kept hover]
      omega
  have hover : Overruns (maxSize - 1) (piece ++ [c]) ↔ Overruns (maxSize - 1) piece := by
    rw [overruns_concat, hnew]
    constructor
    · rintro ⟨-, hover | hlong⟩
      · exact hover
      · by_contra hkept
        rw [h.length_kept hkept] at hlong
        omega
    · intro hover
      exact ⟨List.length_pos_iff.mp (Nat.zero_lt_of_lt (hlost hover)), Or.inl hover⟩
  refine ⟨h.length, hbound, hinside, h.chars, ?_, ?_⟩
  · rw [hover, hnew]
    exact h.kept
  · rw [hover, hnew]
    exact hlost

theorem take_set_succ {α : Type} {l : List α} {i : Nat} (hi : i < l.length) (a : α) :
    (l.set i a).take (i + 1) = l.take i ++ [a] := by
  rw [List.take_add_one, List.take_set_of_le (Nat.le_refl i), List.getElem?_set_self hi]
  rfl

theorem Editing.append (h : Editing maxSize line j piece) (hc : isErase c = false)
    (hprint : ¬ c < 0x20) (hroom : ¬ maxSize ≤ j + 1) :
    Editing maxSize (line.set j c) ((j + 1) % 2 ^ 16) (piece ++ [c]) := by
  have hbound := h.bound
  have hinside : j < line.length := by
    rw [h.length]
    exact h.inside
  have hnew : edited (maxSize - 1) (piece ++ [c]) =
      if maxSize - 1 ≤ (edited (maxSize - 1) piece).length then edited (maxSize - 1) piece
      else edited (maxSize - 1) piece ++ [c] := by
    rw [edited_concat, edit, hc, if_neg (by decide)]
    simp only [hprint, false_or]
  have hstored : ∀ x ∈ (line.set j c).take (j + 1), x ≠ 0 := by
    intro x hx
    rw [take_set_succ hinside, List.mem_append, List.mem_singleton] at hx
    obtain hx | rfl := hx
    · exact h.chars x hx
    · rintro rfl
      exact hprint (by decide)
  have hmod : (j + 1) % 2 ^ 16 ≤ j + 1 := Nat.mod_le _ _
  refine ⟨by rw [List.length_set, h.length], Nat.mod_lt _ (by decide), by omega, fun x hx => ?_,
    fun hkept => ?_, fun hover => ?_⟩
  · exact hstored x (List.take_subset_take_left _ hmod hx)
  · have hbefore : ¬ Overruns (maxSize - 1) piece := by
      intro hbefore
      refine hkept (overruns_concat.mpr ⟨?_, Or.inl hbefore⟩)
      have hlost := h.lost hbefore
      rw [hnew]
      split
      · exact List.length_pos_iff.mp (by omega)
      · exact List.append_ne_nil_of_right_ne_nil _ (List.cons_ne_nil c [])
    have hlength := h.length_kept hbefore
    rw [hlength, if_neg (by omega)] at hnew
    have hshort : j + 1 < 2 ^ 16 := by
      by_contra hlong
      refine hkept (overruns_concat.mpr ⟨?_, Or.inr ?_⟩)
      · rw [hnew]
        exact List.append_ne_nil_of_right_ne_nil _ (List.cons_ne_nil c [])
      · rw [hnew, List.length_append, List.length_singleton, hlength]
        omega
    rw [Nat.mod_eq_of_lt hshort, take_set_succ hinside, hnew, h.kept hbefore]
  · have hroom := hover.room_le
    obtain ⟨hne, hover⟩ := overruns_concat.mp hover
    by_cases hbefore : Overruns (maxSize - 1) piece
    · have hlost := h.lost hbefore
      rw [hnew]
      split
      · omega
      · rw [List.length_append, List.length_singleton]
        omega
    · have hlong := hover.resolve_left hbefore
      have hlength := h.length_kept hbefore
      omega

theorem isEnd_of_isErase (hc : isErase c = true) : isEnd c = false := by
  rw [isErase, decide_eq_true_eq] at hc
  obtain rfl | rfl := hc <;> decide

theorem readLoop_key (h : Editing maxSize line j piece) (hc : isEnd c = false)
    (input output : List UInt8) : ∃ line' j' output',
      readLoop maxSize (c :: input) false output line j =
        readLoop maxSize input false output' line' j' ∧
      Editing maxSize line' j' (piece ++ [c]) := by
  rw [readLoop, if_neg fun hskip => absurd hskip.1 (by decide), hc]
  cases herase : isErase c with
  | true =>
    rw [if_pos rfl]
    split
    · exact ⟨line, j - 1, _, rfl, h.erase herase⟩
    next hj =>
      obtain rfl : j = 0 := Nat.eq_zero_of_not_pos hj
      exact ⟨line, 0, _, rfl, h.erase herase⟩
  | false =>
    rw [if_neg (by decide), if_neg (by decide)]
    split
    next hignored => exact ⟨line, j, _, rfl, h.ignore herase hignored⟩
    next hkept =>
      rw [not_or] at hkept
      exact ⟨_, _, _, rfl, h.append herase hkept.1 hkept.2⟩

theorem readLoop_piece {todo : List UInt8} (h : Editing maxSize line j piece)
    (htodo : ∀ c ∈ todo, isEnd c = false) (input output : List UInt8) : ∃ line' j' output',
      readLoop maxSize (todo ++ input) false output line j =
        readLoop maxSize input false output' line' j' ∧
      Editing maxSize line' j' (piece ++ todo) := by
  induction todo generalizing line j piece output with
  | nil =>
    refine ⟨line, j, output, rfl, ?_⟩
    rwa [List.append_nil]
  | cons c todo ih =>
    obtain ⟨line', j', output', hkey, hnext⟩ :=
      readLoop_key h (htodo c List.mem_cons_self) (todo ++ input) output
    obtain ⟨line'', j'', output'', hrest, hlast⟩ :=
      ih hnext (fun x hx => htodo x (List.mem_cons_of_mem c hx)) output'
    refine ⟨line'', j'', output'', hkey.trans hrest, ?_⟩
    rwa [List.append_assoc, List.singleton_append] at hlast

theorem string_set (h : Editing maxSize line j piece) :
    (line.set j 0).takeWhile (· ≠ 0) = line.take j := by
  have hinside : j < line.length := by
    rw [h.length]
    exact h.inside
  have htake := @List.takeWhile_append_of_pos _ (fun x : UInt8 => decide (x ≠ 0)) (line.take j)
    (0 :: line.drop (j + 1)) fun x hx => decide_eq_true (h.chars x hx)
  rw [List.set_eq_take_append_cons_drop, if_pos hinside, htake]
  exact List.append_nil _

theorem holds_iff (h : Editing maxSize line j piece) :
    Holds maxSize (line.set j 0) (edited (maxSize - 1) piece) ↔ ¬ Overruns (maxSize - 1) piece := by
  have hstring := string_set h
  constructor
  · intro hholds hover
    have hlost := h.lost hover
    have hlength := congrArg List.length (hholds.text.symm.trans hstring)
    have htake := List.length_take_le j line
    omega
  · intro hkept
    refine ⟨?_, ?_, hstring.trans (h.kept hkept)⟩
    · rw [List.length_set, h.length]
    · rw [h.length_kept hkept]
      exact h.inside

end Keys

section Stream

variable {maxSize : Nat} {skip : Bool} {stream piece rest : List UInt8} {c : UInt8}

theorem joinPairs_open (hstream : ∀ x ∈ stream, isEnd x = false) : joinPairs stream = stream := by
  induction stream with
  | nil => rfl
  | cons c stream ih =>
    have hc : c ≠ carriageReturn := by
      rintro rfl
      exact absurd (hstream _ List.mem_cons_self) (by decide)
    rw [joinPairs, if_neg fun hpair => hc hpair.1,
      ih fun x hx => hstream x (List.mem_cons_of_mem c hx)]

theorem joinPairs_end (hpiece : ∀ x ∈ piece, isEnd x = false) (hc : isEnd c = true) :
    ∃ d, isEnd d = true ∧ joinPairs (piece ++ c :: rest) =
      piece ++ d :: joinPairs (behind (decide (c = carriageReturn)) rest) := by
  induction piece with
  | nil =>
    have hskip : decide (c = carriageReturn) = true ↔ c = carriageReturn := decide_eq_true_iff
    rw [List.nil_append, joinPairs, behind]
    by_cases hpair : c = carriageReturn ∧ rest.head? = some lineFeed
    · obtain ⟨more, rfl⟩ : ∃ more, rest = lineFeed :: more := by
        cases rest with
        | nil => cases hpair.2
        | cons d more => exact ⟨more, by rw [Option.some.inj hpair.2]⟩
      rw [if_pos hpair, if_pos (hpair.imp_left hskip.mpr), joinPairs,
        if_neg fun h => absurd h.1 (by decide)]
      exact ⟨lineFeed, rfl, rfl⟩
    · rw [if_neg hpair, if_neg fun h => hpair (h.imp_left hskip.mp)]
      exact ⟨c, hc, rfl⟩
  | cons x piece ih =>
    obtain ⟨d, hd, hjoin⟩ := ih fun y hy => hpiece y (List.mem_cons_of_mem x hy)
    have hx : x ≠ carriageReturn := by
      rintro rfl
      exact absurd (hpiece _ List.mem_cons_self) (by decide)
    rw [List.cons_append, joinPairs, if_neg fun hpair => hx hpair.1, hjoin]
    exact ⟨d, hd, rfl⟩

theorem pieces_open (hstream : ∀ x ∈ behind skip stream, isEnd x = false) :
    pieces skip stream = [] := by
  rw [pieces, joinPairs_open hstream, List.splitOnP_eq_singleton hstream]
  rfl

theorem pieces_end (hstream : behind skip stream = piece ++ c :: rest)
    (hpiece : ∀ x ∈ piece, isEnd x = false) (hc : isEnd c = true) :
    pieces skip stream = piece :: pieces (decide (c = carriageReturn)) rest := by
  obtain ⟨d, hd, hjoin⟩ := @joinPairs_end piece rest c hpiece hc
  rw [pieces, hstream, hjoin, List.splitOnP_append_cons_of_forall_mem hpiece d hd,
    List.dropLast_cons_of_ne_nil (List.splitOnP_ne_nil _ _)]
  rfl

theorem readLoop_behind (stream output line : List UInt8) (j : Nat) : ∃ skip',
    (behind skip stream ≠ [] → skip' = false) ∧
      readLoop maxSize stream skip output line j =
        readLoop maxSize (behind skip stream) skip' output line j := by
  cases stream with
  | nil =>
    have hbehind : behind skip [] = [] := by
      rw [behind]
      split <;> rfl
    rw [hbehind]
    exact ⟨skip, fun hne => absurd rfl hne, rfl⟩
  | cons c stream =>
    refine ⟨false, fun _ => rfl, ?_⟩
    by_cases hpair : skip = true ∧ c = lineFeed
    · obtain ⟨rfl, rfl⟩ := hpair
      rfl
    · have hbehind : behind skip (c :: stream) = c :: stream := by
        rw [behind, if_neg fun h => hpair ⟨h.1, Option.some.inj h.2⟩]
      have hnone : ¬ (false = true ∧ c = lineFeed) := fun h => absurd h.1 (by decide)
      rw [hbehind, readLoop, if_neg hpair, readLoop, if_neg hnone]

theorem readLoop_open (hstream : ∀ x ∈ stream, isEnd x = false) (skip : Bool)
    (output line : List UInt8) (j : Nat) : ∃ skip' output' line',
      readLoop maxSize stream skip output line j = (false, line', ⟨skip', [], output'⟩) := by
  induction stream generalizing skip output line j with
  | nil => exact ⟨skip, output, line, rfl⟩
  | cons c stream ih =>
    have hrest := ih fun x hx => hstream x (List.mem_cons_of_mem c hx)
    rw [readLoop, hstream c List.mem_cons_self]
    split
    · exact hrest ..
    split
    · split
      · exact hrest ..
      · exact hrest ..
    rw [if_neg (by decide)]
    split
    · exact hrest ..
    · exact hrest ..

end Stream

section Calls

variable {maxSize : Nat} {skip : Bool} {stream output line : List UInt8}

theorem readLine_spec (hsize : 1 ≤ maxSize) (hlength : line.length = maxSize) :
    (pieces skip stream = [] ∧ ∃ line' skip' output',
      vnaShellReadLine maxSize line ⟨skip, stream, output⟩ = (false, line', ⟨skip', [], output'⟩)) ∨
    ∃ piece skip' rest line' output', pieces skip stream = piece :: pieces skip' rest ∧
      vnaShellReadLine maxSize line ⟨skip, stream, output⟩ =
        (true, line', ⟨skip', rest, output'⟩) ∧
      (Holds maxSize line' (edited (maxSize - 1) piece) ↔ ¬ Overruns (maxSize - 1) piece) := by
  obtain ⟨skip', hskip, hread⟩ := @readLoop_behind maxSize skip stream output line 0
  cases hfind : (behind skip stream).find? isEnd with
  | none =>
    have hopen : ∀ x ∈ behind skip stream, isEnd x = false := fun x hx =>
      Bool.eq_false_iff.mpr (List.find?_eq_none.mp hfind x hx)
    obtain ⟨skip'', output', line', hloop⟩ := @readLoop_open maxSize _ hopen skip' output line 0
    exact Or.inl ⟨pieces_open hopen, line', skip'', output', hread.trans hloop⟩
  | some c =>
    obtain ⟨hc, piece, rest, hsplit, hpiece⟩ := List.find?_eq_some_iff_append.mp hfind
    have hpiece : ∀ x ∈ piece, isEnd x = false := fun x hx => by simpa using hpiece x hx
    obtain rfl := hskip (by rw [hsplit]; exact List.append_ne_nil_of_right_ne_nil _ (by simp))
    obtain ⟨line', j', output', hloop, hediting⟩ :=
      readLoop_piece (editing_start hsize hlength) hpiece (c :: rest) output
    have herase : isErase c = false := by
      cases herase : isErase c with
      | false => rfl
      | true => exact absurd ((isEnd_of_isErase herase).symm.trans hc) (by decide)
    have hend : readLoop maxSize (c :: rest) false output' line' j' =
        (true, line'.set j' 0, ⟨decide (c = carriageReturn), rest, output' ++ newline⟩) := by
      rw [readLoop, if_neg fun h => absurd h.1 (by decide), herase, hc, if_neg (by decide),
        if_pos rfl]
    rw [hsplit, hloop, hend] at hread
    exact Or.inr ⟨piece, _, rest, _, _, pieces_end hsplit hpiece hc, hread, holds_iff hediting⟩

theorem readLines_spec (hsize : 1 ≤ maxSize) {buffers : List (List UInt8)}
    (hbuffers : ∀ line ∈ buffers, line.length = maxSize) {i : Nat} (hi : i < buffers.length) :
    match (pieces skip stream)[i]? with
    | none => (readLines maxSize buffers ⟨skip, stream, output⟩)[i]? = some none
    | some piece => ∃ line,
        (readLines maxSize buffers ⟨skip, stream, output⟩)[i]? = some (some line) ∧
          (Holds maxSize line (edited (maxSize - 1) piece) ↔ ¬ Overruns (maxSize - 1) piece) := by
  induction buffers generalizing skip stream output i with
  | nil => exact absurd hi (Nat.not_lt_zero i)
  | cons line buffers ih =>
    have hrest : ∀ line ∈ buffers, line.length = maxSize := fun x hx =>
      hbuffers x (List.mem_cons_of_mem line hx)
    obtain ⟨hnone, line', skip', output', hread⟩ | ⟨piece, skip', rest, line', output', hpieces,
      hread, hholds⟩ := @readLine_spec maxSize skip stream output line hsize
        (hbuffers line List.mem_cons_self)
    · rw [hnone, readLines, hread]
      cases i with
      | zero => rfl
      | succ i =>
        have hempty : pieces skip' [] = [] := by
          cases skip' <;> rfl
        have htail := @ih skip' [] output' hrest i (Nat.lt_of_succ_lt_succ hi)
        rw [hempty] at htail
        exact htail
    · rw [hpieces, readLines, hread]
      cases i with
      | zero => exact ⟨line', rfl, hholds⟩
      | succ i => exact @ih skip' rest output' hrest i (Nat.lt_of_succ_lt_succ hi)

theorem not_overruns (hsize : 1 ≤ maxSize) (h : ReadsLines maxSize skip stream) :
    ∀ piece ∈ pieces skip stream, ¬ Overruns (maxSize - 1) piece := by
  intro piece hpiece
  obtain ⟨i, hi⟩ := List.mem_iff_getElem?.mp hpiece
  have hbuffers : ∀ line ∈ List.replicate (i + 1) (List.replicate maxSize (0 : UInt8)),
      line.length = maxSize := by
    intro line hline
    rw [(List.mem_replicate.mp hline).2, List.length_replicate]
  have hcalls : i < (List.replicate (i + 1) (List.replicate maxSize (0 : UInt8))).length := by
    rw [List.length_replicate]
    exact Nat.lt_succ_self i
  obtain ⟨result, hresult, hrel⟩ := h _ [] hbuffers i hcalls
  have hspec := @readLines_spec maxSize skip stream [] hsize _ hbuffers i hcalls
  rw [hi] at hspec
  obtain ⟨line, hline, hholds⟩ := hspec
  rw [List.getElem?_map, hi] at hrel
  obtain rfl := Option.some.inj (hresult.symm.trans hline)
  cases hrel with
  | some hheld => exact hholds.mp hheld

theorem readsLines (hsize : 1 ≤ maxSize)
    (h : ∀ piece ∈ pieces skip stream, ¬ Overruns (maxSize - 1) piece) :
    ReadsLines maxSize skip stream := by
  intro buffers output hbuffers i hi
  have hspec := @readLines_spec maxSize skip stream output hsize _ hbuffers i hi
  rw [List.getElem?_map]
  cases hpiece : (pieces skip stream)[i]? with
  | none =>
    rw [hpiece] at hspec
    exact ⟨none, hspec, .none⟩
  | some piece =>
    rw [hpiece] at hspec
    obtain ⟨line, hline, hholds⟩ := hspec
    exact ⟨some line, hline, .some (hholds.mpr (h piece (List.mem_of_getElem? hpiece)))⟩

end Calls

/-- The calls return the lines exactly when no line's text has 65536 characters and stays nonempty
up to the end of the line. -/
theorem reads_lines_iff {maxSize : Nat} (hsize : 1 ≤ maxSize) (skip : Bool)
    (stream : List UInt8) :
    ReadsLines maxSize skip stream ↔
      ∀ piece ∈ pieces skip stream, ¬ Overruns (maxSize - 1) piece :=
  ⟨not_overruns hsize, readsLines hsize⟩

/-- A line feed behind a CR, a deleted character, and two ends of lines. -/
theorem reads_lines_iff_typed : ReadsLines 4 true [10, 104, 101, 127, 108, 111, 13, 10, 10] :=
  (reads_lines_iff (by decide) true _).mpr fun _ _ hover => absurd hover.room_le (by decide)

theorem edited_replicate {room n : Nat} (hn : n ≤ room) :
    edited room (List.replicate n 97) = List.replicate n 97 := by
  induction n with
  | zero => rfl
  | succ n ih =>
    have hroom : ¬ ((97 : UInt8) < 0x20 ∨ room ≤ n) := by
      rw [not_or]
      exact ⟨by decide, by omega⟩
    rw [List.replicate_succ', edited_concat, ih (by omega), edit, if_neg (by decide),
      List.length_replicate, if_neg hroom]

/-- 65536 letters for a buffer that has room for them. -/
theorem not_reads_lines :
    ¬ ReadsLines 65537 false (List.replicate 65536 97 ++ [carriageReturn]) := by
  have hopen : ∀ x ∈ List.replicate 65536 (97 : UInt8), isEnd x = false := by
    intro x hx
    rw [(List.mem_replicate.mp hx).2]
    rfl
  have hbehind : behind false (List.replicate 65536 97 ++ [carriageReturn]) =
      List.replicate 65536 97 ++ carriageReturn :: [] := rfl
  have htext := @edited_replicate 65536 65536 (Nat.le_refl _)
  intro h
  refine not_overruns (by decide) h (List.replicate 65536 97) ?_ ?_
  · rw [pieces_end hbehind hopen rfl]
    exact List.mem_cons_self
  · refine ⟨_, List.prefix_refl _, ?_, fun longer hlonger hwhole => ?_⟩
    · rw [htext]
      exact Nat.le_of_eq List.length_replicate.symm
    · obtain rfl :=
        hlonger.eq_of_length (Nat.le_antisymm hlonger.length_le hwhole.length_le)
      rw [htext]
      exact List.cons_ne_nil 97 (List.replicate 65535 97)

end NanoVNA.LineEditor
