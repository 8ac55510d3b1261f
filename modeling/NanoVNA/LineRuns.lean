import Mathlib.Data.List.TakeWhile
import NanoVNA.LinePointers

namespace NanoVNA.LineRuns

open NanoVNA.ShellArguments NanoVNA.LineParser NanoVNA.ArgumentBuffer NanoVNA.LineWrites
  NanoVNA.LinePointers

def runs (line : List Char) : List (List Char) := (line.splitOnP isBlank).filter (· ≠ [])

example : runs "\tscan  1 2 ".toList = ["scan".toList, "1".toList, "2".toList] := by decide

/-- The parser counts as many arguments as the line has runs, up to the limit, and its pointers lead
to the first runs in order, each with a zero behind it. -/
def ParsesRuns (maxCnt : Int) (line : List Char) : Prop :=
  ∃ t, parseLineIn maxCnt (line ++ [nul]) = some t ∧
    (t.found.nargs : Int) = min maxCnt (runs line).length ∧
    ∀ j < t.found.nargs, ∃ p, t.found.args j = some p ∧ nul ∈ t.memory.drop p ∧
      (runs line)[j]? = some (textAt t.memory p)

variable {b : Char} {line word : List Char}

theorem runs_append_blank (hb : isBlank b = true) (front line : List Char) :
    runs (front ++ b :: line) = runs front ++ runs line := by
  rw [runs, List.splitOnP_append_cons front line hb, List.filter_append]
  rfl

theorem runs_blank (hb : isBlank b = true) (line : List Char) : runs (b :: line) = runs line :=
  runs_append_blank hb [] line

theorem runs_word (hne : word ≠ []) (hword : ∀ x ∈ word, isBlank x = false) :
    runs word = [word] := by
  rw [runs, List.splitOnP_eq_singleton hword, List.filter_cons, decide_eq_true hne]
  rfl

structure Unquoted (line : List Char) : Prop where
  nul : ∀ x ∈ line, x ≠ nul
  quote : ∀ x ∈ line, x ≠ '"'

theorem Unquoted.of_subset {shorter : List Char} (h : Unquoted line) (hsub : shorter ⊆ line) :
    Unquoted shorter :=
  ⟨fun x hx => h.nul x (hsub hx), fun x hx => h.quote x (hsub hx)⟩

theorem Unquoted.cases (h : Unquoted line) : line = [] ∨
    (∃ b rest, isBlank b = true ∧ line = b :: rest) ∨
    ∃ c word rest, (∀ x ∈ c :: word, Plain x) ∧ line = c :: word ++ rest ∧
      (rest = [] ∨ ∃ b more, isBlank b = true ∧ rest = b :: more) := by
  cases line with
  | nil => exact Or.inl rfl
  | cons c line =>
    cases hc : isBlank c with
    | true => exact Or.inr (Or.inl ⟨c, line, hc, rfl⟩)
    | false =>
      refine Or.inr (Or.inr
        ⟨c, line.takeWhile (!isBlank ·), line.dropWhile (!isBlank ·), ?_, ?_, ?_⟩)
      · intro x hx
        have hmem : x ∈ c :: line := by
          obtain rfl | hx := List.mem_cons.mp hx
          · exact List.mem_cons_self
          · exact List.mem_cons_of_mem _ ((List.takeWhile_sublist _).subset hx)
        refine ⟨?_, h.nul x hmem, h.quote x hmem⟩
        obtain rfl | hx := List.mem_cons.mp hx
        · exact hc
        · simpa using List.mem_takeWhile_imp hx
      · rw [List.cons_append, List.takeWhile_append_dropWhile]
      · cases hrest : line.dropWhile (!isBlank ·) with
        | nil => exact Or.inl rfl
        | cons b more =>
          have hb := List.head?_dropWhile_not (!isBlank ·) line
          rw [hrest] at hb
          exact Or.inr ⟨b, more, by simpa using hb, rfl⟩

theorem parseLine_runs (h : Unquoted line) (room : Nat) :
    parseLine room (line ++ [nul]) = (runs line).take room := by
  induction hn : line.length using Nat.strongRecOn generalizing line room with
  | ind n ih =>
    obtain rfl | ⟨b, rest, hb, rfl⟩ | ⟨c, word, rest, hword, rfl, hrest⟩ := h.cases
    · rw [List.nil_append, parseLine_nul]
      exact List.take_nil.symm
    · have htail := ih rest.length (by rw [← hn]; exact Nat.lt_succ_self _)
        (h.of_subset (List.subset_cons_self b rest)) room rfl
      rw [List.cons_append, parseLine_blank hb, runs_blank hb, htail]
    · have hrun := runs_word (List.cons_ne_nil c word) fun x hx => (hword x hx).1
      cases room with
      | zero => rw [parseLine, List.take_zero]
      | succ room =>
        obtain rfl | ⟨b, more, hb, rfl⟩ := hrest
        · rw [List.append_nil, parseLine_word hword ends_nul, parseLine_nul, hrun,
            List.take_succ_cons, List.take_nil]
        · have hlength : more.length < n := by
            rw [← hn, List.length_append, List.length_cons, List.length_cons]
            omega
          have hsub : more ⊆ c :: word ++ b :: more := fun x hx =>
            List.mem_append_right _ (List.mem_cons_of_mem b hx)
          have htail := ih more.length hlength (h.of_subset hsub) room rfl
          have hsplit : c :: word ++ b :: more ++ [nul] = c :: word ++ b :: (more ++ [nul]) :=
            List.append_assoc ..
          rw [hsplit, parseLine_word hword (Or.inl hb),
            parseLine_blank hb, htail, runs_append_blank hb, hrun, List.singleton_append,
            List.take_succ_cons]

theorem within_unquoted (h : Unquoted line) (room : Nat) : within room line = true := by
  induction room using Nat.strongRecOn generalizing line with
  | ind room ih =>
    rw [within]
    cases hd : line.dropWhile isBlank with
    | nil => rfl
    | cons c rest =>
      have hsub : c :: rest ⊆ line := by
        rw [← hd]
        exact (List.dropWhile_sublist isBlank).subset
      have hc : c ≠ '"' := h.quote c (hsub List.mem_cons_self)
      have hstart : argumentStart c rest = c :: rest := if_neg hc
      dsimp only
      rw [hstart]
      cases hend : (c :: rest).dropWhile (· ∉ breaks c) with
      | nil => exact decide_eq_true (List.cons_ne_nil c rest)
      | cons d more =>
        have hmore : more ⊆ line := by
          intro x hx
          refine hsub ((List.dropWhile_sublist (· ∉ breaks c)).subset ?_)
          rw [hend]
          exact List.mem_cons_of_mem d hx
        cases room with
        | zero => rfl
        | succ room =>
          dsimp only
          rw [if_neg fun hq => hc hq.1]
          exact ih room (Nat.lt_succ_self room)
            (h.of_subset fun x hx => hmore ((List.drop_sublist _ more).subset hx))

theorem length_runs_le (line : List Char) : (runs line).length ≤ line.length + 1 := by
  refine Nat.le_trans (List.length_filter_le _ _) ?_
  induction line with
  | nil => exact Nat.le_refl _
  | cons c line ih =>
    rw [List.splitOnP_cons_eq_if_modifyHead, List.length_cons]
    split
    · exact Nat.succ_le_succ ih
    · rw [List.length_modifyHead]
      exact Nat.le_succ_of_le ih

theorem nargs_foldl (places : List Nat) {a : Args} (ha : a.nargs < 2 ^ 16) :
    (places.foldl Args.store a).nargs = (a.nargs + places.length) % 2 ^ 16 := by
  induction places generalizing a with
  | nil => exact (Nat.mod_eq_of_lt ha).symm
  | cons p places ih =>
    have hstored : (a.store p).nargs = (a.nargs + 1) % 2 ^ 16 := rfl
    rw [List.foldl_cons, ih (Nat.mod_lt _ (by decide)), hstored, List.length_cons]
    omega

theorem args_foldl {places : List Nat} {a : Args} (hfew : a.nargs + places.length < 2 ^ 16) :
    (∀ j < a.nargs, (places.foldl Args.store a).args j = a.args j) ∧
      ∀ i p, places[i]? = some p → (places.foldl Args.store a).args (a.nargs + i) = some p := by
  induction places generalizing a with
  | nil => exact ⟨fun _ _ => rfl, fun i p hp => by cases hp⟩
  | cons q places ih =>
    rw [List.length_cons] at hfew
    have hstored : (a.store q).nargs = a.nargs + 1 := Nat.mod_eq_of_lt (by omega)
    obtain ⟨hold, hnew⟩ := ih (by rw [hstored]; omega)
    rw [hstored] at hold hnew
    refine ⟨fun j hj => ?_, fun i p hp => ?_⟩
    · rw [List.foldl_cons, hold j (by omega)]
      exact Function.update_of_ne (Nat.ne_of_lt hj) _ _
    · cases i with
      | zero =>
        cases hp
        rw [List.foldl_cons, hold _ (by omega)]
        exact Function.update_self ..
      | succ i =>
        have hplace := hnew i p hp
        rwa [Nat.add_assoc, Nat.add_comm 1] at hplace

section Run

variable {maxCnt : Int} (hmax : 0 < maxCnt) (h : Unquoted line)

include hmax h

theorem parseLineIn_runs : ∃ (places : List Nat) (lp : Nat),
    parseLineIn maxCnt (line ++ [nul]) =
      some ⟨(parseFrom (roomOf maxCnt line) 0 (line ++ [nul])).2, lp,
        places.foldl Args.store ⟨0, fun _ => none⟩⟩ ∧
      places.map (textAt (parseFrom (roomOf maxCnt line) 0 (line ++ [nul])).2) =
        (runs line).take (roomOf maxCnt line) := by
  have hspec := parseLineIn_spec hmax h.nul
  rw [if_pos (within_unquoted h _)] at hspec
  obtain ⟨lp, hparse⟩ := hspec
  obtain ⟨-, htexts⟩ := parseFrom_spec (roomOf maxCnt line) 0 (line ++ [nul])
  rw [parseLine_runs h] at htexts
  exact ⟨_, lp, hparse, htexts⟩

theorem not_parsesRuns (hlimit : (2 : Int) ^ 16 ≤ maxCnt) (hruns : 2 ^ 16 ≤ (runs line).length) :
    ¬ ParsesRuns maxCnt line := by
  obtain ⟨places, lp, hparse, -⟩ := parseLineIn_runs hmax h
  intro ⟨t, ht, hnargs, _⟩
  rw [hparse] at ht
  cases ht
  have hlt : (places.foldl Args.store ⟨0, fun _ => none⟩).nargs < 2 ^ 16 := by
    rw [nargs_foldl places (by decide)]
    exact Nat.mod_lt _ (by decide)
  dsimp only at hnargs
  omega

theorem parsesRuns (hfew : maxCnt < 2 ^ 16 ∨ (runs line).length < 2 ^ 16) :
    ParsesRuns maxCnt line := by
  obtain ⟨places, lp, hparse, htexts⟩ := parseLineIn_runs hmax h
  have hcount : (places.length : Int) = min maxCnt (runs line).length := by
    have hlength := congrArg List.length htexts
    have hle := length_runs_le line
    rw [List.length_map, List.length_take, roomOf] at hlength
    split at hlength <;> omega
  have hnargs : (places.foldl Args.store ⟨0, fun _ => none⟩).nargs = places.length := by
    rw [nargs_foldl places (by decide), Nat.zero_add]
    exact Nat.mod_eq_of_lt (by omega)
  refine ⟨_, hparse, ?_, fun j hj => ?_⟩
  · dsimp only
    rw [hnargs, hcount]
  · dsimp only at hj ⊢
    rw [hnargs] at hj
    have hplace := List.getElem?_eq_getElem hj
    have hstored := (@args_foldl places ⟨0, fun _ => none⟩ (by dsimp only; omega)).2 j _ hplace
    rw [Nat.zero_add] at hstored
    refine ⟨_, hstored, ?_, ?_⟩
    · have hpointed := parseLineIn_pointed hparse j _ hstored
      have hnul := @parseFrom_nul (line ++ [nul]) (roomOf maxCnt line) 0 line.length (by simp)
      rw [List.mem_iff_getElem?]
      refine ⟨line.length - places[j], ?_⟩
      rw [List.getElem?_drop, Nat.add_sub_cancel' hpointed, hnul]
    · have hroom : j < roomOf maxCnt line := by
        have hlength := congrArg List.length htexts
        rw [List.length_map, List.length_take] at hlength
        omega
      have htext := congrArg (·[j]?) htexts
      rw [List.getElem?_map, hplace, List.getElem?_take_of_lt hroom] at htext
      exact htext.symm

end Run

/-- The parser splits a line without quotes into its runs exactly when the limit or the number of
runs fits the 16 bits of its counter. -/
theorem parses_runs_iff {maxCnt : Int} (hmax : 1 ≤ maxCnt) {line : List Char}
    (hline : ∀ x ∈ line, x ≠ nul) (hquote : ∀ x ∈ line, x ≠ '"') :
    ParsesRuns maxCnt line ↔ maxCnt < 2 ^ 16 ∨ (runs line).length < 2 ^ 16 := by
  have hmax : 0 < maxCnt := by omega
  constructor
  · intro h
    by_contra hmany
    rw [not_or, Int.not_lt, Nat.not_lt] at hmany
    exact not_parsesRuns hmax ⟨hline, hquote⟩ hmany.1 hmany.2 h
  · exact parsesRuns hmax ⟨hline, hquote⟩

/-- More words than are asked for. -/
theorem parses_runs_iff_words : ParsesRuns 2 " a b\tc d".toList := by
  have hline : ∀ x ∈ " a b\tc d".toList, x ≠ nul := by simp [nul]
  exact (parses_runs_iff (by decide) hline (by simp)).mpr (Or.inl (by decide))

theorem unquoted_replicate (n : Nat) : Unquoted (List.replicate n ['a', ' ']).flatten := by
  have hmem : ∀ x ∈ (List.replicate n ['a', ' ']).flatten, x = 'a' ∨ x = ' ' := by
    intro x hx
    obtain ⟨word, hword, hx⟩ := List.mem_flatten.mp hx
    rw [(List.mem_replicate.mp hword).2] at hx
    simpa using hx
  refine ⟨fun x hx => ?_, fun x hx => ?_⟩ <;>
    obtain rfl | rfl := hmem x hx <;> decide

theorem runs_replicate (n : Nat) :
    runs (List.replicate n ['a', ' ']).flatten = List.replicate n ['a'] := by
  induction n with
  | zero => rfl
  | succ n ih =>
    have hcut : ['a', ' '] ++ (List.replicate n ['a', ' ']).flatten =
      ['a'] ++ ' ' :: (List.replicate n ['a', ' ']).flatten := rfl
    rw [List.replicate_succ, List.flatten_cons, hcut, runs_append_blank rfl, ih,
      List.replicate_succ]
    rfl

/-- A line of 65536 words. -/
theorem not_parses_runs : ¬ ParsesRuns 65536 (List.replicate 65536 ['a', ' ']).flatten := by
  refine not_parsesRuns (by decide) (unquoted_replicate 65536) (by decide) ?_
  rw [runs_replicate]
  exact Nat.le_of_eq List.length_replicate.symm

end NanoVNA.LineRuns
