import NanoVNA.CommandNames

namespace NanoVNA.WordLists

open NanoVNA.ShellArguments NanoVNA.LineParser
open NanoVNA.CommandNames (strIndexFrom_bar strIndexFrom_char)

/-- A pointer into a string: the characters that can be read from it on. -/
abbrev Pointer := List Char

structure CString where
  text : List Char
  nul_notMem : nul ∉ text

def CString.memory (s : CString) : Pointer := s.text ++ [nul]

def CString.words (list : CString) : List (List Char) := list.text.splitOn '|'

/-- The comparison of the word with the element `list` points to: whether they are equal, and where
`list` stands after it. A read behind the end of a string gives `none`. -/
def compare : Pointer → Pointer → Option (Bool × Pointer)
  | [], _ => none
  | _ :: _, [] => none
  | l :: list, d :: p =>
    let c := if l = '|' then nul else l
    if c = d then if c = nul then some (true, l :: list) else compare list p
    else some (false, l :: list)

/-- The scan for the next element, `none` inside at the end of the list. -/
def skip : Pointer → Option (Option Pointer)
  | [] => none
  | c :: list => if c = nul then some none else if c = '|' then some (some list) else skip list

/-- The elements one after the other. The number of rounds bounds the outer loop; running out of
it is `none` too. -/
def indexFrom (v : Pointer) : Nat → Pointer → Int → Option Int
  | 0, _, _ => none
  | rounds + 1, list, i =>
    match compare list v with
    | none => none
    | some (true, _) => some i
    | some (false, list) =>
      match skip list with
      | none => none
      | some none => some (-1)
      | some (some list) => indexFrom v rounds list (i + 1)

/-- `get_str_index` on the memory of its two arguments. -/
def getStrIndexIn (v list : Pointer) : Option Int := indexFrom v list.length list 0

def front (text : List Char) : List Char := text.takeWhile (· ≠ '|')

def afterBar : List Char → Option (List Char)
  | [] => none
  | c :: text => if c = '|' then some text else afterBar text

section Text

variable {c : Char} {text : List Char}

@[simp] theorem front_nil : front [] = [] := rfl

@[simp] theorem afterBar_nil : afterBar [] = none := rfl

@[simp] theorem front_bar (text : List Char) : front ('|' :: text) = [] := by simp [front]

@[simp] theorem afterBar_bar (text : List Char) : afterBar ('|' :: text) = some text := rfl

theorem front_char (hc : c ≠ '|') (text : List Char) : front (c :: text) = c :: front text := by
  simp [front, hc]

theorem afterBar_char (hc : c ≠ '|') (text : List Char) : afterBar (c :: text) = afterBar text := by
  rw [afterBar, if_neg hc]

theorem splitOn_eq (text : List Char) :
    text.splitOn '|' = front text :: ((afterBar text).map (List.splitOn '|')).getD [] := by
  induction text with
  | nil => simp
  | cons c text ih =>
    rw [List.splitOn_cons_eq_if_modifyHead]
    by_cases hc : c = '|'
    · simp [hc]
    · rw [if_neg (by simpa using hc), ih, List.modifyHead_cons, front_char hc, afterBar_char hc]

theorem afterBar_length {rest : List Char} (h : afterBar text = some rest) :
    rest.length < text.length := by
  induction text with
  | nil => simp at h
  | cons c text ih =>
    rw [List.length_cons]
    by_cases hc : c = '|'
    · rw [hc, afterBar_bar, Option.some.injEq] at h
      rw [h]
      exact Nat.lt_succ_self _
    · rw [afterBar_char hc] at h
      exact Nat.lt_succ_of_lt (ih h)

theorem afterBar_nul {rest : List Char} (hnul : nul ∉ text) (h : afterBar text = some rest) :
    nul ∉ rest := by
  induction text with
  | nil => simp at h
  | cons c text ih =>
    rw [List.mem_cons, not_or] at hnul
    by_cases hc : c = '|'
    · rw [hc, afterBar_bar, Option.some.injEq] at h
      exact h ▸ hnul.2
    · rw [afterBar_char hc] at h
      exact ih hnul.2 h

theorem length_splitOn_le (text : List Char) : (text.splitOn '|').length ≤ text.length + 1 := by
  induction text with
  | nil => simp
  | cons c text ih =>
    rw [List.splitOn_cons_eq_if_modifyHead, List.length_cons]
    split
    · simpa using ih
    · rw [List.length_modifyHead]
      exact Nat.le_succ_of_le ih

end Text

theorem skip_memory {text : List Char} (hnul : nul ∉ text) :
    skip (text ++ [nul]) = some ((afterBar text).map (· ++ [nul])) := by
  induction text with
  | nil => rfl
  | cons c text ih =>
    rw [List.mem_cons, not_or] at hnul
    rw [List.cons_append, skip, if_neg (Ne.symm hnul.1)]
    by_cases hc : c = '|'
    · simp [hc]
    · rw [if_neg hc, afterBar_char hc, ih hnul.2]

/-- Wherever the comparison leaves `list`, the next element is the one after the same bar. -/
theorem compare_memory {v text : List Char} (hbar : '|' ∉ v) (hv : nul ∉ v) (hnul : nul ∉ text) :
    ∃ list, compare (text ++ [nul]) (v ++ [nul]) = some (decide (v = front text), list) ∧
      skip list = skip (text ++ [nul]) := by
  induction text generalizing v with
  | nil =>
    cases v with
    | nil => exact ⟨[nul], rfl, rfl⟩
    | cons d v =>
      rw [List.mem_cons, not_or] at hv
      refine ⟨[nul], ?_, rfl⟩
      simp [compare, hv.1, show nul ≠ '|' by decide]
  | cons c text ih =>
    rw [List.mem_cons, not_or] at hnul
    have hskip : ∀ list, skip list = skip (text ++ [nul]) → c ≠ '|' →
        skip list = skip (c :: text ++ [nul]) := by
      intro list hlist hc
      rw [hlist, List.cons_append, skip, if_neg (Ne.symm hnul.1), if_neg hc]
    cases v with
    | nil =>
      refine ⟨c :: text ++ [nul], ?_, rfl⟩
      by_cases hc : c = '|'
      · simp [compare, hc]
      · simp [compare, hc, front_char hc, Ne.symm hnul.1]
    | cons d v =>
      rw [List.mem_cons, not_or] at hbar hv
      by_cases hc : c = '|'
      · refine ⟨c :: text ++ [nul], ?_, rfl⟩
        simp [compare, hc, hv.1]
      · by_cases hd : c = d
        · obtain ⟨list, hcompare, hlist⟩ := ih hbar.2 hv.2 hnul.2
          refine ⟨list, ?_, hskip list hlist hc⟩
          simpa [compare, ← hd, hc, Ne.symm hnul.1, front_char hc] using hcompare
        · refine ⟨c :: text ++ [nul], ?_, rfl⟩
          simp [compare, hc, hd, front_char hc, Ne.symm hd]

theorem indexFrom_memory {v text : List Char} (hbar : '|' ∉ v) (hv : nul ∉ v) (hnul : nul ∉ text)
    {rounds : Nat} (hrounds : text.length < rounds) (i : Int) :
    indexFrom (v ++ [nul]) rounds (text ++ [nul]) i =
      some (((text.splitOn '|').idxOf? v).elim (-1) (i + ·)) := by
  induction rounds generalizing text i with
  | zero => exact absurd hrounds (Nat.not_lt_zero _)
  | succ rounds ih =>
    obtain ⟨list, hcompare, hlist⟩ := compare_memory hbar hv hnul
    rw [indexFrom, hcompare, splitOn_eq, List.idxOf?_cons]
    by_cases hfront : v = front text
    · simp [hfront]
    · rw [decide_eq_false hfront, if_neg (by simpa using Ne.symm hfront)]
      dsimp only
      rw [hlist, skip_memory hnul]
      cases hafter : afterBar text with
      | none => simp
      | some rest =>
        have hlength := afterBar_length hafter
        have hrest := ih (afterBar_nul hnul hafter) (by omega) (i + 1)
        simp only [Option.map_some, Option.getD_some]
        rw [hrest]
        cases (rest.splitOn '|').idxOf? v with
        | none => rfl
        | some k => simp [Int.add_comm, Int.add_left_comm]

theorem getStrIndexIn_memory (v list : CString) (hbar : '|' ∉ v.text) :
    getStrIndexIn v.memory list.memory =
      some ((list.words.idxOf? v.text).elim (-1) fun k => (k : Int)) := by
  have hrounds : list.text.length < list.memory.length := by simp [CString.memory]
  have hwalk := indexFrom_memory hbar v.nul_notMem list.nul_notMem hrounds 0
  simp only [zero_add] at hwalk
  exact hwalk

example : getStrIndexIn "b\x00".toList "a||bc|b\x00".toList = some 3 := by decide

theorem getStrIndexIn_lt (v list : CString) (hbar : '|' ∉ v.text) {r : Int}
    (h : getStrIndexIn v.memory list.memory = some r) : r < list.memory.length := by
  rw [getStrIndexIn_memory v list hbar, Option.some.injEq] at h
  have hlength := length_splitOn_le list.text
  rw [← h, CString.memory, List.length_append, List.length_singleton]
  cases hk : list.words.idxOf? v.text with
  | none => simp only [Option.elim_none]; omega
  | some k =>
    obtain ⟨hlt, -⟩ := List.idxOf?_eq_some_iff.mp hk
    have hwords : k < list.text.length + 1 := lt_of_lt_of_le hlt hlength
    simp only [Option.elim_some]
    omega

theorem strIndexFrom_front (v : Arg) (p : Option Arg) (i : Nat) (text : List Char) :
    strIndexFrom v p i text =
      if p = some (front text) then some i
      else (afterBar text).bind (strIndexFrom v (some v) (i + 1)) := by
  induction text generalizing p with
  | nil => rw [strIndexFrom, front_nil, afterBar_nil, Option.bind_none]
  | cons c text ih =>
    by_cases hc : c = '|'
    · rw [hc, strIndexFrom_bar, front_bar, afterBar_bar, Option.bind_some]
    · rw [strIndexFrom_char hc, ih, front_char hc, afterBar_char hc]
      cases p with
      | none => simp
      | some word =>
        cases word with
        | nil => simp
        | cons d word => by_cases hd : d = c <;> simp [hd]

theorem strIndexFrom_splitOn (v : Arg) (i : Nat) (text : List Char) :
    strIndexFrom v (some v) i text = ((text.splitOn '|').idxOf? v).map (i + ·) := by
  induction hn : text.length using Nat.strongRecOn generalizing i text with
  | ind n ih =>
    rw [strIndexFrom_front, splitOn_eq, List.idxOf?_cons]
    by_cases hfront : v = front text
    · simp [← hfront]
    · rw [if_neg (by simpa using hfront), if_neg (by simpa using Ne.symm hfront)]
      cases hafter : afterBar text with
      | none => simp
      | some rest =>
        have hrest := ih rest.length (hn ▸ afterBar_length hafter) (i + 1) rest rfl
        simp only [Option.bind_some, hrest, Option.map_some, Option.getD_some, Option.map_map]
        congr 1
        funext k
        exact Nat.succ_add_eq_add_succ i k

theorem getStrIndex_eq (v list : CString) (hbar : '|' ∉ v.text) :
    getStrIndexIn v.memory list.memory =
      some ((getStrIndex v.text (String.ofList list.text)).elim (-1) fun k => (k : Int)) := by
  rw [getStrIndexIn_memory v list hbar, getStrIndex, String.toList_ofList, strIndexFrom_splitOn]
  rw [CString.words]
  cases (list.text.splitOn '|').idxOf? v.text with
  | none => rfl
  | some k => simp

/-- The result is the index of the first element that is the word, and `-1` without one; no read
leaves a string. -/
theorem getStrIndexIn_iff (v list : CString) (hbar : '|' ∉ v.text) :
    ∃ r, getStrIndexIn v.memory list.memory = some r ∧
      (∀ i : Nat, r = i ↔
        list.words[i]? = some v.text ∧ ∀ j < i, list.words[j]? ≠ some v.text) ∧
      (r = -1 ↔ v.text ∉ list.words) := by
  have hfirst : ∀ i, list.words.idxOf? v.text = some i ↔
      list.words[i]? = some v.text ∧ ∀ j < i, list.words[j]? ≠ some v.text := by
    intro i
    rw [List.idxOf?_eq_some_iff, List.getElem?_eq_some_iff]
    constructor
    · rintro ⟨hi, hword, hearlier⟩
      refine ⟨⟨hi, hword⟩, fun j hj h => hearlier j hj ?_⟩
      exact (List.getElem?_eq_some_iff.mp h).2
    · rintro ⟨⟨hi, hword⟩, hearlier⟩
      refine ⟨hi, hword, fun j hj h => hearlier j hj ?_⟩
      exact List.getElem?_eq_some_iff.mpr ⟨hj.trans hi, h⟩
  refine ⟨_, getStrIndexIn_memory v list hbar, ?_, ?_⟩
  · intro i
    rw [← hfirst]
    cases list.words.idxOf? v.text with
    | none => simp
    | some k => simp
  · rw [← List.idxOf?_eq_none_iff]
    cases list.words.idxOf? v.text with
    | none => simp
    | some k => simp

/-- The example of the source. -/
theorem getStrIndexIn_center :
    getStrIndexIn "center\x00".toList "start|stop|center|span|cw\x00".toList = some 2 := by
  obtain ⟨r, hr, hindex, -⟩ := getStrIndexIn_iff ⟨"center".toList, by decide⟩
    ⟨"start|stop|center|span|cw".toList, by decide⟩ (by decide)
  have htwo : r = (2 : Nat) := (hindex 2).mpr ⟨by decide, by decide⟩
  rw [htwo] at hr
  exact hr

end NanoVNA.WordLists
