import Mathlib.Data.List.TakeWhile
import NanoVNA.ShellIsolation

namespace NanoVNA.CommandNames

open NanoVNA.ShellArguments NanoVNA.LineParser NanoVNA.ArgumentBuffer NanoVNA.ShellCommands
open NanoVNA.ShellIsolation (shellArgs)
open NanoVNA.DeviceState

variable {α : Type}

/-- The entry of the table that the line's first argument names, and all its arguments. A table that
is not there is `none`. -/
def shellParseCommand (scName : α → List Char) (table : Option (List α)) (memory : List Char) :
    Option α × List Arg :=
  let args := parseLine shellArgs memory
  match args with
  | [] => (none, [])
  | name :: _ =>
    (table.bind fun entries => entries.find? fun cmd =>
      strIndexFrom (scName cmd) (some (scName cmd)) 0 name = some 0, args)

theorem shellParseCommand_commands (board : Board) (memory : List Char) :
    (shellParseCommand (·.scName.toList) (some (commands board)) memory).1 =
      (parseLine shellArgs memory).head?.bind (findCommand board) := by
  rw [shellParseCommand]
  cases parseLine shellArgs memory with
  | nil => rfl
  | cons name args => rfl

/-- What is typed in front of the first separator behind it, or between quotes. -/
def firstToken (line : List Char) : Option (List Char) :=
  match line.dropWhile isBlank with
  | [] => none
  | c :: rest =>
    some (if c = '"' then rest.takeWhile (· ≠ '"') else (c :: rest).takeWhile (!isBlank ·))

example : firstToken " \"a b\"c d".toList = some "a b".toList := by decide

/-- The first command with the name, whatever is in the memory behind the line. -/
def FindsByName (scName : α → List Char) (table : Option (List α)) (line : List Char) : Prop :=
  ∀ behind, (shellParseCommand scName table (line ++ nul :: behind)).1 =
    (firstToken line).bind fun token => table.bind fun entries =>
      entries.find? fun cmd => scName cmd = token

section Index

variable {v : Arg} {c : Char} {list : List Char}

theorem strIndexFrom_bar (v : Arg) (p : Option Arg) (i : Nat) (list : List Char) :
    strIndexFrom v p i ('|' :: list) =
      if p = some [] then some i else strIndexFrom v (some v) (i + 1) list := by
  rw [strIndexFrom.eq_def]
  rfl

theorem strIndexFrom_char (hc : c ≠ '|') (v : Arg) (p : Option Arg) (i : Nat) :
    strIndexFrom v p i (c :: list) =
      strIndexFrom v (p.bind fun word => if word.head? = some c then some word.tail else none) i
        list := by
  rw [strIndexFrom.eq_def]
  dsimp only
  rw [if_neg hc]
  cases p with
  | none => rfl
  | some word =>
    cases word with
    | nil => rfl
    | cons d word =>
      by_cases hd : c = d
      · simp [hd]
      · simp [hd, Ne.symm hd]

theorem le_of_strIndexFrom {p : Option Arg} {i k : Nat} (h : strIndexFrom v p i list = some k) :
    i ≤ k := by
  induction list generalizing p i with
  | nil =>
    rw [strIndexFrom] at h
    split at h
    · exact Nat.le_of_eq (Option.some.inj h)
    · cases h
  | cons c list ih =>
    by_cases hc : c = '|'
    · rw [hc, strIndexFrom_bar] at h
      split at h
      · exact Nat.le_of_eq (Option.some.inj h)
      · exact Nat.le_of_succ_le (ih h)
    · rw [strIndexFrom_char hc] at h
      exact ih h

theorem strIndexFrom_later : strIndexFrom v (some v) 1 list ≠ some 0 :=
  fun h => absurd (le_of_strIndexFrom h) (by decide)

theorem strIndexFrom_eq_zero_iff (p : Option Arg) :
    strIndexFrom v p 0 list = some 0 ↔ p = some (list.takeWhile (· ≠ '|')) := by
  induction list generalizing p with
  | nil =>
    rw [strIndexFrom, List.takeWhile_nil]
    simp
  | cons c list ih =>
    rw [List.takeWhile_cons]
    by_cases hc : c = '|'
    · have hnone : ¬ decide ('|' ≠ '|') = true := by decide
      rw [hc, strIndexFrom_bar, if_neg hnone]
      by_cases hp : p = some []
      · rw [if_pos hp]
        exact iff_of_true rfl hp
      · rw [if_neg hp]
        exact iff_of_false strIndexFrom_later hp
    · rw [strIndexFrom_char hc, ih, if_pos (decide_eq_true hc)]
      cases p with
      | none => simp
      | some word =>
        cases word with
        | nil => simp
        | cons d word =>
          rw [Option.bind_some, List.head?_cons, List.tail_cons]
          by_cases hd : d = c
          · rw [hd, if_pos rfl, Option.some.injEq, Option.some.injEq, List.cons_inj_right]
          · rw [if_neg fun h => hd (Option.some.inj h)]
            exact iff_of_false (fun h => by cases h) fun h =>
              hd (List.cons.inj (Option.some.inj h)).1

end Index

theorem head_parseLine {line : List Char} (hline : ∀ x ∈ line, x ≠ nul) (room : Nat)
    (behind : List Char) :
    (parseLine (room + 1) (line ++ nul :: behind)).head? = firstToken line := by
  rw [firstToken]
  cases hd : line.dropWhile isBlank with
  | nil =>
    have hdrop := dropWhile_blank_line line behind
    rw [hd, List.nil_append] at hdrop
    rw [parseLine, hdrop]
    rfl
  | cons c rest =>
    have htoken : (argumentStart c rest).takeWhile (· ∉ breaks c) =
        if c = '"' then rest.takeWhile (· ≠ '"') else (c :: rest).takeWhile (!isBlank ·) := by
      unfold argumentStart breaks
      split
      · simp only [List.mem_singleton, ne_eq]
      · simp only [isBlank, List.mem_cons, List.not_mem_nil, or_false, decide_not]
    dsimp only
    rw [← htoken]
    by_cases hstart : argumentStart c rest = []
    · rw [parseLine_quote hline hd room behind hstart, hstart]
      rfl
    · have hnul := ne_nul_of_argumentStart (ne_nul_of_dropWhile_eq hline hd)
      rw [parseLine_argument hline hd room behind hstart, List.head?_cons, cString_eq_self]
      exact fun x hx => hnul x ((List.takeWhile_sublist _).subset hx)

theorem shellParseCommand_eq (scName : α → List Char) (table : Option (List α)) {line : List Char}
    (hline : ∀ x ∈ line, x ≠ nul) (behind : List Char) :
    (shellParseCommand scName table (line ++ nul :: behind)).1 =
      (firstToken line).bind fun token => table.bind fun entries =>
        entries.find? fun cmd => scName cmd = token.takeWhile (· ≠ '|') := by
  have hhead := head_parseLine hline 4 behind
  have hargs : shellArgs = 4 + 1 := rfl
  rw [shellParseCommand, hargs, ← hhead]
  cases parseLine (4 + 1) (line ++ nul :: behind) with
  | nil => rfl
  | cons name args =>
    simp only [List.head?_cons, Option.bind_some, strIndexFrom_eq_zero_iff, Option.some.injEq]

theorem find?_eq_iff (scName : α → List Char) (entries : List α) {name token : List Char}
    (hne : name ≠ token) :
    entries.find? (fun cmd => scName cmd = name) = entries.find? (fun cmd => scName cmd = token) ↔
      ∀ cmd ∈ entries, scName cmd ≠ token ∧ scName cmd ≠ name := by
  constructor
  · intro heq
    have hnone : entries.find? (fun cmd => scName cmd = token) = none := by
      by_contra hsome
      obtain ⟨cmd, hcmd⟩ := Option.ne_none_iff_exists'.mp hsome
      have htoken : scName cmd = token := by simpa using List.find?_some hcmd
      have hname : scName cmd = name := by simpa using List.find?_some (heq.trans hcmd)
      exact hne (hname.symm.trans htoken)
    intro cmd hcmd
    have hother := List.find?_eq_none.mp hnone cmd hcmd
    have hfirst := List.find?_eq_none.mp (heq.trans hnone) cmd hcmd
    exact ⟨fun h => hother (decide_eq_true h), fun h => hfirst (decide_eq_true h)⟩
  · intro h
    rw [List.find?_eq_none.mpr fun cmd hcmd => by simpa using (h cmd hcmd).2,
      List.find?_eq_none.mpr fun cmd hcmd => by simpa using (h cmd hcmd).1]

theorem takeWhile_eq_self_iff {token : List Char} :
    token.takeWhile (· ≠ '|') = token ↔ '|' ∉ token := by
  constructor
  · intro heq hmem
    rw [← heq] at hmem
    exact absurd (List.mem_takeWhile_imp hmem) (by decide)
  · intro hmem
    have htake := @List.takeWhile_append_of_pos _ (fun x => decide (x ≠ '|')) token [] fun x hx =>
      decide_eq_true fun heq => hmem (heq ▸ hx)
    rw [List.append_nil, List.takeWhile_nil, List.append_nil] at htake
    exact htake

/-- The parser finds the command of the token exactly when there is no bar in the token, or neither
the token nor what stands in front of its first bar is a name. -/
theorem finds_by_name_iff (scName : α → List Char) (table : Option (List α)) {line : List Char}
    (hline : ∀ x ∈ line, x ≠ nul) :
    FindsByName scName table line ↔ ∀ token ∈ firstToken line, '|' ∉ token ∨
      ∀ entries ∈ table, ∀ cmd ∈ entries,
        scName cmd ≠ token ∧ scName cmd ≠ token.takeWhile (· ≠ '|') := by
  have hfound := shellParseCommand_eq scName table hline
  cases htoken : firstToken line with
  | none =>
    refine iff_of_true (fun behind => ?_) fun token h => by cases h
    rw [hfound, htoken]
    rfl
  | some token =>
    have hiff : FindsByName scName table line ↔ (table.bind fun entries =>
        entries.find? fun cmd => scName cmd = token.takeWhile (· ≠ '|')) =
          table.bind fun entries => entries.find? fun cmd => scName cmd = token := by
      simp only [FindsByName, hfound, htoken, Option.bind_some, forall_const]
    simp only [hiff, Option.mem_some_iff, forall_eq']
    by_cases hbar : '|' ∉ token
    · rw [takeWhile_eq_self_iff.mpr hbar]
      exact iff_of_true rfl (Or.inl hbar)
    · have hne : token.takeWhile (· ≠ '|') ≠ token := fun heq =>
        hbar (takeWhile_eq_self_iff.mp heq)
      rw [or_iff_right hbar]
      cases table with
      | none => exact iff_of_true rfl fun entries h => by cases h
      | some entries => simp only [Option.bind_some, find?_eq_iff scName entries hne,
          Option.mem_some_iff, forall_eq']

/-- The commands of the device. -/
theorem finds_by_name_iff_scan :
    FindsByName (·.scName.toList) (some (commands .f303)) "scan 1 2".toList := by
  have hline : ∀ x ∈ "scan 1 2".toList, x ≠ nul := by simp [nul]
  refine (finds_by_name_iff _ _ hline).mpr fun token htoken => Or.inl ?_
  obtain rfl : "scan".toList = token := Option.some.inj htoken
  decide

/-- A token with a bar runs the command in front of it. -/
theorem not_finds_by_name :
    ¬ FindsByName String.toList (some ["scan", "help"]) "help|x".toList := by
  intro h
  exact absurd (h []) (by decide)

end NanoVNA.CommandNames
