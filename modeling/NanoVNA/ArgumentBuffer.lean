import NanoVNA.LineParser

namespace NanoVNA.ArgumentBuffer

open NanoVNA.ShellArguments NanoVNA.LineParser

def breaks (c : Char) : List Char := if c = '"' then ['"'] else [' ', '\t']

def argumentStart (c : Char) (rest : List Char) : List Char := if c = '"' then rest else c :: rest

def argumentSize (c : Char) (rest : List Char) : Nat := strpbrk (breaks c) (argumentStart c rest)

def argumentText (c : Char) (rest : List Char) : List Char :=
  (argumentStart c rest).take (argumentSize c rest)

def argumentEnd (c : Char) (rest : List Char) : List Char :=
  (argumentStart c rest).drop (argumentSize c rest)

def lead (memory : List Char) (c : Char) : List Char :=
  memory.takeWhile isBlank ++ if c = '"' then [c] else []

/-- The character after a closing quote is passed over. -/
def skipped (c : Char) (more : List Char) : List Char := if c = '"' then more.take 1 else []

/-- An argument too many is ended by a zero as well, but its place is not stored. -/
def endExcess (memory : List Char) : List Char :=
  match memory.dropWhile isBlank with
  | [] => memory
  | c :: rest =>
    if c = nul then memory
    else
      match argumentEnd c rest with
      | [] => memory
      | _ :: more => lead memory c ++ argumentText c rest ++ nul :: more

/-- The places of the arguments that `parse_line` stores, with room for so many more, and the memory
as it leaves it; the memory is read from a place on. -/
def parseFrom : Nat → Nat → List Char → List Nat × List Char
  | 0, _, memory => ([], endExcess memory)
  | room + 1, pos, memory =>
    match memory.dropWhile isBlank with
    | [] => ([], memory)
    | c :: rest =>
      if c = nul then ([], memory)
      else
        let here := pos + (lead memory c).length
        match argumentEnd c rest with
        | [] => ([here], memory)
        | d :: more =>
          if d = nul then ([here], memory)
          else
            let front := lead memory c ++ argumentText c rest ++ nul :: skipped c more
            let next := parseFrom room (pos + front.length) (more.drop (skipped c more).length)
            (here :: next.1, front ++ next.2)

def textAt (memory : List Char) (pos : Nat) : Arg := cString (memory.drop pos)

theorem cString_append_nul (word rest : List Char) :
    cString (word ++ nul :: rest) = cString word := by
  unfold cString
  induction word with
  | nil => rfl
  | cons c word ih =>
    rw [List.cons_append, List.takeWhile_cons, List.takeWhile_cons]
    split
    · rw [ih]
    · rfl

theorem textAt_start (front start : List Char) :
    textAt (front ++ start) front.length = cString start := by
  rw [textAt, List.drop_left]

theorem textAt_behind (front rest : List Char) {pos p : Nat} (hp : pos + front.length ≤ p) :
    textAt (front ++ rest) (p - pos) = textAt rest (p - (pos + front.length)) := by
  have hsplit : p - pos = front.length + (p - (pos + front.length)) := by omega
  rw [textAt, textAt, hsplit, ← List.drop_drop, List.drop_left]

theorem argument_append (c : Char) (rest : List Char) :
    argumentText c rest ++ argumentEnd c rest = argumentStart c rest :=
  List.take_append_drop _ _

theorem lead_append {memory rest : List Char} {c : Char}
    (hd : memory.dropWhile isBlank = c :: rest) : lead memory c ++ argumentStart c rest = memory := by
  have hsplit := @List.takeWhile_append_dropWhile _ isBlank memory
  rw [hd] at hsplit
  unfold lead argumentStart
  split
  · rw [List.append_assoc]
    exact hsplit
  · rw [List.append_nil]
    exact hsplit

theorem drop_skipped (c : Char) (more : List Char) :
    more.drop (skipped c more).length = if c = '"' then more.drop 1 else more := by
  unfold skipped
  split
  · cases more <;> rfl
  · rfl

theorem parseLine_cons {memory rest : List Char} {c : Char}
    (hd : memory.dropWhile isBlank = c :: rest) (hc : c ≠ nul) (room : Nat) :
    parseLine (room + 1) memory =
      cString (argumentText c rest) ::
        match argumentEnd c rest with
        | [] => []
        | d :: more =>
          if d = nul then [] else parseLine room (more.drop (skipped c more).length) := by
  rw [parseLine, hd]
  simp only [if_neg hc, drop_skipped]
  rfl

theorem parseFrom_spec (room pos : Nat) (memory : List Char) :
    (∀ p ∈ (parseFrom room pos memory).1, pos ≤ p) ∧
      (parseFrom room pos memory).1.map
        (fun p => textAt (parseFrom room pos memory).2 (p - pos)) = parseLine room memory := by
  induction room generalizing pos memory with
  | zero => simp [parseFrom, parseLine]
  | succ room ih =>
    cases hd : memory.dropWhile isBlank with
    | nil => simp [parseFrom, parseLine, hd]
    | cons c rest =>
      by_cases hc : c = nul
      · simp [parseFrom, parseLine, hd, hc]
      have hcut := argument_append c rest
      have hfirst := textAt_start (lead memory c) (argumentStart c rest)
      rw [lead_append hd] at hfirst
      rw [parseLine_cons hd hc, parseFrom, hd]
      simp only [if_neg hc]
      cases hend : argumentEnd c rest with
      | nil =>
        rw [hend, List.append_nil] at hcut
        simp [hfirst, hcut]
      | cons d more =>
        rw [hend] at hcut
        by_cases hdn : d = nul
        · rw [hdn] at hcut
          simp [hdn, hfirst, ← hcut, cString_append_nul]
        · simp only [if_neg hdn]
          generalize hfront :
            lead memory c ++ argumentText c rest ++ nul :: skipped c more = front
          obtain ⟨hplaces, htexts⟩ := ih (pos + front.length) (more.drop (skipped c more).length)
          have hlead : (lead memory c).length ≤ front.length := by
            rw [← hfront]
            simp only [List.length_append]
            omega
          refine ⟨fun p hp => ?_, ?_⟩
          · obtain rfl | hp := List.mem_cons.mp hp
            · exact Nat.le_add_right _ _
            · exact Nat.le_trans (Nat.le_add_right _ _) (hplaces p hp)
          · rw [List.map_cons, ← htexts, Nat.add_sub_cancel_left]
            congr 1
            · rw [← hfront, List.append_assoc, List.append_assoc, textAt_start, List.cons_append,
                cString_append_nul]
            · exact List.map_congr_left fun p hp => textAt_behind front _ (hplaces p hp)

/-! ### Lines that end before the memory behind them -/

def quoted : List Char := ['"', ' ', 'x', nul]

/-- While there is room for another argument, no quote that opens or closes an argument is the last
character of the line. -/
def closed : Nat → List Char → Bool
  | 0, _ => true
  | room + 1, line =>
    match line.dropWhile isBlank with
    | [] => true
    | c :: rest =>
      match (argumentStart c rest).dropWhile (· ∉ breaks c) with
      | [] => room = 0 ∨ argumentStart c rest ≠ []
      | _ :: more =>
        if c = '"' ∧ more = [] then room = 0 else closed room (more.drop (skipped c more).length)

theorem dropWhile_blank_line (line stale : List Char) :
    (line ++ nul :: stale).dropWhile isBlank = line.dropWhile isBlank ++ nul :: stale := by
  induction line with
  | nil => rfl
  | cons c line ih =>
    rw [List.cons_append, List.dropWhile_cons, List.dropWhile_cons]
    split
    · exact ih
    · rfl

theorem argumentStart_append (c : Char) (rest more : List Char) :
    argumentStart c (rest ++ more) = argumentStart c rest ++ more := by
  unfold argumentStart
  split <;> rfl

theorem strpbrk_line {brk start : List Char} (hne : start ≠ [])
    (hstart : ∀ x ∈ start, x ≠ nul) (stale : List Char) :
    strpbrk brk (start ++ nul :: stale) = (start.takeWhile (· ∉ brk)).length := by
  induction start with
  | nil => exact absurd rfl hne
  | cons c start ih =>
    rw [List.cons_append, strpbrk, List.takeWhile_cons]
    by_cases hc : c ∈ brk
    · simp [hc]
    · rw [if_neg hc, if_pos (decide_eq_true hc)]
      cases start with
      | nil => simp
      | cons d start =>
        have hd : (d :: start ++ nul :: stale).head? ≠ some nul := fun h =>
          hstart d (by simp) (Option.some.inj h)
        rw [if_neg hd, ih (by simp) fun x hx => hstart x (List.mem_cons_of_mem _ hx)]
        rfl

section Line

variable {c : Char} {rest : List Char} (hne : argumentStart c rest ≠ [])
  (hstart : ∀ x ∈ argumentStart c rest, x ≠ nul) (stale : List Char)

include hne hstart

theorem argumentSize_line :
    argumentSize c (rest ++ nul :: stale) =
      ((argumentStart c rest).takeWhile (· ∉ breaks c)).length := by
  rw [argumentSize, argumentStart_append, strpbrk_line hne hstart]

omit hne hstart in
theorem argumentStart_line :
    argumentStart c (rest ++ nul :: stale) =
      (argumentStart c rest).takeWhile (· ∉ breaks c) ++
        ((argumentStart c rest).dropWhile (· ∉ breaks c) ++ nul :: stale) := by
  rw [argumentStart_append, ← List.append_assoc, List.takeWhile_append_dropWhile]

theorem argumentText_line :
    argumentText c (rest ++ nul :: stale) = (argumentStart c rest).takeWhile (· ∉ breaks c) := by
  rw [argumentText, argumentSize_line hne hstart, argumentStart_line, List.take_left]

theorem argumentEnd_line :
    argumentEnd c (rest ++ nul :: stale) =
      (argumentStart c rest).dropWhile (· ∉ breaks c) ++ nul :: stale := by
  rw [argumentEnd, argumentSize_line hne hstart, argumentStart_line, List.drop_left]

end Line

theorem ne_nul_of_dropWhile {p : Char → Bool} {line : List Char} (h : ∀ x ∈ line, x ≠ nul) :
    ∀ x ∈ line.dropWhile p, x ≠ nul :=
  fun x hx => h x ((List.dropWhile_sublist p).mem hx)

theorem ne_nul_of_argumentStart {c : Char} {rest : List Char} (h : ∀ x ∈ c :: rest, x ≠ nul) :
    ∀ x ∈ argumentStart c rest, x ≠ nul := by
  unfold argumentStart
  split
  · exact fun x hx => h x (List.mem_cons_of_mem _ hx)
  · exact h

theorem drop_skipped_line {c : Char} {more : List Char} (h : ¬ (c = '"' ∧ more = []))
    (stale : List Char) :
    (more ++ nul :: stale).drop (skipped c (more ++ nul :: stale)).length =
      more.drop (skipped c more).length ++ nul :: stale := by
  rw [drop_skipped, drop_skipped]
  split
  case isTrue hc =>
    obtain ⟨x, more, rfl⟩ := List.exists_cons_of_ne_nil fun hm => h ⟨hc, hm⟩
    rfl
  case isFalse => rfl

section Argument

variable {line rest : List Char} {c : Char} (hline : ∀ x ∈ line, x ≠ nul)
  (hd : line.dropWhile isBlank = c :: rest) (room : Nat) (stale : List Char)

include hline hd

theorem ne_nul_of_dropWhile_eq : ∀ x ∈ c :: rest, x ≠ nul :=
  hd ▸ ne_nul_of_dropWhile hline

theorem parseLine_argument (hne : argumentStart c rest ≠ []) :
    parseLine (room + 1) (line ++ nul :: stale) =
      cString ((argumentStart c rest).takeWhile (· ∉ breaks c)) ::
        match (argumentStart c rest).dropWhile (· ∉ breaks c) with
        | [] => []
        | _ :: more =>
          parseLine room ((more ++ nul :: stale).drop (skipped c (more ++ nul :: stale)).length) := by
  have hnul := ne_nul_of_dropWhile_eq hline hd
  have hstart := ne_nul_of_argumentStart hnul
  have hdrop : (line ++ nul :: stale).dropWhile isBlank = c :: (rest ++ nul :: stale) := by
    rw [dropWhile_blank_line, hd, List.cons_append]
  rw [parseLine_cons hdrop (hnul c (by simp)), argumentText_line hne hstart,
    argumentEnd_line hne hstart]
  cases hend : (argumentStart c rest).dropWhile (· ∉ breaks c) with
  | nil => rfl
  | cons d more =>
    have hdn : d ≠ nul := ne_nul_of_dropWhile hstart d (by rw [hend]; simp)
    simp [hdn]

theorem parseLine_quote (hstart : argumentStart c rest = []) :
    parseLine (room + 1) (line ++ nul :: stale) =
      [] :: match argumentEnd '"' (nul :: stale) with
        | [] => []
        | d :: more =>
          if d = nul then [] else parseLine room (more.drop (skipped '"' more).length) := by
  have hnul := ne_nul_of_dropWhile_eq hline hd
  obtain ⟨rfl, rfl⟩ : c = '"' ∧ rest = [] := by
    unfold argumentStart at hstart
    split at hstart
    case isTrue hc => exact ⟨hc, hstart⟩
    case isFalse => cases hstart
  have hdrop : (line ++ nul :: stale).dropWhile isBlank = '"' :: nul :: stale := by
    rw [dropWhile_blank_line, hd, List.cons_append, List.nil_append]
  rw [parseLine_cons hdrop (by decide)]
  congr 1
  unfold argumentText
  cases argumentSize '"' (nul :: stale) <;> rfl

theorem ne_nul_of_next {d : Char} {more : List Char}
    (hend : (argumentStart c rest).dropWhile (· ∉ breaks c) = d :: more) :
    ∀ x ∈ more.drop (skipped c more).length, x ≠ nul := by
  have hbehind := @ne_nul_of_dropWhile (· ∉ breaks c) _
    (ne_nul_of_argumentStart (ne_nul_of_dropWhile_eq hline hd))
  rw [hend] at hbehind
  exact fun x hx => hbehind x (List.mem_cons_of_mem _ (List.mem_of_mem_drop hx))

theorem parseLine_next (hne : argumentStart c rest ≠ []) {d : Char} {more : List Char}
    (hend : (argumentStart c rest).dropWhile (· ∉ breaks c) = d :: more)
    (hq : ¬ (c = '"' ∧ more = [])) :
    parseLine (room + 1) (line ++ nul :: stale) =
      cString ((argumentStart c rest).takeWhile (· ∉ breaks c)) ::
        parseLine room (more.drop (skipped c more).length ++ nul :: stale) := by
  rw [parseLine_argument hline hd room stale hne, hend]
  dsimp only
  rw [drop_skipped_line hq]

theorem parseLine_lastQuote (hne : argumentStart c rest ≠ []) {d : Char}
    (hend : (argumentStart c rest).dropWhile (· ∉ breaks c) = [d]) (hc : c = '"') :
    parseLine (room + 1) (line ++ nul :: stale) =
      cString ((argumentStart c rest).takeWhile (· ∉ breaks c)) :: parseLine room stale := by
  rw [parseLine_argument hline hd room stale hne, hend]
  subst hc
  rfl

end Argument

theorem parseLine_closed {room : Nat} {line : List Char} (hline : ∀ x ∈ line, x ≠ nul)
    (h : closed room line) (stale : List Char) :
    parseLine room (line ++ nul :: stale) = parseLine room (line ++ [nul]) := by
  induction room generalizing line with
  | zero => rfl
  | succ room ih =>
    rw [closed] at h
    cases hd : line.dropWhile isBlank with
    | nil =>
      have hend : ∀ stale, parseLine (room + 1) (line ++ nul :: stale) = [] := by
        intro stale
        rw [parseLine, dropWhile_blank_line, hd]
        rfl
      rw [hend, hend]
    | cons c rest =>
      rw [hd] at h
      by_cases hne : argumentStart c rest = []
      · have hroom : room = 0 := by simpa [hne] using h
        have hlast : ∀ stale, parseLine (room + 1) (line ++ nul :: stale) = [[]] := by
          intro stale
          rw [parseLine_quote hline hd room stale hne, hroom]
          congr 1
          split
          · rfl
          · split <;> rfl
        rw [hlast, hlast]
      · dsimp only at h
        cases hend : (argumentStart c rest).dropWhile (· ∉ breaks c) with
        | nil =>
          rw [parseLine_argument hline hd room stale hne, parseLine_argument hline hd room [] hne,
            hend]
        | cons d more =>
          rw [hend] at h
          dsimp only at h
          by_cases hq : c = '"' ∧ more = []
          · rw [if_pos hq, decide_eq_true_eq] at h
            obtain ⟨hc, rfl⟩ := hq
            rw [parseLine_lastQuote hline hd room stale hne hend hc,
              parseLine_lastQuote hline hd room [] hne hend hc, h]
            rfl
          · rw [if_neg hq] at h
            rw [parseLine_next hline hd room stale hne hend hq,
              parseLine_next hline hd room [] hne hend hq, ih (ne_nul_of_next hline hd hend) h]

/-- Behind a line that is not closed an argument in quotes counts as one of the line. -/
theorem parseLine_not_closed {room : Nat} {line : List Char} (hline : ∀ x ∈ line, x ≠ nul)
    (h : ¬ closed room line) :
    parseLine room (line ++ nul :: quoted) ≠ parseLine room (line ++ [nul]) := by
  induction room generalizing line with
  | zero => exact absurd rfl h
  | succ room ih =>
    rw [closed] at h
    cases hd : line.dropWhile isBlank with
    | nil => exact absurd (by rw [hd]) h
    | cons c rest =>
      rw [hd] at h
      by_cases hne : argumentStart c rest = []
      · have hroom : room ≠ 0 := by simpa [hne] using h
        obtain ⟨room, rfl⟩ := Nat.exists_eq_succ_of_ne_zero hroom
        have hbehind : argumentEnd '"' (nul :: quoted) = quoted := by decide
        have hnone : argumentEnd '"' [nul] = [] := by decide
        have hmore : parseLine (room + 1) ['x', nul] = [['x']] := rfl
        rw [parseLine_quote hline hd _ quoted hne, parseLine_quote hline hd _ [] hne, hbehind, hnone]
        exact fun heq => by cases (List.cons.inj heq).2.symm.trans hmore
      · dsimp only at h
        cases hend : (argumentStart c rest).dropWhile (· ∉ breaks c) with
        | nil =>
          rw [hend] at h
          exact absurd (decide_eq_true (.inr hne)) h
        | cons d more =>
          rw [hend] at h
          dsimp only at h
          by_cases hq : c = '"' ∧ more = []
          · rw [if_pos hq, decide_eq_true_eq] at h
            obtain ⟨room, rfl⟩ := Nat.exists_eq_succ_of_ne_zero h
            obtain ⟨hc, rfl⟩ := hq
            have hbehind : parseLine (room + 1) quoted = [[' ', 'x']] := rfl
            rw [parseLine_lastQuote hline hd _ quoted hne hend hc,
              parseLine_lastQuote hline hd _ [] hne hend hc]
            exact fun heq => by cases (List.cons.inj heq).2.symm.trans hbehind
          · rw [if_neg hq] at h
            rw [parseLine_next hline hd room quoted hne hend hq,
              parseLine_next hline hd room [] hne hend hq]
            intro heq
            exact ih (ne_nul_of_next hline hd hend) h (List.cons.inj heq).2

end NanoVNA.ArgumentBuffer
