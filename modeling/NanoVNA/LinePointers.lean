import Mathlib.Logic.Function.Basic
import NanoVNA.LineWrites

namespace NanoVNA.LinePointers

open NanoVNA.ShellArguments NanoVNA.LineParser NanoVNA.ArgumentBuffer NanoVNA.LineWrites

/-- `_strpbrk` on what is left of the memory; `none` when it reads behind it. -/
def strpbrkIn (brk : List Char) : List Char → Option Nat
  | [] => none
  | c :: rest =>
    if c ∈ brk then some 0
    else
      match rest with
      | [] => none
      | d :: _ => if d = nul then some 1 else (strpbrkIn brk rest).map (· + 1)

/-- The stored arguments; their counter has 16 bits. -/
structure Args where
  nargs : Nat
  args : Nat → Option Nat

def Args.store (a : Args) (p : Nat) : Args :=
  ⟨(a.nargs + 1) % 2 ^ 16, Function.update a.args a.nargs (some p)⟩

/-- The variables of `parse_line`, and the line. -/
structure Parse where
  memory : List Char
  lp : Nat
  found : Args

/-- One round of the loop, and whether there is another one; `none` when it reads or writes behind
the line. -/
def parseRound (maxCnt : Int) (s : Parse) : Option (Parse × Bool) := do
  let c ← s.memory[s.lp]?
  if c = nul then some (s, false)
  else if isBlank c then some ({ s with lp := s.lp + 1 }, true)
  else
    let lp := if c = '"' then s.lp + 1 else s.lp
    if (s.found.nargs : Int) < maxCnt then
      let s := { s with found := s.found.store lp }
      let size ← strpbrkIn (breaks c) (s.memory.drop lp)
      let d ← s.memory[lp + size]?
      if d ≠ nul then
        some ({ s with
          memory := s.memory.set (lp + size) nul
          lp := lp + size + (if c = '"' then 1 else 0) + 1 }, true)
      else some ({ s with lp := lp + size }, false)
    else
      let size ← strpbrkIn (breaks c) (s.memory.drop lp)
      let d ← s.memory[lp + size]?
      some (if d ≠ nul then { s with memory := s.memory.set (lp + size) nul } else s, false)

def parseRounds (maxCnt : Int) : Nat → Parse → Option Parse
  | 0, s => some s
  | rounds + 1, s => do
    let (s, more) ← parseRound maxCnt s
    if more then parseRounds maxCnt rounds s else some s

/-- `parse_line` on a line with its zero; the loop cannot take more rounds than there are places. -/
def parseLineIn (maxCnt : Int) (memory : List Char) : Option Parse :=
  let s : Parse := ⟨memory, 0, ⟨0, fun _ => none⟩⟩
  if maxCnt ≤ 0 then some s else parseRounds maxCnt (memory.length + 1) s

/-- With room for so many arguments more, no quote that opens an argument, or closes one that is
stored, is the last character of the line. -/
def within : Nat → List Char → Bool
  | room, line =>
    match line.dropWhile isBlank with
    | [] => true
    | c :: rest =>
      match (argumentStart c rest).dropWhile (· ∉ breaks c) with
      | [] => argumentStart c rest ≠ []
      | _ :: more =>
        match room with
        | 0 => true
        | room + 1 =>
          if c = '"' ∧ more = [] then false else within room (more.drop (skipped c more).length)

example : (parseLineIn 4 "a \"b\"\x00".toList).isNone := by decide

section Scan

variable {brk start : List Char}

theorem strpbrkIn_line (hne : start ≠ []) (hstart : ∀ x ∈ start, x ≠ nul) :
    strpbrkIn brk (start ++ [nul]) = some (start.takeWhile (· ∉ brk)).length := by
  induction start with
  | nil => exact absurd rfl hne
  | cons c start ih =>
    rw [List.takeWhile_cons]
    by_cases hc : c ∈ brk
    · rw [List.cons_append, strpbrkIn.eq_def]
      simp [hc]
    · rw [if_pos (decide_eq_true hc)]
      cases start with
      | nil => simp [strpbrkIn, hc]
      | cons d start =>
        have hd : d ≠ nul := hstart d (by simp)
        have hrest := ih (by simp) fun x hx => hstart x (List.mem_cons_of_mem _ hx)
        rw [List.cons_append] at hrest
        rw [List.cons_append, List.cons_append, strpbrkIn, if_neg hc, if_neg hd, hrest]
        rfl

end Scan

theorem parseFrom_blank {b : Char} (hb : isBlank b = true) (room pos : Nat) (memory : List Char) :
    parseFrom room pos (b :: memory) =
      ((parseFrom room (pos + 1) memory).1, b :: (parseFrom room (pos + 1) memory).2) := by
  have hdrop : (b :: memory).dropWhile isBlank = memory.dropWhile isBlank := by
    rw [List.dropWhile_cons, if_pos hb]
  have hlead : ∀ c, lead (b :: memory) c = b :: lead memory c := by
    intro c
    rw [lead, lead, List.takeWhile_cons, if_pos hb]
    rfl
  have hpos : ∀ l : List Char, pos + (l.length + 1) = pos + 1 + l.length := fun l => by omega
  cases hd : memory.dropWhile isBlank with
  | nil => cases room <;> simp only [parseFrom, endExcess, hdrop, hd]
  | cons c rest =>
    by_cases hc : c = nul
    · cases room <;> simp only [parseFrom, endExcess, hdrop, hd, hc, if_true]
    cases hend : argumentEnd c rest with
    | nil =>
      cases room <;> simp only [parseFrom, endExcess, hdrop, hd, if_neg hc, hend, hlead,
        List.length_cons, hpos]
    | cons d more =>
      cases room with
      | zero =>
        simp only [parseFrom, endExcess, hdrop, hd, if_neg hc, hend, hlead, List.cons_append]
      | succ room =>
        by_cases hdn : d = nul
        · simp only [parseFrom, hdrop, hd, if_neg hc, hend, hdn, if_true, hlead, List.length_cons,
            hpos]
        · simp only [parseFrom, hdrop, hd, if_neg hc, hend, if_neg hdn, hlead, List.length_cons,
            List.cons_append, hpos]

theorem within_blank {b : Char} (hb : isBlank b = true) (room : Nat) (line : List Char) :
    within room (b :: line) = within room line := by
  have hdrop : (b :: line).dropWhile isBlank = line.dropWhile isBlank := by
    rw [List.dropWhile_cons, if_pos hb]
  rw [within, within, hdrop]

/-- The room that the counter and the limit leave; from 65536 on the counter never reaches the
limit. -/
def Leaves (maxCnt : Int) (nargs room : Nat) (line : List Char) : Prop :=
  maxCnt < 2 ^ 16 ∧ (nargs : Int) + room = maxCnt ∨
    (2 : Int) ^ 16 ≤ maxCnt ∧ nargs < 2 ^ 16 ∧ line.length < room

section Round

variable {maxCnt : Int} {s : Parse} {front line rest more : List Char} {c d : Char} {room : Nat}

theorem Leaves.full (h : Leaves maxCnt s.found.nargs 0 line) :
    ¬ (s.found.nargs : Int) < maxCnt := by
  unfold Leaves at h
  omega

theorem Leaves.free (h : Leaves maxCnt s.found.nargs (room + 1) line) :
    (s.found.nargs : Int) < maxCnt := by
  unfold Leaves at h
  omega

theorem Leaves.stored {p : Nat} {shorter : List Char}
    (h : Leaves maxCnt s.found.nargs (room + 1) line) (hlength : shorter.length < line.length) :
    Leaves maxCnt (s.found.store p).nargs room shorter := by
  have hnargs : (s.found.store p).nargs = (s.found.nargs + 1) % 2 ^ 16 := rfl
  unfold Leaves at h ⊢
  rw [hnargs]
  omega

theorem Leaves.shorter {room : Nat} {shorter : List Char}
    (h : Leaves maxCnt s.found.nargs room line) (hlength : shorter.length ≤ line.length) :
    Leaves maxCnt s.found.nargs room shorter := by
  unfold Leaves at h ⊢
  omega

structure At (s : Parse) (front rest : List Char) : Prop where
  memory : s.memory = front ++ rest
  lp : s.lp = front.length

theorem At.read (h : At s front rest) : s.memory[s.lp]? = rest.head? := by
  rw [h.memory, h.lp, List.getElem?_append_right (Nat.le_refl _), Nat.sub_self,
    List.head?_eq_getElem?]

theorem round_end (h : At s front [nul]) : parseRound maxCnt s = some (s, false) := by
  rw [parseRound, h.read]
  rfl

theorem round_behind (h : s.memory.length ≤ s.lp) : parseRound maxCnt s = none := by
  rw [parseRound, List.getElem?_eq_none h]
  rfl

theorem round_blank (h : At s front (c :: rest)) (hc : isBlank c = true) :
    parseRound maxCnt s = some ({ s with lp := s.lp + 1 }, true) := by
  have hnul : c ≠ nul := by
    rintro rfl
    exact absurd hc (by decide)
  rw [parseRound, h.read]
  simp [hnul, hc]

theorem dropWhile_self (hblank : isBlank c = false) :
    (c :: rest).dropWhile isBlank = c :: rest := by
  rw [List.dropWhile_cons, hblank, if_neg (by decide)]

theorem length_lead (hblank : isBlank c = false) :
    (lead (c :: rest) c).length = if c = '"' then 1 else 0 := by
  rw [lead, List.takeWhile_cons, hblank, if_neg (by decide), List.nil_append]
  split <;> rfl

theorem round_argument (h : At s front (c :: rest)) (hblank : isBlank c = false) (hc : c ≠ nul) :
    parseRound maxCnt s =
      (strpbrkIn (breaks c) (argumentStart c rest)).bind fun size =>
        ((argumentStart c rest)[size]?).bind fun d =>
          let lp := (front ++ lead (c :: rest) c).length
          some <|
            if (s.found.nargs : Int) < maxCnt then
              if d ≠ nul then
                (⟨s.memory.set (lp + size) nul, lp + size + (if c = '"' then 1 else 0) + 1,
                  s.found.store lp⟩, true)
              else (⟨s.memory, lp + size, s.found.store lp⟩, false)
            else (if d ≠ nul then { s with memory := s.memory.set (lp + size) nul } else s,
              false) := by
  have hsplit := lead_append (@dropWhile_self rest c hblank)
  have hmemory : s.memory = (front ++ lead (c :: rest) c) ++ argumentStart c rest := by
    rw [h.memory, List.append_assoc, hsplit]
  have hlp : (if c = '"' then s.lp + 1 else s.lp) = (front ++ lead (c :: rest) c).length := by
    rw [h.lp, List.length_append, length_lead hblank]
    split <;> rfl
  have hread : ∀ size, s.memory[(front ++ lead (c :: rest) c).length + size]? =
      (argumentStart c rest)[size]? := by
    intro size
    rw [hmemory, List.getElem?_append_right (Nat.le_add_right _ _), Nat.add_sub_cancel_left]
  have hdrop : s.memory.drop (front ++ lead (c :: rest) c).length = argumentStart c rest := by
    rw [hmemory, List.drop_left]
  rw [parseRound, h.read]
  simp only [List.head?_cons, Option.bind_eq_bind, Option.bind_some, if_neg hc, hblank,
    Bool.false_eq_true, if_false, hlp, hdrop, hread]
  split
  · refine Option.bind_congr fun size _ => Option.bind_congr fun d _ => ?_
    split <;> rfl
  · rfl

section Line

variable (h : At s front (c :: rest ++ [nul])) (hblank : isBlank c = false)
  (hnul : ∀ x ∈ c :: rest, x ≠ nul)

include h hblank hnul

theorem round_quote (hstart : argumentStart c rest = []) : parseRound maxCnt s = none := by
  have hc : c = '"' := by
    unfold argumentStart at hstart
    split at hstart
    next hc => exact hc
    next => cases hstart
  rw [List.cons_append] at h
  rw [round_argument h hblank (hnul c List.mem_cons_self), argumentStart_append, hstart, hc]
  rfl

omit hnul in
theorem memory_argument : s.memory =
    (front ++ lead (c :: rest ++ [nul]) c ++ (argumentStart c rest).takeWhile (· ∉ breaks c)) ++
      ((argumentStart c rest).dropWhile (· ∉ breaks c) ++ [nul]) := by
  have hsplit := lead_append (@dropWhile_self (rest ++ [nul]) c hblank)
  rw [argumentStart_line, ← List.cons_append] at hsplit
  rw [h.memory, List.append_assoc, List.append_assoc, hsplit]

theorem round_found (hne : argumentStart c rest ≠ []) :
    parseRound maxCnt s =
      (((argumentStart c rest).dropWhile (· ∉ breaks c) ++ [nul]).head?).bind fun d =>
        let lp := (front ++ lead (c :: rest ++ [nul]) c).length
        let stop := lp + ((argumentStart c rest).takeWhile (· ∉ breaks c)).length
        some <|
          if (s.found.nargs : Int) < maxCnt then
            if d ≠ nul then
              (⟨s.memory.set stop nul, stop + (if c = '"' then 1 else 0) + 1, s.found.store lp⟩,
                true)
            else (⟨s.memory, stop, s.found.store lp⟩, false)
          else (if d ≠ nul then { s with memory := s.memory.set stop nul } else s, false) := by
  have hstart := ne_nul_of_argumentStart hnul
  have hread : (argumentStart c (rest ++ [nul]))[((argumentStart c rest).takeWhile
      (· ∉ breaks c)).length]? =
        ((argumentStart c rest).dropWhile (· ∉ breaks c) ++ [nul]).head? := by
    rw [argumentStart_line, List.getElem?_append_right (Nat.le_refl _), Nat.sub_self,
      List.head?_eq_getElem?]
  rw [List.cons_append] at h ⊢
  rw [round_argument h hblank (hnul c List.mem_cons_self), argumentStart_append,
    strpbrkIn_line hne hstart, Option.bind_some, ← argumentStart_append, hread]

theorem round_last (hne : argumentStart c rest ≠ [])
    (hend : (argumentStart c rest).dropWhile (· ∉ breaks c) = []) :
    ∃ stop, parseRound maxCnt s = some
      (if (s.found.nargs : Int) < maxCnt then
        ⟨s.memory, stop, s.found.store (front ++ lead (c :: rest ++ [nul]) c).length⟩
      else s, false) := by
  have hfound := @round_found maxCnt s front rest c h hblank hnul hne
  rw [hend] at hfound
  refine ⟨(front ++ lead (c :: rest ++ [nul]) c).length +
    ((argumentStart c rest).takeWhile (· ∉ breaks c)).length, hfound.trans ?_⟩
  simp only [List.nil_append, List.head?_cons, Option.bind_some, ne_eq, not_true_eq_false, if_false]
  split
  · rfl
  · rfl

theorem round_next (hne : argumentStart c rest ≠ [])
    (hend : (argumentStart c rest).dropWhile (· ∉ breaks c) = d :: more) :
    let front' := front ++ lead (c :: rest ++ [nul]) c ++
      (argumentStart c rest).takeWhile (· ∉ breaks c)
    parseRound maxCnt s = some
      (if (s.found.nargs : Int) < maxCnt then
        (⟨front' ++ nul :: (more ++ [nul]), front'.length + (if c = '"' then 1 else 0) + 1,
          s.found.store (front ++ lead (c :: rest ++ [nul]) c).length⟩, true)
      else (⟨front' ++ nul :: (more ++ [nul]), s.lp, s.found⟩, false)) := by
  have hfound := @round_found maxCnt s front rest c h hblank hnul hne
  have hmemory := memory_argument h hblank
  have hd : d ≠ nul := ne_nul_of_dropWhile (ne_nul_of_argumentStart hnul) d
    (by rw [hend]; exact List.mem_cons_self)
  rw [hend] at hfound hmemory
  dsimp only at hfound ⊢
  rw [hfound, hmemory, ← List.length_append, List.set_append_right _ _ (Nat.le_refl _),
    Nat.sub_self]
  simp only [List.cons_append, List.head?_cons, Option.bind_some, ne_eq, hd, not_false_eq_true,
    if_true, List.set_cons_zero]

end Line

end Round

section Argument

variable {c d : Char} {rest more : List Char} (hblank : isBlank c = false)
  (hnul : ∀ x ∈ c :: rest, x ≠ nul) (hne : argumentStart c rest ≠ [])

include hblank hnul hne

theorem parseFrom_last (hend : (argumentStart c rest).dropWhile (· ∉ breaks c) = [])
    (room pos : Nat) :
    parseFrom room pos (c :: rest ++ [nul]) =
      (if room = 0 then [] else [pos + (lead (c :: rest ++ [nul]) c).length],
        c :: rest ++ [nul]) := by
  have hstart := ne_nul_of_argumentStart hnul
  have hlast : argumentEnd c (rest ++ [nul]) = [nul] := by
    rw [argumentEnd_line hne hstart, hend, List.nil_append]
  have hsplit := memory_split (@dropWhile_self (rest ++ [nul]) c hblank)
  rw [hlast] at hsplit
  cases room with
  | zero =>
    simp only [List.cons_append, parseFrom, endExcess, dropWhile_self hblank,
      if_neg (hnul c List.mem_cons_self), hlast, if_true]
    rw [hsplit]
  | succ room =>
    simp only [List.cons_append, parseFrom, dropWhile_self hblank,
      if_neg (hnul c List.mem_cons_self), hlast, if_true, if_neg (Nat.succ_ne_zero room)]

theorem parseFrom_excess (hend : (argumentStart c rest).dropWhile (· ∉ breaks c) = d :: more)
    (pos : Nat) :
    parseFrom 0 pos (c :: rest ++ [nul]) =
      ([], lead (c :: rest ++ [nul]) c ++ (argumentStart c rest).takeWhile (· ∉ breaks c) ++
        nul :: (more ++ [nul])) := by
  have hstart := ne_nul_of_argumentStart hnul
  have hnext : argumentEnd c (rest ++ [nul]) = d :: (more ++ [nul]) := by
    rw [argumentEnd_line hne hstart, hend, List.cons_append]
  simp only [List.cons_append, parseFrom, endExcess, dropWhile_self hblank,
    if_neg (hnul c List.mem_cons_self), hnext, argumentText_line hne hstart]

omit hblank hnul hne in
theorem length_skipped (hq : ¬ (c = '"' ∧ more = [])) :
    (skipped c more).length = if c = '"' then 1 else 0 := by
  unfold skipped
  split
  next hc =>
    obtain ⟨x, more, rfl⟩ := List.exists_cons_of_ne_nil fun hm => hq ⟨hc, hm⟩
    rfl
  next => rfl

theorem parseFrom_next (hend : (argumentStart c rest).dropWhile (· ∉ breaks c) = d :: more)
    (hq : ¬ (c = '"' ∧ more = [])) (room pos : Nat) :
    parseFrom (room + 1) pos (c :: rest ++ [nul]) =
      let front := lead (c :: rest ++ [nul]) c ++ (argumentStart c rest).takeWhile (· ∉ breaks c) ++
        nul :: skipped c more
      let next := parseFrom room (pos + front.length)
        (more.drop (skipped c more).length ++ [nul])
      ((pos + (lead (c :: rest ++ [nul]) c).length) :: next.1, front ++ next.2) := by
  have hstart := ne_nul_of_argumentStart hnul
  have hnext : argumentEnd c (rest ++ [nul]) = d :: (more ++ [nul]) := by
    rw [argumentEnd_line hne hstart, hend, List.cons_append]
  have hd : d ≠ nul := ne_nul_of_dropWhile hstart d (by rw [hend]; exact List.mem_cons_self)
  have hskip := skipped_line hq []
  have hdrop := drop_skipped_line hq []
  rw [hskip] at hdrop
  simp only [List.cons_append, parseFrom, dropWhile_self hblank,
    if_neg (hnul c List.mem_cons_self), hnext, if_neg hd, argumentText_line hne hstart, hskip,
    hdrop]

end Argument

theorem length_more_le {c d : Char} {rest more : List Char}
    (hend : (argumentStart c rest).dropWhile (· ∉ breaks c) = d :: more) :
    more.length ≤ rest.length := by
  have hstart : (argumentStart c rest).length ≤ rest.length + 1 := by
    unfold argumentStart
    split
    · exact Nat.le_succ _
    · exact Nat.le_refl _
  have hdrop := (List.dropWhile_sublist (fun x => decide (x ∉ breaks c))
    (l := argumentStart c rest)).length_le
  rw [hend, List.length_cons] at hdrop
  omega

section Within

variable {c d : Char} {rest more : List Char} (hblank : isBlank c = false)

include hblank

theorem within_quote (hstart : argumentStart c rest = []) (room : Nat) :
    within room (c :: rest) = false := by
  rw [within, dropWhile_self hblank]
  simp [hstart]

theorem within_last (hne : argumentStart c rest ≠ [])
    (hend : (argumentStart c rest).dropWhile (· ∉ breaks c) = []) (room : Nat) :
    within room (c :: rest) = true := by
  rw [within, dropWhile_self hblank]
  simp only [hend]
  exact decide_eq_true hne

theorem within_excess (hend : (argumentStart c rest).dropWhile (· ∉ breaks c) = d :: more) :
    within 0 (c :: rest) = true := by
  rw [within, dropWhile_self hblank]
  simp only [hend]

theorem within_next (hend : (argumentStart c rest).dropWhile (· ∉ breaks c) = d :: more)
    (room : Nat) :
    within (room + 1) (c :: rest) =
      if c = '"' ∧ more = [] then false else within room (more.drop (skipped c more).length) := by
  rw [within, dropWhile_self hblank]
  simp only [hend]

end Within

section Rounds

variable {maxCnt : Int} {rounds room : Nat} {s : Parse} {front line rest more : List Char}
  {c d : Char}

/-- What the loop leaves, if it stays within the line: the arguments and the memory of the parser
on the list of what is left. -/
def Rounds (maxCnt : Int) (rounds room : Nat) (s : Parse) (front line : List Char) : Prop :=
  if within room line then
    ∃ lp, parseRounds maxCnt rounds s = some
      ⟨front ++ (parseFrom room front.length (line ++ [nul])).2, lp,
        (parseFrom room front.length (line ++ [nul])).1.foldl Args.store s.found⟩
  else parseRounds maxCnt rounds s = none

theorem rounds_nil (h : At s front [nul]) : Rounds maxCnt (rounds + 1) room s front [] := by
  have hmemory := h.memory
  have hwithin : within room [] = true := by rw [within]; rfl
  have hparse : parseFrom room front.length ([] ++ [nul]) = ([], [nul]) := by
    cases room <;> rfl
  rw [Rounds, if_pos hwithin, parseRounds, round_end h, hparse]
  refine ⟨s.lp, ?_⟩
  simp only [Option.bind_eq_bind, Option.bind_some, Bool.false_eq_true, if_false,
    List.foldl_nil, ← hmemory]

theorem at_blank (h : At s front (c :: rest ++ [nul])) :
    At { s with lp := s.lp + 1 } (front ++ [c]) (rest ++ [nul]) := by
  refine ⟨?_, ?_⟩
  · rw [h.memory, List.append_assoc]
    rfl
  · rw [List.length_append, ← h.lp]
    rfl

theorem rounds_blank (h : At s front (c :: rest ++ [nul])) (hblank : isBlank c = true)
    (hrest : Rounds maxCnt rounds room { s with lp := s.lp + 1 } (front ++ [c]) rest) :
    Rounds maxCnt (rounds + 1) room s front (c :: rest) := by
  rw [Rounds, List.length_append, List.length_singleton] at hrest
  rw [Rounds, within_blank hblank, List.cons_append, parseFrom_blank hblank, parseRounds,
    round_blank h hblank]
  simp only [List.append_assoc, List.singleton_append] at hrest
  exact hrest

section Line

variable (h : At s front (c :: rest ++ [nul])) (hblank : isBlank c = false)
  (hnul : ∀ x ∈ c :: rest, x ≠ nul)

include h hblank hnul

theorem rounds_quote (hne : argumentStart c rest = []) :
    Rounds maxCnt (rounds + 1) room s front (c :: rest) := by
  rw [Rounds, within_quote hblank hne, if_neg (by decide), parseRounds,
    round_quote h hblank hnul hne]
  rfl

theorem rounds_last (hne : argumentStart c rest ≠ [])
    (hend : (argumentStart c rest).dropWhile (· ∉ breaks c) = [])
    (hroom : Leaves maxCnt s.found.nargs room (c :: rest)) :
    Rounds maxCnt (rounds + 1) room s front (c :: rest) := by
  obtain ⟨stop, hlast⟩ := @round_last maxCnt s front rest c h hblank hnul hne hend
  rw [Rounds, if_pos (within_last hblank hne hend room), parseRounds, hlast,
    parseFrom_last hblank hnul hne hend, ← h.memory]
  cases room with
  | zero =>
    rw [if_neg hroom.full]
    exact ⟨s.lp, rfl⟩
  | succ room =>
    rw [if_pos hroom.free, if_neg (Nat.succ_ne_zero room), List.length_append]
    exact ⟨stop, rfl⟩

theorem rounds_excess (hne : argumentStart c rest ≠ [])
    (hend : (argumentStart c rest).dropWhile (· ∉ breaks c) = d :: more)
    (hroom : Leaves maxCnt s.found.nargs 0 (c :: rest)) :
    Rounds maxCnt (rounds + 1) 0 s front (c :: rest) := by
  have hnext := @round_next maxCnt s front rest more c d h hblank hnul hne hend
  dsimp only at hnext
  rw [if_neg hroom.full] at hnext
  rw [Rounds, if_pos (within_excess hblank hend), parseRounds, hnext,
    parseFrom_excess hblank hnul hne hend]
  refine ⟨s.lp, ?_⟩
  simp only [List.append_assoc]
  rfl

/-- The closing quote is the last character, and the next round reads behind the zero. -/
theorem rounds_closed (hc : c = '"') (hne : argumentStart c rest ≠ [])
    (hend : (argumentStart c rest).dropWhile (· ∉ breaks c) = [d])
    (hroom : Leaves maxCnt s.found.nargs (room + 1) (c :: rest)) (hrounds : rounds ≠ 0) :
    Rounds maxCnt (rounds + 1) (room + 1) s front (c :: rest) := by
  have hnext := @round_next maxCnt s front rest [] c d h hblank hnul hne hend
  dsimp only at hnext
  rw [if_pos hroom.free] at hnext
  have hq : c = '"' ∧ ([] : List Char) = [] := ⟨hc, rfl⟩
  rw [Rounds, within_next hblank hend, parseRounds, hnext, if_pos hq, if_neg (by decide)]
  obtain ⟨rounds, rfl⟩ := Nat.exists_eq_succ_of_ne_zero hrounds
  simp only [Option.bind_eq_bind, Option.bind_some, if_true, parseRounds]
  rw [round_behind]
  · rfl
  · rw [if_pos hc]
    simp only [List.length_append, List.length_cons, List.length_nil]
    omega

def Parse.behind (s : Parse) (front rest more : List Char) (c : Char) : Parse :=
  let front' := front ++ lead (c :: rest ++ [nul]) c ++
    (argumentStart c rest).takeWhile (· ∉ breaks c)
  ⟨front' ++ nul :: (more ++ [nul]), front'.length + (if c = '"' then 1 else 0) + 1,
    s.found.store (front ++ lead (c :: rest ++ [nul]) c).length⟩

omit h hblank hnul in
theorem at_behind (hq : ¬ (c = '"' ∧ more = [])) :
    At (s.behind front rest more c)
      (front ++ (lead (c :: rest ++ [nul]) c ++
        (argumentStart c rest).takeWhile (· ∉ breaks c) ++ nul :: skipped c more))
      (more.drop (skipped c more).length ++ [nul]) := by
  refine ⟨?_, ?_⟩
  · have hmore := skipped_append_drop c more
    simp only [Parse.behind, List.append_assoc, List.cons_append] at hmore ⊢
    rw [← List.append_assoc (skipped c more), hmore]
  · have hskip := length_skipped hq
    simp only [Parse.behind, List.length_append, List.length_cons, hskip]
    omega

theorem rounds_next (hne : argumentStart c rest ≠ [])
    (hend : (argumentStart c rest).dropWhile (· ∉ breaks c) = d :: more)
    (hq : ¬ (c = '"' ∧ more = []))
    (hroom : Leaves maxCnt s.found.nargs (room + 1) (c :: rest))
    (hrest : Rounds maxCnt rounds room (s.behind front rest more c)
      (front ++ (lead (c :: rest ++ [nul]) c ++
        (argumentStart c rest).takeWhile (· ∉ breaks c) ++ nul :: skipped c more))
      (more.drop (skipped c more).length)) :
    Rounds maxCnt (rounds + 1) (room + 1) s front (c :: rest) := by
  have hnext := @round_next maxCnt s front rest more c d h hblank hnul hne hend
  dsimp only at hnext
  rw [if_pos hroom.free] at hnext
  rw [Rounds, within_next hblank hend, parseRounds, hnext, if_neg hq,
    parseFrom_next hblank hnul hne hend hq]
  simp only [Rounds, Parse.behind, List.append_assoc, List.length_append, List.foldl_cons,
    Option.bind_eq_bind, Option.bind_some, if_true] at hrest ⊢
  exact hrest

end Line

theorem parseRounds_spec (h : At s front (line ++ [nul])) (hline : ∀ x ∈ line, x ≠ nul)
    (hrounds : line.length < rounds) (hroom : Leaves maxCnt s.found.nargs room line) :
    Rounds maxCnt rounds room s front line := by
  induction rounds generalizing s front line room with
  | zero => exact absurd hrounds (Nat.not_lt_zero _)
  | succ rounds ih =>
    cases line with
    | nil => exact rounds_nil h
    | cons c rest =>
      rw [List.length_cons] at hrounds
      cases hblank : isBlank c with
      | true =>
        exact rounds_blank h hblank (ih (at_blank h)
          (fun x hx => hline x (List.mem_cons_of_mem _ hx)) (by omega)
            (hroom.shorter (Nat.le_succ _)))
      | false =>
        by_cases hne : argumentStart c rest = []
        · exact rounds_quote h hblank hline hne
        cases hend : (argumentStart c rest).dropWhile (· ∉ breaks c) with
        | nil => exact rounds_last h hblank hline hne hend hroom
        | cons d more =>
          cases room with
          | zero => exact rounds_excess h hblank hline hne hend hroom
          | succ room =>
            by_cases hq : c = '"' ∧ more = []
            · obtain ⟨hc, rfl⟩ := hq
              exact rounds_closed h hblank hline hc hne hend hroom (by omega)
            · have hlength : (more.drop (skipped c more).length).length ≤ rest.length := by
                have hle := length_more_le hend
                rw [List.length_drop]
                omega
              exact rounds_next h hblank hline hne hend hq hroom
                (ih (at_behind hq) (ne_nul_of_next hline (dropWhile_self hblank) hend) (by omega)
                  (hroom.stored (Nat.lt_succ_of_le hlength)))

end Rounds

section Pointers

def Pointed (s : Parse) : Prop := ∀ j p, s.found.args j = some p → p < s.memory.length

variable {maxCnt : Int} {s t : Parse} {more : Bool}

theorem Args.store_some {a : Args} {j p q : Nat} (h : (a.store p).args j = some q) :
    q = p ∨ a.args j = some q := by
  simp only [Args.store, Function.update_apply] at h
  split at h
  · exact Or.inl (Option.some.inj h).symm
  · exact Or.inr h

theorem parseRound_pointed (h : Pointed s) (hround : parseRound maxCnt s = some (t, more)) :
    Pointed t ∧ t.memory.length = s.memory.length := by
  simp only [parseRound, Option.bind_eq_bind, Option.bind_eq_some_iff] at hround
  obtain ⟨c, -, hround⟩ := hround
  split at hround
  · cases hround
    exact ⟨h, rfl⟩
  split at hround
  · cases hround
    exact ⟨h, rfl⟩
  split at hround
  · obtain ⟨size, -, hround⟩ := Option.bind_eq_some_iff.mp hround
    obtain ⟨d, hd, hround⟩ := Option.bind_eq_some_iff.mp hround
    obtain ⟨hin, -⟩ := List.getElem?_eq_some_iff.mp hd
    have hstored : ∀ j p, (s.found.store (if c = '"' then s.lp + 1 else s.lp)).args j = some p →
        p < s.memory.length := by
      intro j p hp
      obtain rfl | hold := Args.store_some hp
      · omega
      · exact h j p hold
    split at hround
    · cases hround
      refine ⟨fun j p hp => ?_, List.length_set ..⟩
      rw [List.length_set]
      exact hstored j p hp
    · cases hround
      exact ⟨hstored, rfl⟩
  · obtain ⟨size, -, hround⟩ := Option.bind_eq_some_iff.mp hround
    obtain ⟨d, -, hround⟩ := Option.bind_eq_some_iff.mp hround
    cases hround
    split
    · refine ⟨fun j p hp => ?_, List.length_set ..⟩
      rw [List.length_set]
      exact h j p hp
    · exact ⟨h, rfl⟩

theorem parseRounds_pointed {rounds : Nat} (h : Pointed s)
    (hrounds : parseRounds maxCnt rounds s = some t) :
    Pointed t ∧ t.memory.length = s.memory.length := by
  induction rounds generalizing s with
  | zero =>
    cases hrounds
    exact ⟨h, rfl⟩
  | succ rounds ih =>
    rw [parseRounds, Option.bind_eq_bind, Option.bind_eq_some_iff] at hrounds
    obtain ⟨⟨u, more⟩, hround, hrest⟩ := hrounds
    obtain ⟨hu, hlength⟩ := parseRound_pointed h hround
    cases more with
    | false =>
      cases hrest
      exact ⟨hu, hlength⟩
    | true =>
      obtain ⟨ht, hlength'⟩ := ih hu hrest
      exact ⟨ht, hlength'.trans hlength⟩

end Pointers

/-- Each place that is read or written lies in the line or is that of its zero, and so does each
stored pointer. -/
def StaysInLine (maxCnt : Int) (line : List Char) : Prop :=
  ∃ t, parseLineIn maxCnt (line ++ [nul]) = some t ∧
    ∀ j p, t.found.args j = some p → p ≤ line.length

/-- The arguments that are stored before the limit is reached; the counter turns over before a limit
of 65536. -/
def roomOf (maxCnt : Int) (line : List Char) : Nat :=
  if maxCnt < 2 ^ 16 then maxCnt.toNat else line.length + 1

theorem leaves_start {maxCnt : Int} (hmax : 0 < maxCnt) (line : List Char) :
    Leaves maxCnt 0 (roomOf maxCnt line) line := by
  unfold Leaves roomOf
  split <;> omega

theorem parseLineIn_spec {maxCnt : Int} (hmax : 0 < maxCnt) {line : List Char}
    (hline : ∀ x ∈ line, x ≠ nul) :
    if within (roomOf maxCnt line) line then
      ∃ lp, parseLineIn maxCnt (line ++ [nul]) = some
        ⟨(parseFrom (roomOf maxCnt line) 0 (line ++ [nul])).2, lp,
          (parseFrom (roomOf maxCnt line) 0 (line ++ [nul])).1.foldl Args.store ⟨0, fun _ => none⟩⟩
    else parseLineIn maxCnt (line ++ [nul]) = none := by
  have hstart : At ⟨line ++ [nul], 0, ⟨0, fun _ => none⟩⟩ [] (line ++ [nul]) := ⟨rfl, rfl⟩
  have hrounds : line.length < (line ++ [nul]).length + 1 := by
    rw [List.length_append]
    omega
  have hspec := parseRounds_spec hstart hline hrounds (leaves_start hmax line)
  rw [parseLineIn, if_neg (Int.not_le.mpr hmax)]
  exact hspec

theorem parseLineIn_pointed {maxCnt : Int} {line : List Char} {t : Parse}
    (ht : parseLineIn maxCnt (line ++ [nul]) = some t) :
    ∀ j p, t.found.args j = some p → p ≤ line.length := by
  intro j p hp
  rw [parseLineIn] at ht
  split at ht
  · cases ht
    cases hp
  · obtain ⟨hpointed, hlength⟩ := parseRounds_pointed (fun _ _ h => by cases h) ht
    have hlt := hpointed j p hp
    rw [hlength, List.length_append] at hlt
    exact Nat.le_of_lt_succ hlt

/-- The parser leaves the line exactly when a quote at its end opens an argument, or closes one
that is stored. -/
theorem stays_in_line_iff (maxCnt : Int) {line : List Char} (hline : ∀ x ∈ line, x ≠ nul) :
    StaysInLine maxCnt line ↔ maxCnt ≤ 0 ∨ within (roomOf maxCnt line) line = true := by
  by_cases hmax : maxCnt ≤ 0
  · have hnone : parseLineIn maxCnt (line ++ [nul]) = some ⟨line ++ [nul], 0, ⟨0, fun _ => none⟩⟩ :=
      if_pos hmax
    exact iff_of_true ⟨_, hnone, parseLineIn_pointed hnone⟩ (Or.inl hmax)
  · have hspec := parseLineIn_spec (Int.not_le.mp hmax) hline
    rw [or_iff_right hmax]
    constructor
    · intro ⟨t, ht, _⟩
      by_contra hwithin
      rw [if_neg hwithin, ht] at hspec
      cases hspec
    · intro hwithin
      rw [if_pos hwithin] at hspec
      obtain ⟨lp, ht⟩ := hspec
      exact ⟨_, ht, parseLineIn_pointed ht⟩

/-- An argument in quotes in the middle of the line. -/
theorem stays_in_line_iff_quoted : StaysInLine 17 "sd \"a b\" 1".toList :=
  have hline : ∀ x ∈ "sd \"a b\" 1".toList, x ≠ nul := by simp [nul]
  (stays_in_line_iff 17 hline).mpr (Or.inr (by decide))

/-- A quote at the end of the line closes the last argument, or opens one. -/
theorem leaves_line : ¬ StaysInLine 17 "sd \"a b\"".toList ∧ ¬ StaysInLine 17 "sd \"".toList := by
  constructor
  · rintro ⟨t, ht, -⟩
    cases ht
  · rintro ⟨t, ht, -⟩
    cases ht

end NanoVNA.LinePointers
