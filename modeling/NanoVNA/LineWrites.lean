import NanoVNA.ArgumentBuffer

namespace NanoVNA.LineWrites

open NanoVNA.LineParser NanoVNA.ArgumentBuffer

/-- The first argument of the memory, if there is one, runs up to its end: no zero is put behind
it. -/
def unended (memory : List Char) : Bool :=
  match memory.dropWhile isBlank with
  | [] => true
  | c :: rest => c = nul ∨ argumentEnd c rest = [] ∨ (argumentEnd c rest).head? = some nul

/-- With room for so many arguments more, `parse_line` ends no argument behind the line: no quote
that opens or closes an argument is the last character, or what is then taken for an argument has no
end there. -/
def confined : Nat → List Char → List Char → Bool
  | room, line, behind =>
    match line.dropWhile isBlank with
    | [] => true
    | c :: rest =>
      match (argumentStart c rest).dropWhile (· ∉ breaks c) with
      | [] => argumentStart c rest ≠ [] ∨ unended ('"' :: nul :: behind)
      | _ :: more =>
        match room with
        | 0 => true
        | room + 1 =>
          if c = '"' ∧ more = [] then unended behind
          else confined room (more.drop (skipped c more).length) behind

variable {room pos : Nat} {memory line stale rest : List Char} {c d : Char}

theorem parseFrom_ended (room pos : Nat) {more : List Char} (hd : memory.dropWhile isBlank = c :: rest)
    (hc : c ≠ nul) (hend : argumentEnd c rest = d :: more) (hdn : d ≠ nul) :
    (parseFrom room pos memory).2 = lead memory c ++ argumentText c rest ++ nul ::
      match room with
      | 0 => more
      | room + 1 => skipped c more ++ (parseFrom room
          (pos + (lead memory c ++ argumentText c rest ++ nul :: skipped c more).length)
            (more.drop (skipped c more).length)).2 := by
  cases room with
  | zero => simp only [parseFrom, endExcess, hd, if_neg hc, hend]
  | succ room =>
    simp only [parseFrom, hd, if_neg hc, hend, if_neg hdn, List.append_assoc, List.cons_append]

theorem memory_split (hd : memory.dropWhile isBlank = c :: rest) :
    lead memory c ++ argumentText c rest ++ argumentEnd c rest = memory := by
  rw [List.append_assoc, argument_append, lead_append hd]

theorem not_unended_iff : unended memory = false ↔ ∃ c rest d more,
    memory.dropWhile isBlank = c :: rest ∧ c ≠ nul ∧ argumentEnd c rest = d :: more ∧ d ≠ nul := by
  rw [unended]
  constructor
  · intro h
    split at h
    next => cases h
    next c rest hd =>
      rw [decide_eq_false_iff_not, not_or, not_or] at h
      obtain ⟨hc, hne, hhead⟩ := h
      obtain ⟨d, more, hend⟩ := List.exists_cons_of_ne_nil hne
      refine ⟨c, rest, d, more, hd, hc, hend, fun hdn => hhead ?_⟩
      rw [hend, hdn, List.head?_cons]
  · intro ⟨c, rest, d, more, hd, hc, hend, hdn⟩
    simp [hd, hc, hend, hdn]

theorem parseFrom_eq_iff (room pos : Nat) (memory : List Char) :
    (parseFrom room pos memory).2 = memory ↔ unended memory = true := by
  constructor
  · intro heq
    cases hended : unended memory with
    | true => rfl
    | false =>
      obtain ⟨c, rest, d, more, hd, hc, hend, hdn⟩ := not_unended_iff.mp hended
      have hsplit := memory_split hd
      rw [parseFrom_ended room pos hd hc hend hdn] at heq
      rw [hend] at hsplit
      exact absurd (List.cons.inj (List.append_cancel_left (heq.trans hsplit.symm))).1.symm hdn
  · intro h
    rw [unended] at h
    cases hd : memory.dropWhile isBlank with
    | nil => cases room <;> simp only [parseFrom, endExcess, hd]
    | cons c rest =>
      simp only [hd, decide_eq_true_eq] at h
      by_cases hc : c = nul
      · cases room <;> simp only [parseFrom, endExcess, hd, hc, if_true]
      · have hsplit := memory_split hd
        cases hend : argumentEnd c rest with
        | nil => cases room <;> simp only [parseFrom, endExcess, hd, if_neg hc, hend]
        | cons d more =>
          obtain rfl : nul = d := by
            simpa [hc, hend, eq_comm] using h
          rw [hend] at hsplit
          cases room with
          | zero => simpa only [parseFrom, endExcess, hd, if_neg hc, hend] using hsplit
          | succ room => simp only [parseFrom, hd, if_neg hc, hend, if_true]

theorem lead_line (line stale : List Char) (c : Char) : lead (line ++ nul :: stale) c = lead line c := by
  have htake : (line ++ nul :: stale).takeWhile isBlank = line.takeWhile isBlank := by
    induction line with
    | nil => rfl
    | cons x line ih => rw [List.cons_append, List.takeWhile_cons, List.takeWhile_cons, ih]
  rw [lead, lead, htake]

section Line

variable (hline : ∀ x ∈ line, x ≠ nul) (hd : line.dropWhile isBlank = c :: rest)

theorem dropWhile_line (hd : line.dropWhile isBlank = c :: rest) (stale : List Char) :
    (line ++ nul :: stale).dropWhile isBlank = c :: (rest ++ nul :: stale) := by
  rw [dropWhile_blank_line, hd, List.cons_append]

include hline hd

omit hline in
theorem behind_openingQuote (hstart : argumentStart c rest = []) (room pos : Nat)
    (behind : List Char) :
    (parseFrom room pos (line ++ nul :: behind)).2.drop line.length = nul :: behind ↔
      unended ('"' :: nul :: behind) = true := by
  obtain ⟨rfl, rfl⟩ : c = '"' ∧ rest = [] := by
    unfold argumentStart at hstart
    split at hstart
    case isTrue hc => exact ⟨hc, hstart⟩
    case isFalse => cases hstart
  have hmemory := dropWhile_line hd behind
  have hlead := lead_append hd
  rw [hstart, List.append_nil] at hlead
  have hsame : unended (line ++ nul :: behind) = unended ('"' :: nul :: behind) := by
    rw [unended, hmemory]
    rfl
  rw [← hsame]
  constructor
  · intro heq
    cases hended : unended (line ++ nul :: behind) with
    | true => rfl
    | false =>
      obtain ⟨c, rest, d, more, hd', hc, hend, hdn⟩ := not_unended_iff.mp hended
      obtain ⟨rfl, rfl⟩ := List.cons.inj (hmemory.symm.trans hd')
      have hsplit := argument_append '"' (nul :: behind)
      rw [List.nil_append] at hend
      rw [hend] at hsplit
      rw [parseFrom_ended room pos hmemory hc hend hdn, lead_line, hlead, List.append_assoc,
        List.drop_left, List.nil_append] at heq
      exact absurd (List.cons.inj (List.append_cancel_left (heq.trans hsplit.symm))).1.symm hdn
  · intro h
    rw [(parseFrom_eq_iff room pos _).mpr h, List.drop_left]

theorem behind_lastArgument (hne : argumentStart c rest ≠ [])
    (hend : (argumentStart c rest).dropWhile (· ∉ breaks c) = []) (room pos : Nat)
    (behind : List Char) :
    (parseFrom room pos (line ++ nul :: behind)).2.drop line.length = nul :: behind := by
  have hstart := ne_nul_of_argumentStart (ne_nul_of_dropWhile_eq hline hd)
  have hunended : unended (line ++ nul :: behind) = true := by
    rw [unended, dropWhile_line hd]
    dsimp only
    rw [argumentEnd_line hne hstart, hend]
    exact decide_eq_true (Or.inr (Or.inr rfl))
  rw [(parseFrom_eq_iff room pos _).mpr hunended, List.drop_left]

theorem behind_argument (hne : argumentStart c rest ≠ []) {more : List Char}
    (hend : (argumentStart c rest).dropWhile (· ∉ breaks c) = d :: more) (room pos : Nat)
    (behind : List Char) :
    ∃ pos', (parseFrom room pos (line ++ nul :: behind)).2.drop line.length =
      (match room with
        | 0 => more ++ nul :: behind
        | room + 1 => skipped c (more ++ nul :: behind) ++ (parseFrom room pos'
            ((more ++ nul :: behind).drop (skipped c (more ++ nul :: behind)).length)).2).drop
          more.length := by
  have hstart := ne_nul_of_argumentStart (ne_nul_of_dropWhile_eq hline hd)
  have hc : c ≠ nul := ne_nul_of_dropWhile_eq hline hd c List.mem_cons_self
  have hdn : d ≠ nul := ne_nul_of_dropWhile hstart d (by rw [hend]; exact List.mem_cons_self)
  have hmemory : argumentEnd c (rest ++ nul :: behind) = d :: (more ++ nul :: behind) := by
    rw [argumentEnd_line hne hstart, hend, List.cons_append]
  have hlength : line.length =
      (lead line c ++ (argumentStart c rest).takeWhile (· ∉ breaks c)).length + (more.length + 1) := by
    have hsplit := congrArg List.length (lead_append hd)
    rw [← @List.takeWhile_append_dropWhile _ (· ∉ breaks c) (argumentStart c rest), hend] at hsplit
    simp only [List.length_append, List.length_cons] at hsplit ⊢
    omega
  rw [parseFrom_ended room pos (dropWhile_line hd behind) hc hmemory hdn, lead_line,
    argumentText_line hne hstart, hlength, ← List.drop_drop, List.drop_left, List.drop_succ_cons]
  cases room with
  | zero => exact ⟨pos, rfl⟩
  | succ room => exact ⟨_, rfl⟩

end Line

theorem length_skipped_le (c : Char) (more : List Char) : (skipped c more).length ≤ more.length := by
  unfold skipped
  split
  · exact List.length_take_le' _ _
  · exact Nat.zero_le _

theorem skipped_line {more : List Char} (h : ¬ (c = '"' ∧ more = [])) (stale : List Char) :
    skipped c (more ++ nul :: stale) = skipped c more := by
  unfold skipped
  split
  next hc =>
    obtain ⟨x, more, rfl⟩ := List.exists_cons_of_ne_nil fun hm => h ⟨hc, hm⟩
    rfl
  next => rfl

theorem behind_unbroken (hline : ∀ x ∈ line, x ≠ nul) (room pos : Nat) (behind : List Char)
    (hnone : ¬ ∃ c rest d more, line.dropWhile isBlank = c :: rest ∧
      (argumentStart c rest).dropWhile (· ∉ breaks c) = d :: more) :
    (parseFrom room pos (line ++ nul :: behind)).2.drop line.length = nul :: behind ↔
      confined room line behind = true := by
  rw [confined]
  cases hd : line.dropWhile isBlank with
  | nil =>
    have hunended : unended (line ++ nul :: behind) = true := by
      rw [unended, dropWhile_blank_line, hd]
      exact decide_eq_true (Or.inl rfl)
    rw [(parseFrom_eq_iff room pos _).mpr hunended, List.drop_left]
    exact iff_of_true rfl rfl
  | cons c rest =>
    dsimp only
    cases hend : (argumentStart c rest).dropWhile (· ∉ breaks c) with
    | nil =>
      rw [decide_eq_true_eq]
      by_cases hstart : argumentStart c rest = []
      · rw [behind_openingQuote hd hstart, or_iff_right (not_not_intro hstart)]
      · exact iff_of_true (behind_lastArgument hline hd hstart hend room pos behind) (Or.inl hstart)
    | cons d more => exact absurd ⟨c, rest, d, more, hd, hend⟩ hnone

theorem parseFrom_behind_iff (hline : ∀ x ∈ line, x ≠ nul) (room pos : Nat) (behind : List Char) :
    (parseFrom room pos (line ++ nul :: behind)).2.drop line.length = nul :: behind ↔
      confined room line behind = true := by
  have hstarts : ∀ {c d : Char} {rest more : List Char},
      (argumentStart c rest).dropWhile (· ∉ breaks c) = d :: more → argumentStart c rest ≠ [] := by
    intro c d rest more hend hstart
    rw [hstart] at hend
    cases hend
  induction room generalizing line pos with
  | zero =>
    by_cases hends : ∃ c rest d more, line.dropWhile isBlank = c :: rest ∧
        (argumentStart c rest).dropWhile (· ∉ breaks c) = d :: more
    · obtain ⟨c, rest, d, more, hd, hend⟩ := hends
      obtain ⟨pos', hdrop⟩ := behind_argument hline hd (hstarts hend) hend 0 pos behind
      rw [hdrop, List.drop_left, confined, hd]
      simp only [hend]
    · exact behind_unbroken hline 0 pos behind hends
  | succ room ih =>
    by_cases hends : ∃ c rest d more, line.dropWhile isBlank = c :: rest ∧
        (argumentStart c rest).dropWhile (· ∉ breaks c) = d :: more
    · obtain ⟨c, rest, d, more, hd, hend⟩ := hends
      obtain ⟨pos', hdrop⟩ := behind_argument hline hd (hstarts hend) hend (room + 1) pos behind
      rw [hdrop, confined, hd]
      simp only [hend]
      split
      next hq =>
        obtain ⟨rfl, rfl⟩ := hq
        have hskip : skipped '"' ([] ++ nul :: behind) = [nul] := rfl
        rw [hskip, List.nil_append, ← parseFrom_eq_iff room pos']
        exact List.cons_inj_right nul
      next hq =>
        have hlength : more.length =
            (skipped c more).length + (more.drop (skipped c more).length).length := by
          have hle := length_skipped_le c more
          rw [List.length_drop]
          omega
        refine Iff.trans ?_ (ih (ne_nul_of_next hline hd hend) pos')
        rw [drop_skipped_line hq, skipped_line hq, hlength, ← List.drop_drop, List.drop_left]
    · exact behind_unbroken hline _ pos behind hends

theorem skipped_append_drop (c : Char) (more : List Char) :
    skipped c more ++ more.drop (skipped c more).length = more := by
  rw [drop_skipped, skipped]
  split
  · exact List.take_append_drop 1 more
  · rfl

/-- A change to the memory is one of an argument's end to a zero, and of what is behind it. -/
theorem parseFrom_cases (room pos : Nat) (memory : List Char) :
    (parseFrom room pos memory).2 = memory ∨ ∃ front d more, memory = front ++ d :: more ∧
      ((parseFrom room pos memory).2 = front ++ nul :: more ∨
        ∃ room' pos' kept behind, room = room' + 1 ∧ more = kept ++ behind ∧
          (parseFrom room pos memory).2 =
            front ++ nul :: (kept ++ (parseFrom room' pos' behind).2)) := by
  cases hunended : unended memory with
  | true => exact Or.inl ((parseFrom_eq_iff room pos memory).mpr hunended)
  | false =>
    obtain ⟨c, rest, d, more, hd, hc, hend, hdn⟩ := not_unended_iff.mp hunended
    have hsplit := memory_split hd
    rw [hend] at hsplit
    refine Or.inr ⟨_, d, more, hsplit.symm, ?_⟩
    have hended := parseFrom_ended room pos hd hc hend hdn
    cases room with
    | zero => exact Or.inl hended
    | succ room =>
      exact Or.inr ⟨room, _, _, _, rfl, (skipped_append_drop c more).symm, hended⟩

theorem length_parseFrom (room pos : Nat) (memory : List Char) :
    (parseFrom room pos memory).2.length = memory.length := by
  induction room using Nat.strongRecOn generalizing pos memory with
  | ind room ih =>
    obtain heq | ⟨front, d, more, hmemory, heq | ⟨room', pos', kept, behind, hroom, rfl, heq⟩⟩ :=
      parseFrom_cases room pos memory
    · rw [heq]
    · rw [heq, hmemory]
      simp only [List.length_append, List.length_cons]
    · have hbehind := ih room' (by omega) pos' behind
      rw [heq, hmemory]
      simp only [List.length_append, List.length_cons, hbehind]

theorem parseFrom_nul (room pos : Nat) {i : Nat} (h : memory[i]? = some nul) :
    (parseFrom room pos memory).2[i]? = some nul := by
  induction room using Nat.strongRecOn generalizing pos memory i with
  | ind room ih =>
    obtain heq | ⟨front, d, more, hmemory, heq⟩ := parseFrom_cases room pos memory
    · rw [heq, h]
    · rw [hmemory, List.getElem?_append] at h
      obtain heq | ⟨room', pos', kept, behind, hroom, rfl, heq⟩ := heq
      · rw [heq, List.getElem?_append]
        split
        next hi => rwa [if_pos hi] at h
        next hi =>
          rw [if_neg hi, List.getElem?_cons] at h
          rw [List.getElem?_cons]
          split
          next => rfl
          next hi' => rwa [if_neg hi'] at h
      · rw [heq, List.getElem?_append]
        split
        next hi => rwa [if_pos hi] at h
        next hi =>
          rw [if_neg hi, List.getElem?_cons] at h
          rw [List.getElem?_cons]
          split
          next => rfl
          next hi' =>
            rw [if_neg hi', List.getElem?_append] at h
            rw [List.getElem?_append]
            split
            next hk => rwa [if_pos hk] at h
            next hk =>
              rw [if_neg hk] at h
              exact ih room' (by omega) pos' h

theorem parseFrom_drop_iff (hline : ∀ x ∈ line, x ≠ nul) (room pos : Nat) (behind : List Char) :
    (parseFrom room pos (line ++ nul :: behind)).2.drop (line.length + 1) = behind ↔
      confined room line behind = true := by
  rw [← parseFrom_behind_iff hline room pos behind]
  have hzero : (parseFrom room pos (line ++ nul :: behind)).2[line.length]? = some nul := by
    apply parseFrom_nul
    rw [List.getElem?_append_right (Nat.le_refl _), Nat.sub_self]
    rfl
  obtain ⟨hlt, hget⟩ := List.getElem?_eq_some_iff.mp hzero
  rw [List.drop_eq_getElem_cons hlt, hget]
  exact (List.cons_inj_right nul).symm

end NanoVNA.LineWrites
