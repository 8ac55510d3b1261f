import NanoVNA.ShellArguments

namespace NanoVNA.LineParser

open NanoVNA.ShellArguments

def nul : Char := '\x00'

def isBlank (c : Char) : Bool := c = ' ' ∨ c = '\t'

/-- How far `_strpbrk` goes in the memory it is called on. The first character is not compared with
the zero. -/
def strpbrk (brk : List Char) : List Char → Nat
  | [] => 0
  | c :: rest => if c ∈ brk then 0 else if rest.head? = some nul then 1 else strpbrk brk rest + 1

def cString (memory : List Char) : Arg := memory.takeWhile (· ≠ nul)

/-- The arguments `parse_line` finds in the memory, with room for so many more. The zeros it puts
at the ends of the arguments are not read by it again. -/
def parseLine : Nat → List Char → List Arg
  | 0, _ => []
  | room + 1, memory =>
    match memory.dropWhile isBlank with
    | [] => []
    | c :: rest =>
      if c = nul then []
      else
        let start := if c = '"' then rest else c :: rest
        let size := strpbrk (if c = '"' then ['"'] else [' ', '\t']) start
        cString (start.take size) ::
          match start.drop size with
          | [] => []
          | d :: more =>
            if d = nul then [] else parseLine room (if c = '"' then more.drop 1 else more)

example : parseLine 4 "scan  1 \"a b\" 2 3\x00x".toList =
    ["scan".toList, "1".toList, "a b".toList, "2".toList] := by decide

def Plain (c : Char) : Prop := isBlank c = false ∧ c ≠ nul ∧ c ≠ '"'

instance (c : Char) : Decidable (Plain c) := inferInstanceAs (Decidable (_ ∧ _ ∧ _))

theorem plain_of_all {word : List Char} (h : word.all fun c => decide (Plain c)) :
    ∀ c ∈ word, Plain c := fun c hc => of_decide_eq_true (List.all_eq_true.mp h c hc)

def Ends (d : Char) : Prop := isBlank d = true ∨ d = nul

theorem plain_of_isDigit {c : Char} (h : c.isDigit = true) : Plain c := by
  refine ⟨?_, ?_, ?_⟩
  · rw [isBlank, decide_eq_false_iff_not]
    rintro (rfl | rfl) <;> exact absurd h (by decide)
  · rintro rfl
    exact absurd h (by decide)
  · rintro rfl
    exact absurd h (by decide)

theorem ends_space : Ends ' ' := .inl rfl

theorem ends_nul : Ends nul := .inr rfl

theorem parseLine_nul (room : Nat) (stale : List Char) : parseLine room (nul :: stale) = [] := by
  cases room <;> rfl

theorem parseLine_blank {b : Char} (hb : isBlank b = true) (room : Nat) (rest : List Char) :
    parseLine room (b :: rest) = parseLine room rest := by
  cases room with
  | zero => rfl
  | succ room => rw [parseLine, parseLine, List.dropWhile_cons, if_pos hb]

theorem not_mem_blanks {c : Char} (h : isBlank c = false) : c ∉ [' ', '\t'] := by
  rw [isBlank, decide_eq_false_iff_not, not_or] at h
  intro hmem
  rw [List.mem_cons, List.mem_singleton] at hmem
  exact hmem.elim h.1 h.2

theorem mem_blanks_or_nul {d : Char} (h : Ends d) : d ∈ [' ', '\t'] ∨ d = nul := by
  obtain h | h := h
  · rw [isBlank, decide_eq_true_eq] at h
    exact .inl (by rwa [List.mem_cons, List.mem_singleton])
  · exact .inr h

theorem strpbrk_word {c : Char} {word : List Char} (hword : ∀ x ∈ c :: word, Plain x) {d : Char}
    (hd : Ends d) (rest : List Char) :
    strpbrk [' ', '\t'] (c :: word ++ d :: rest) = (c :: word).length := by
  induction word generalizing c with
  | nil =>
    have hc := not_mem_blanks (hword c List.mem_cons_self).1
    rw [List.cons_append, strpbrk, if_neg hc]
    split
    · rfl
    · rename_i hnul
      obtain hmem | rfl := mem_blanks_or_nul hd
      · rw [List.nil_append, strpbrk, if_pos hmem]
        rfl
      · exact absurd rfl hnul
  | cons e word ih =>
    have hc := not_mem_blanks (hword c List.mem_cons_self).1
    have he := (hword e (List.mem_cons_of_mem _ List.mem_cons_self)).2.1
    have hhead : (e :: word ++ d :: rest).head? ≠ some nul := fun h => he (Option.some.inj h)
    have hrest := ih fun x hx => hword x (List.mem_cons_of_mem _ hx)
    rw [List.cons_append, strpbrk, if_neg hc, if_neg hhead, hrest]
    rfl

theorem cString_eq_self {word : List Char} (h : ∀ x ∈ word, x ≠ nul) : cString word = word := by
  have htake := @List.takeWhile_append_of_pos _ (fun x => decide (x ≠ nul)) word [] fun x hx =>
    decide_eq_true (h x hx)
  rw [List.append_nil, List.takeWhile_nil, List.append_nil] at htake
  exact htake

theorem cString_plain {word : List Char} (hword : ∀ x ∈ word, Plain x) : cString word = word :=
  cString_eq_self fun x hx => (hword x hx).2.1

theorem parseLine_word {c : Char} {word : List Char} (hword : ∀ x ∈ c :: word, Plain x) {d : Char}
    (hd : Ends d) (room : Nat) (rest : List Char) :
    parseLine (room + 1) (c :: word ++ d :: rest) = (c :: word) :: parseLine room (d :: rest) := by
  obtain ⟨hblank, hnul, hquote⟩ := hword c List.mem_cons_self
  have hscan := strpbrk_word hword hd rest
  have htake := @List.take_left _ (c :: word) (d :: rest)
  have hdrop := @List.drop_left _ (c :: word) (d :: rest)
  rw [List.cons_append] at hscan htake hdrop ⊢
  rw [parseLine, List.dropWhile_cons, hblank]
  simp only [Bool.false_eq_true, if_false, if_neg hnul, if_neg hquote, hscan, htake, hdrop,
    cString_plain hword]
  obtain hb | rfl := hd
  · have hd' : d ≠ nul := by
      rintro rfl
      exact absurd hb (by decide)
    rw [if_neg hd', parseLine_blank hb]
  · rw [if_pos rfl, parseLine_nul]

/-- The text holds the words `ws`, whatever comes after it. -/
def Words (text : List Char) (ws : List Arg) : Prop :=
  ∀ room d rest, ws.length ≤ room → Ends d →
    parseLine room (text ++ d :: rest) = ws ++ parseLine (room - ws.length) (d :: rest)

theorem Words.nil : Words [] [] := fun _ _ _ _ _ => rfl

theorem Words.word {word : List Char} (hne : word ≠ []) (hword : ∀ x ∈ word, Plain x) :
    Words word [word] := by
  intro room d rest hroom hd
  obtain ⟨c, word, rfl⟩ := List.exists_cons_of_ne_nil hne
  obtain ⟨room, rfl⟩ := Nat.exists_eq_succ_of_ne_zero (Nat.ne_of_gt hroom)
  exact parseLine_word hword hd room rest

theorem Words.space {text text' : List Char} {ws ws' : List Arg} (h : Words text ws)
    (h' : Words text' ws') : Words (text ++ ' ' :: text') (ws ++ ws') := by
  intro room d rest hroom hd
  rw [List.length_append] at hroom
  have hfirst := h room ' ' (text' ++ d :: rest) (by omega) ends_space
  have hsecond := h' (room - ws.length) d rest (by omega) hd
  rw [parseLine_blank rfl] at hfirst
  rw [List.append_assoc, List.cons_append, hfirst, hsecond, List.append_assoc, List.length_append,
    Nat.sub_sub]

theorem Words.parse {text : List Char} {ws : List Arg} (h : Words text ws) {room : Nat}
    (hroom : ws.length ≤ room) (stale : List Char) : parseLine room (text ++ nul :: stale) = ws := by
  rw [h room nul stale hroom ends_nul, parseLine_nul, List.append_nil]

end NanoVNA.LineParser
