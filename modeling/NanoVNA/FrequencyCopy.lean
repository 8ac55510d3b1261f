import NanoVNA.FrequencyText

namespace NanoVNA.FrequencyCopy

open NanoVNA.FrequencyText
open NanoVNA.DeviceState (Board)
open NanoVNA.FloatNumerals (digitChar digitsText digitsValue)

/-! ### The copy of the characters, as one of lists -/

def nextOf (prefixSpace pset : Bool) : List Char → Option (Char × Bool × List Char)
  | [] => none
  | c :: cs =>
    if c = ' ' then
      if pset then some ('.', false, cs)
      else if prefixSpace then some (c, pset, cs)
      else cs.head?.map fun c => (c, pset, cs.tail)
    else some (c, pset, cs)

def copied (prefixSpace : Bool) : Nat → Bool → Int → List Char → Option (List Char)
  | 0, _, _, _ => some []
  | i + 1, pset, precision, cs => do
    let (c, pset, cs) ← nextOf prefixSpace pset cs
    if pset = false ∧ precision < 0 then some []
    else do
      let out ← copied prefixSpace i pset (if pset then precision else precision - 1) cs
      some (c :: out)

/-- From a place on, the buffer has the characters, and nothing behind them. -/
def Holds (buf : Cells) (q : Nat) (cs : List Char) : Prop := ∀ j, buf (q + j) = cs[j]?

section Loop

variable {buf : Cells} {q : Nat} {cs : List Char}

theorem Holds.head (h : Holds buf q cs) : buf q = cs.head? := by
  have hzero := h 0
  rwa [Nat.add_zero, ← List.head?_eq_getElem?] at hzero

theorem Holds.tail (h : Holds buf q cs) : Holds buf (q + 1) cs.tail := by
  intro j
  rw [List.getElem?_tail, ← h (j + 1), Nat.add_assoc, Nat.add_comm 1 j]

theorem nextChar_eq (prefixSpace pset : Bool) (h : Holds buf q cs) :
    match nextOf prefixSpace pset cs with
    | none => nextChar prefixSpace pset q buf = none
    | some (c, pset', cs') => ∃ q', q < q' ∧ Holds buf q' cs' ∧
        nextChar prefixSpace pset q buf = some (c, pset', q') := by
  have hhead := h.head
  cases cs with
  | nil =>
    rw [nextOf]
    dsimp only
    rw [nextChar, hhead]
    rfl
  | cons c cs =>
    have htail : Holds buf (q + 1) cs := h.tail
    rw [nextChar, hhead, nextOf, List.head?_cons, Option.bind_eq_bind, Option.bind_some]
    by_cases hspace : c = ' '
    · rw [if_pos hspace, if_pos hspace]
      cases pset with
      | true => exact ⟨q + 1, Nat.lt_succ_self q, htail, rfl⟩
      | false =>
        cases prefixSpace with
        | true => exact ⟨q + 1, Nat.lt_succ_self q, htail, rfl⟩
        | false =>
          have hsecond := htail.head
          cases cs with
          | nil =>
            simp [hsecond]
          | cons c' cs =>
            refine ⟨q + 2, by omega, htail.tail, ?_⟩
            rw [hsecond]
            rfl
    · rw [if_neg hspace, if_neg hspace]
      exact ⟨q + 1, Nat.lt_succ_self q, htail, rfl⟩

theorem copyLoop_eq {prefixSpace pset : Bool} {precision : Int} {i p : Nat} (h : Holds buf q cs)
    (hp : p < q) (hsize : p + i ≤ tmpbufSize) :
    match copied prefixSpace i pset precision cs with
    | none => copyLoop prefixSpace i pset precision q p buf = none
    | some out => ∃ buf', copyLoop prefixSpace i pset precision q p buf =
        some (p + out.length, buf') ∧ (∀ j < p, buf' j = buf j) ∧
        (∀ j (h : j < out.length), buf' (p + j) = some out[j]) ∧ out.length ≤ i := by
  induction i generalizing pset precision p q cs buf with
  | zero =>
    exact ⟨buf, rfl, fun _ _ => rfl, fun _ h => absurd h (Nat.not_lt_zero _), Nat.le_refl 0⟩
  | succ i ih =>
    have hnext := nextChar_eq prefixSpace pset h
    rw [copied, copyLoop]
    cases hof : nextOf prefixSpace pset cs with
    | none =>
      rw [hof] at hnext
      dsimp only at hnext
      rw [hnext]
      rfl
    | some next =>
      obtain ⟨c, pset', cs'⟩ := next
      rw [hof] at hnext
      obtain ⟨q', hq, hholds, hnext⟩ := hnext
      rw [hnext]
      simp only [Option.bind_eq_bind, Option.bind_some]
      by_cases hstop : pset' = false ∧ precision < 0
      · rw [if_pos hstop, if_pos hstop]
        exact ⟨buf, rfl, fun _ _ => rfl, fun _ h => absurd h (Nat.not_lt_zero _), Nat.zero_le _⟩
      · have hstore : store buf p c = some (Function.update buf p (some c)) := if_pos (by omega)
        have hholds' : Holds (Function.update buf p (some c)) q' cs' := by
          intro j
          rw [Function.update_of_ne (by omega), hholds j]
        have hrest := @ih (Function.update buf p (some c)) q' cs' pset'
          (if pset' then precision else precision - 1) (p + 1) hholds' (by omega) (by omega)
        rw [if_neg hstop, if_neg hstop, hstore, Option.bind_some]
        cases hout :
          copied prefixSpace i pset' (if pset' then precision else precision - 1) cs' with
        | none =>
          rw [hout] at hrest
          exact hrest
        | some out =>
          rw [hout] at hrest
          obtain ⟨buf', hloop, hfront, hchars, hlength⟩ := hrest
          refine ⟨buf', ?_, ?_, ?_, Nat.succ_le_succ hlength⟩
          · rw [hloop, List.length_cons]
            refine congrArg some (Prod.ext ?_ rfl)
            dsimp only
            omega
          · intro j hj
            rw [hfront j (by omega), Function.update_of_ne (by omega)]
          · intro j hj
            cases j with
            | zero => rw [Nat.add_zero, hfront p (Nat.lt_succ_self p), Function.update_self]; rfl
            | succ j =>
              have hchar := hchars j (Nat.lt_of_succ_lt_succ hj)
              rw [show p + (j + 1) = p + 1 + j by omega]
              exact hchar

end Loop

/-! ### The text of a frequency -/

def TextIn (buf : Cells) (text : List Char) : Prop :=
  ∀ j (h : j < text.length), buf j = some text[j]

section Text

variable {buf : Cells} {text : List Char}

theorem textIn_store (h : TextIn buf text) (hsize : text.length < tmpbufSize) (c : Char) :
    ∃ buf', store buf text.length c = some buf' ∧ TextIn buf' (text ++ [c]) := by
  refine ⟨_, if_pos hsize, fun j hj => ?_⟩
  rw [List.length_append, List.length_singleton] at hj
  by_cases hlast : j = text.length
  · subst hlast
    rw [Function.update_self, List.getElem_concat_length rfl]
  · rw [Function.update_of_ne hlast, h j (by omega), List.getElem_append_left]

theorem textOf_eq {i : Nat} (h : ∀ j (h : j < text.length), buf (i + j) = some text[j]) :
    textOf buf i text.length = some text := by
  induction text generalizing i with
  | nil => rfl
  | cons c cs ih =>
    have hfirst := h 0 (Nat.succ_pos _)
    have hrest : ∀ j (hj : j < cs.length), buf (i + 1 + j) = some cs[j] := by
      intro j hj
      have hnext := h (j + 1) (Nat.succ_lt_succ hj)
      rw [show i + 1 + j = i + (j + 1) by omega]
      exact hnext
    rw [Nat.add_zero] at hfirst
    rw [List.length_cons, textOf, hfirst, ih hrest]
    rfl

end Text

def grouped (ds : List (Fin 10)) : List Char := (spaced 0 ds).reverse

def ending (precision : Nat) (letter : Char) : List Char :=
  if precision = 0 ∧ letter ≠ ' ' then [' ', letter] else [letter]

def copyPrecision (precision : Nat) : Nat :=
  if precision = 0 ∨ maxFreqPrecision < precision then maxFreqPrecision else precision

theorem ending_eq {buf : Cells} {text : List Char} (h : TextIn buf text)
    (hsize : text.length + 1 < tmpbufSize) (precision : Nat) (letter : Char) :
    (((if precision = 0 ∧ letter ≠ ' ' then
        (store buf text.length ' ').map fun buf => (text.length + 1, buf)
      else some (text.length, buf)).bind fun x =>
        (store x.2 x.1 letter).bind fun buf => some (x.1 + 1, buf)).bind fun x =>
          textOf x.2 0 x.1) = some (text ++ ending precision letter) := by
  have hlast : ∀ {buf : Cells} {text : List Char}, TextIn buf text → text.length < tmpbufSize →
      ((store buf text.length letter).bind fun buf => textOf buf 0 (text.length + 1)) =
        some (text ++ [letter]) := by
    intro buf text h hsize
    obtain ⟨buf', hstore, h'⟩ := textIn_store h hsize letter
    have htext := @textOf_eq buf' (text ++ [letter]) 0 fun j hj => by
      rw [Nat.zero_add]
      exact h' j hj
    rw [List.length_append, List.length_singleton] at htext
    rw [hstore, Option.bind_some, htext]
  rw [ending]
  split
  next hspace =>
    obtain ⟨buf', hstore, h'⟩ := textIn_store h (by omega) ' '
    have htext := hlast h' (by rw [List.length_append, List.length_singleton]; omega)
    rw [List.length_append, List.length_singleton, List.append_assoc] at htext
    rw [hstore]
    simp only [Option.map_some, Option.bind_some, Option.bind_assoc]
    exact htext
  next hplain =>
    simp only [Option.bind_some, Option.bind_assoc]
    exact hlast h (by omega)

theorem copyPrecision_cast (precision : Nat) :
    (if (precision : Int) = 0 ∨ (maxFreqPrecision : Int) < precision then (maxFreqPrecision : Int)
      else precision) = copyPrecision precision := by
  rw [copyPrecision]
  split <;> split <;> omega

theorem holds_written {buf buf' : Cells} {q : Nat} {cs : List Char} (h : Written buf buf' q cs)
    (hq : cs.length ≤ q) (hbuf : ∀ j, q ≤ j → buf j = none) :
    Holds buf' (q - cs.length) cs.reverse := by
  intro j
  obtain hj | hj := Nat.lt_or_ge j cs.length
  · have hchar := h.chars (cs.length - 1 - j) (by omega)
    rw [List.getElem?_eq_getElem (by rwa [List.length_reverse]), List.getElem_reverse, ← hchar]
    congr 1
    omega
  · rw [List.getElem?_eq_none (by rwa [List.length_reverse]), h.behind _ (by omega),
      hbuf _ (by omega)]

theorem spaced_cons (d : Fin 10) (ds : List (Fin 10)) :
    spaced 0 (d :: ds) = digitChar d :: spaced 1 ds := by
  rw [spaced, if_neg (by decide)]

theorem spaced_cons_length (d : Fin 10) (ds : List (Fin 10)) :
    (digitChar d :: spaced 1 ds).length = ds.length + ds.length / 3 + 1 := by
  have hcount : (spaced 1 ds).length + 0 / 3 = ds.length + (0 + ds.length) / 3 := spaced_length 0 ds
  rw [List.length_cons]
  omega

theorem grouped_cons_length (d : Fin 10) (ds : List (Fin 10)) :
    (grouped (d :: ds)).length = ds.length + ds.length / 3 + 1 := by
  rw [grouped, List.length_reverse, spaced_cons, spaced_cons_length]

theorem bigPrefix_eq {n : Nat} (h : n < 10) :
    bigPrefix[n / 3]? = some (bigPrefix.getD (n / 3) ' ') := by
  have hs : n / 3 < bigPrefix.length := by
    rw [show bigPrefix.length = 10 from rfl]
    omega
  rw [List.getD_eq_getElem?_getD, List.getElem?_eq_getElem hs, Option.getD_some]

theorem freqText_eq (board : Board) {freq : Nat} (hword : freq < 2 ^ 32) (precision : Nat) :
    ∃ ds : List (Fin 10), ds ≠ [] ∧ digitsValue ds.reverse = freq ∧ ds.length ≤ 10 ∧
      (ds.length = 1 ∨ 10 ^ (ds.length - 1) ≤ freq) ∧
      freqText board freq precision =
        (copied (precision = 0) (grouped ds).length true (copyPrecision precision)
          (grouped ds)).map (· ++ ending precision (bigPrefix.getD ((ds.length - 1) / 3) ' ')) := by
  have hsize : tmpbufSize = 23 := rfl
  have hten : freq < 10 ^ 10 := by omega
  obtain ⟨d, ds, buf, hvalue, hlength, hlead, hloop, hwritten⟩ :=
    @digitLoop_spec board 10 freq 0 maxFreqPrecision 0 (fun _ => none) (by decide) hten hword
      (by decide) (by decide) (by decide)
  have hchars := spaced_cons_length d ds
  have hgrouped := grouped_cons_length d ds
  have hholds : Holds buf (maxFreqPrecision - (digitChar d :: spaced 1 ds).length)
      (grouped (d :: ds)) := by
    rw [grouped, spaced_cons]
    refine holds_written hwritten ?_ fun _ _ => rfl
    rw [hchars, maxFreqPrecision]
    omega
  have hcopy := @copyLoop_eq buf _ _ (precision = 0) true (copyPrecision precision)
    (grouped (d :: ds)).length 0 hholds (by rw [hchars, maxFreqPrecision]; omega) (by omega)
  refine ⟨d :: ds, List.cons_ne_nil d ds, hvalue, hlength, ?_, ?_⟩
  · obtain rfl | hlead := hlead
    · exact Or.inl rfl
    · exact Or.inr hlead
  · have hdrop : maxFreqPrecision - (maxFreqPrecision - (digitChar d :: spaced 1 ds).length) =
        (grouped (d :: ds)).length := by
      rw [hchars, hgrouped, maxFreqPrecision]
      omega
    have hshift : groupFormat = groupFormat >>> 0 := rfl
    have hzero : 0 + ((0 + ds.length) / 3 - 0 / 3) = ds.length / 3 := by omega
    rw [List.length_cons, Nat.add_sub_cancel, freqText, ulongFreq]
    dsimp only [Option.bind_eq_bind]
    rw [hshift, hloop, hzero, Option.bind_some]
    dsimp only
    have hspace : decide ((precision : Int) = 0) = decide (precision = 0) :=
      decide_eq_decide.mpr Int.natCast_eq_zero
    rw [bigPrefix_eq hlength, Option.bind_some, hdrop, hspace, copyPrecision_cast]
    cases hout : copied (precision = 0) (grouped (d :: ds)).length true (copyPrecision precision)
      (grouped (d :: ds)) with
    | none =>
      rw [hout] at hcopy
      rw [hcopy]
      rfl
    | some out =>
      rw [hout] at hcopy
      obtain ⟨buf', hloop', -, hout', hlength'⟩ := hcopy
      have htext : TextIn buf' out := fun j hj => by
        rw [← hout' j hj, Nat.zero_add]
      rw [hloop', Option.bind_some, Option.map_some, Nat.zero_add]
      simp only [decide_eq_true_eq]
      exact ending_eq htext (by omega) precision _

end NanoVNA.FrequencyCopy
