import NanoVNA.FrequencyCopy
import NanoVNA.KeypadUnits

namespace NanoVNA.FrequencyDigits

open NanoVNA.Word32 NanoVNA.FloatNumerals NanoVNA.KeypadUnits
open NanoVNA.FrequencyText NanoVNA.FrequencyCopy
open NanoVNA.DeviceState (Board)

/-! ### The number that a text shows -/

def prefixPower : Char → Option Nat
  | 'k' => some 1
  | 'M' => some 2
  | 'G' => some 3
  | _ => none

/-- The number without the separators of the groups, times the unit of the prefix. -/
def readFreq (text : List Char) : ℚ :=
  let cs := text.filter (· ≠ ' ')
  match cs.getLast?.bind prefixPower with
  | none => decimal cs
  | some s => decimal cs.dropLast * 1000 ^ s

def requested (precision : Nat) : Nat := if precision = 0 then maxFreqPrecision else precision

/-- The frequency without the digits behind the decimals that are asked for. -/
def truncated (freq precision : Nat) : Nat :=
  let rest := 3 * Nat.log 1000 freq - requested precision
  freq / 10 ^ rest * 10 ^ rest

/-- The division is exact, no place is read that has not been written, none is written outside the
buffer, and the text shows the frequency. -/
def Meets (board : Board) (freq precision : Nat) : Prop :=
  divTen board freq = (freq / 10, freq % 10) ∧
    ∃ text, freqText board freq precision = some text ∧ readFreq text = truncated freq precision

/-- Of at most one separator nothing is skipped; else a decimal is left behind those that are
shown. -/
def Fits (freq precision : Nat) : Prop :=
  freq < 10 ^ 6 ∨ precision < 6 ∨ precision < 9 ∧ 10 ^ 9 ≤ freq

/-! ### The copy of the digits -/

inductive Separated : List (Fin 10) → List Char → Prop
  | nil : Separated [] []
  | digit (d : Fin 10) {ds : List (Fin 10)} {cs : List Char} (h : Separated ds cs) :
    Separated (d :: ds) (digitChar d :: cs)
  | space (d : Fin 10) {ds : List (Fin 10)} {cs : List Char} (h : Separated ds cs) :
    Separated (d :: ds) (' ' :: digitChar d :: cs)

theorem digitChar_ne_space (d : Fin 10) : digitChar d ≠ ' ' := by
  have htable : ∀ d : Fin 10, digitChar d ≠ ' ' := by decide
  exact htable d

section Copy

variable {ds : List (Fin 10)} {cs : List Char}

theorem separated_spaced (k : Nat) (front : List (Fin 10)) (h : Separated ds cs) (d : Fin 10) :
    Separated (front.reverse ++ d :: ds) ((spaced k front).reverse ++ digitChar d :: cs) := by
  induction front generalizing k ds cs d with
  | nil => exact h.digit d
  | cons d' front ih =>
    rw [spaced, List.reverse_cons, List.append_assoc]
    split
    · have hstep := ih (k + 1) (h.space d) d'
      rw [List.reverse_cons, List.reverse_cons, List.append_assoc, List.append_assoc]
      exact hstep
    · have hstep := ih (k + 1) (h.digit d) d'
      rw [List.reverse_cons, List.append_assoc]
      exact hstep

theorem separated_grouped (ds : List (Fin 10)) : Separated ds.reverse (grouped ds) := by
  cases ds with
  | nil => exact Separated.nil
  | cons d ds =>
    have hspaced : spaced 0 (d :: ds) = digitChar d :: spaced 1 ds := by
      rw [spaced, if_neg (by decide)]
    rw [grouped, hspaced, List.reverse_cons, List.reverse_cons]
    exact separated_spaced 1 ds Separated.nil d

theorem Separated.filter (h : Separated ds cs) : cs.filter (· ≠ ' ') = digitsText ds := by
  have hdigit : ∀ d : Fin 10, decide (digitChar d ≠ ' ') = true := fun d =>
    decide_eq_true (digitChar_ne_space d)
  induction h with
  | nil => rfl
  | digit d h ih =>
    rw [List.filter_cons, hdigit, if_pos rfl, ih]
    rfl
  | space d h ih =>
    rw [List.filter_cons_of_neg (by simp), List.filter_cons, hdigit, if_pos rfl, ih]
    rfl

theorem nextOf_digit (prefixSpace pset : Bool) (d : Fin 10) (cs : List Char) :
    nextOf prefixSpace pset (digitChar d :: cs) = some (digitChar d, pset, cs) := by
  rw [nextOf, if_neg (digitChar_ne_space d)]

theorem nextOf_space (d : Fin 10) (cs : List Char) :
    nextOf false false (' ' :: digitChar d :: cs) = some (digitChar d, false, cs) := rfl

section Step

variable {prefixSpace pset pset' : Bool} {precision : Int} {cs' : List Char} {c : Char}

theorem copied_succ (hnext : nextOf prefixSpace pset cs = some (c, pset', cs'))
    (hgo : ¬ (pset' = false ∧ precision < 0)) (i : Nat) :
    copied prefixSpace (i + 1) pset precision cs =
      (copied prefixSpace i pset' (if pset' then precision else precision - 1) cs').map
        (c :: ·) := by
  rw [copied, hnext, Option.bind_eq_bind, Option.bind_some]
  dsimp only
  rw [if_neg hgo]
  cases copied prefixSpace i pset' (if pset' then precision else precision - 1) cs' <;> rfl

theorem copied_stop (hnext : nextOf prefixSpace pset cs = some (c, pset', cs'))
    (hstop : pset' = false ∧ precision < 0) (i : Nat) :
    copied prefixSpace (i + 1) pset precision cs = some [] := by
  rw [copied, hnext, Option.bind_eq_bind, Option.bind_some]
  dsimp only
  rw [if_pos hstop]

end Step

theorem fraction_step {cs' : List Char} {d : Fin 10}
    (hnext : nextOf false false cs' = some (digitChar d, false, cs))
    (ih : ∀ i m : Nat, copied false i false ((m : Int) - 1) cs =
      if m < ds.length ∧ m < i then some (digitsText (ds.take m))
      else if i ≤ ds.length then some (digitsText (ds.take i)) else none) (i m : Nat) :
    copied false i false ((m : Int) - 1) cs' =
      if m < (d :: ds).length ∧ m < i then some (digitsText ((d :: ds).take m))
      else if i ≤ (d :: ds).length then some (digitsText ((d :: ds).take i)) else none := by
  rw [List.length_cons]
  cases i with
  | zero =>
    rw [if_neg (by omega), if_pos (by omega)]
    rfl
  | succ i =>
    cases m with
    | zero =>
      rw [copied_stop hnext ⟨rfl, by decide⟩, if_pos (by omega)]
      rfl
    | succ m =>
      have hprecision : ((m + 1 : Nat) : Int) - 1 - 1 = (m : Int) - 1 := by omega
      rw [copied_succ hnext (by omega), if_neg Bool.false_ne_true, hprecision, ih i m]
      simp only [Nat.add_lt_add_iff_right, Nat.add_le_add_iff_right, List.take_succ_cons]
      split
      · rfl
      · split <;> rfl

theorem copied_fraction (h : Separated ds cs) (i m : Nat) :
    copied false i false ((m : Int) - 1) cs =
      if m < ds.length ∧ m < i then some (digitsText (ds.take m))
      else if i ≤ ds.length then some (digitsText (ds.take i)) else none := by
  induction h generalizing i m with
  | nil =>
    cases i with
    | zero => simp [copied, digitsText]
    | succ i => simp [copied, nextOf]
  | digit d h ih => exact fraction_step (nextOf_digit false false d _) ih i m
  | space d h ih => exact fraction_step (nextOf_space d _) ih i m

theorem copied_verbatim (cs : List Char) {precision : Int} (h : cs.length ≤ precision + 1) :
    copied true cs.length false precision cs = some cs := by
  induction cs generalizing precision with
  | nil => rfl
  | cons c cs ih =>
    have hnext : nextOf true false (c :: cs) = some (c, false, cs) := by
      rw [nextOf]
      split <;> rfl
    rw [List.length_cons] at h ⊢
    rw [copied_succ hnext (by omega), if_neg Bool.false_ne_true, ih (by omega), Option.map_some]

theorem copied_whole (prefixSpace : Bool) (ds : List (Fin 10)) (i : Nat) (precision : Int)
    (cs : List Char) :
    copied prefixSpace (ds.length + i) true precision (digitsText ds ++ cs) =
      (copied prefixSpace i true precision cs).map (digitsText ds ++ ·) := by
  induction ds with
  | nil =>
    rw [List.length_nil, Nat.zero_add]
    exact Option.map_id'.symm
  | cons d ds ih =>
    have hnext := nextOf_digit prefixSpace true d (digitsText ds ++ cs)
    have hgo : ¬ (true = false ∧ precision < 0) := fun h => Bool.false_ne_true h.1.symm
    rw [List.length_cons, Nat.add_right_comm]
    refine (copied_succ hnext hgo _).trans ?_
    rw [if_pos rfl, ih, Option.map_map]
    rfl

theorem copied_point (prefixSpace : Bool) (i : Nat) {precision : Int} (h : 0 ≤ precision)
    (cs : List Char) :
    copied prefixSpace (i + 1) true precision (' ' :: cs) =
      (copied prefixSpace i false (precision - 1) cs).map ('.' :: ·) := by
  have hnext : nextOf prefixSpace true (' ' :: cs) = some ('.', false, cs) := rfl
  rw [copied_succ hnext (by omega), if_neg Bool.false_ne_true]

end Copy

/-! ### The groups of the digits -/

theorem spaced_first (s : Nat) {hi : List (Fin 10)} (hne : hi ≠ []) (hlength : hi.length ≤ 3) :
    (spaced (3 * s) hi).reverse = digitsText hi.reverse ++ if s = 0 then [] else [' '] := by
  have hone : ¬ ((3 * s + 1) % 3 = 0 ∧ 3 * s + 1 ≠ 0) := by omega
  have htwo : ¬ ((3 * s + 1 + 1) % 3 = 0 ∧ 3 * s + 1 + 1 ≠ 0) := by omega
  have hzero : (3 * s % 3 = 0 ∧ 3 * s ≠ 0) ↔ ¬ s = 0 := by omega
  match hi, hne, hlength with
  | [a], _, _ =>
    simp only [spaced, hzero]
    split <;> simp_all [digitsText]
  | [a, b], _, _ =>
    simp only [spaced, hzero, if_neg hone]
    split <;> simp_all [digitsText]
  | [a, b, c], _, _ =>
    simp only [spaced, hzero, if_neg hone, if_neg htwo]
    split <;> simp_all [digitsText]

structure Groups (ds : List (Fin 10)) (s : Nat) (hi lo : List (Fin 10)) : Prop where
  split : ds = lo ++ hi
  low : lo.length = 3 * s
  high : 1 ≤ hi.length ∧ hi.length ≤ 3

theorem groups_exist {ds : List (Fin 10)} (hne : ds ≠ []) :
    Groups ds ((ds.length - 1) / 3) (ds.drop (3 * ((ds.length - 1) / 3)))
      (ds.take (3 * ((ds.length - 1) / 3))) := by
  have hpos := List.length_pos_iff.mpr hne
  refine ⟨(List.take_append_drop _ ds).symm, ?_, ?_⟩
  · rw [List.length_take]
    omega
  · rw [List.length_drop]
    omega

section Groups

variable {ds hi lo : List (Fin 10)} {s : Nat}

theorem Groups.grouped (h : Groups ds s hi lo) :
    grouped ds = digitsText hi.reverse ++ if s = 0 then [] else ' ' :: grouped lo := by
  obtain ⟨rfl, hlow, hhigh⟩ := h
  have hne : hi ≠ [] := List.length_pos_iff.mp hhigh.1
  rw [FrequencyCopy.grouped, spaced_append, Nat.zero_add, hlow, List.reverse_append,
    spaced_first s hne hhigh.2, List.append_assoc]
  congr 1
  split
  next hzero =>
    obtain rfl : lo = [] := List.length_eq_zero_iff.mp (by omega)
    rfl
  next => rfl

theorem grouped_length (hs : lo.length = 3 * s) (hpos : s ≠ 0) :
    (grouped lo).length = 4 * s - 1 := by
  cases lo with
  | nil =>
    rw [List.length_nil] at hs
    omega
  | cons d lo =>
    have hcount : (spaced 1 lo).length + 0 / 3 = lo.length + (0 + lo.length) / 3 :=
      spaced_length 0 lo
    rw [List.length_cons] at hs
    rw [grouped, List.length_reverse, spaced, if_neg (by decide), List.length_cons, Nat.zero_add]
    omega

theorem copied_eq (h : Groups ds s hi lo) (hs : s ≤ 3) (precision : Nat) :
    copied (precision = 0) (grouped ds).length true (copyPrecision precision) (grouped ds) =
      if s = 0 then some (digitsText hi.reverse)
      else if precision = 0 then some (digitsText hi.reverse ++ '.' :: grouped lo)
      else if copyPrecision precision < 3 * s then
        some (digitsText hi.reverse ++
          '.' :: digitsText (lo.reverse.take (copyPrecision precision)))
      else if s = 1 then some (digitsText hi.reverse ++ '.' :: digitsText lo.reverse)
      else none := by
  have hlow := h.low
  have hcopy : 1 ≤ copyPrecision precision := by
    rw [copyPrecision, maxFreqPrecision]
    split <;> omega
  have hlength : (digitsText hi.reverse).length = hi.reverse.length := List.length_map _
  rw [h.grouped]
  by_cases hzero : s = 0
  · rw [if_pos hzero, if_pos hzero, List.length_append, hlength]
    refine (copied_whole _ _ _ _ _).trans ?_
    rw [List.length_nil, copied, Option.map_some, List.append_nil]
  · rw [if_neg hzero, if_neg hzero, List.length_append, hlength, List.length_cons]
    refine (copied_whole _ _ _ _ _).trans ?_
    rw [copied_point _ _ (by omega), Option.map_map]
    have hgrouped := grouped_length hlow hzero
    by_cases hprecision : precision = 0
    · have hfull : copyPrecision precision = 14 := by
        rw [copyPrecision, if_pos (Or.inl hprecision)]
        rfl
      rw [if_pos hprecision, decide_eq_true hprecision, copied_verbatim _ (by omega)]
      rfl
    · have hdigits : lo.reverse.length = 3 * s := by rw [List.length_reverse, hlow]
      rw [if_neg hprecision, decide_eq_false hprecision, copied_fraction (separated_grouped lo),
        hdigits, hgrouped]
      by_cases hfew : copyPrecision precision < 3 * s
      · rw [if_pos ⟨hfew, by omega⟩, if_pos hfew]
        rfl
      · rw [if_neg fun h => hfew h.1, if_neg hfew]
        by_cases hone : s = 1
        · rw [if_pos (by omega), if_pos hone, List.take_of_length_le (by omega)]
          rfl
        · rw [if_neg (by omega), if_neg hone]
          rfl

end Groups

/-! ### The value of the text -/

section Value

variable {text : List Char} {e : Decimal}

theorem readFreq_unit {letter : Char} {s : Nat}
    (hfilter : text.filter (· ≠ ' ') = e.text ++ [letter])
    (hletter : prefixPower letter = some s) : readFreq text = e.value * 1000 ^ s := by
  rw [readFreq, hfilter, List.getLast?_concat, Option.bind_some, hletter]
  dsimp only
  rw [List.dropLast_concat, e.decimal_text]

theorem readFreq_plain (hfilter : text.filter (· ≠ ' ') = e.text) : readFreq text = e.value := by
  have htable : ∀ f : Fin 10, prefixPower (digitChar f) = none := by decide
  have hnone : ∀ c ∈ e.text, prefixPower c = none := e.forall_text htable rfl
  have hlast : e.text.getLast?.bind prefixPower = none := by
    cases hget : e.text.getLast? with
    | none => rfl
    | some c => exact hnone c (List.mem_of_getLast? hget)
  rw [readFreq, hfilter, hlast]
  exact e.decimal_text

theorem take_value (whole fraction : List (Fin 10)) {m : Nat} (hm : m ≤ fraction.length) :
    (⟨whole, some (fraction.take m)⟩ : Decimal).value * 10 ^ fraction.length =
      (digitsValue (whole ++ fraction) / 10 ^ (fraction.length - m) *
        10 ^ (fraction.length - m) : ℕ) := by
  obtain ⟨rest, hrest⟩ : ∃ rest, rest = fraction.length - m := ⟨_, rfl⟩
  have hlength : (fraction.drop m).length = rest := by rw [List.length_drop, hrest]
  have htake : (fraction.take m).length = m := List.length_take_of_le hm
  have hsplit : digitsValue (whole ++ fraction) =
      (digitsValue whole * 10 ^ m + digitsValue (fraction.take m)) * 10 ^ rest +
        digitsValue (fraction.drop m) := by
    have hfront := digitsValue_append whole (fraction.take m)
    have hall := digitsValue_append (whole ++ fraction.take m) (fraction.drop m)
    rw [List.append_assoc, List.take_append_drop, hlength, hfront, htake] at hall
    exact hall
  have hsmall : digitsValue (fraction.drop m) < 10 ^ rest := by
    rw [← hlength]
    exact digitsValue_lt _
  have hdiv : digitsValue (whole ++ fraction) / 10 ^ rest =
      digitsValue whole * 10 ^ m + digitsValue (fraction.take m) := by
    rw [hsplit, Nat.add_comm, Nat.add_mul_div_right _ _ (by positivity),
      Nat.div_eq_of_lt hsmall, Nat.zero_add]
  have hpow : (10 : ℚ) ^ fraction.length = 10 ^ m * 10 ^ rest := by
    rw [← pow_add, hrest, Nat.add_sub_cancel' hm]
  have hten : (10 : ℚ) ^ m ≠ 0 := by positivity
  rw [← hrest, hdiv, Decimal.value_eq, hpow]
  dsimp only [Option.getD_some]
  rw [htake]
  push_cast
  field_simp

end Value

theorem log_groups {ds : List (Fin 10)} {freq : Nat} (hvalue : digitsValue ds.reverse = freq)
    (hlead : ds.length = 1 ∨ 10 ^ (ds.length - 1) ≤ freq) :
    Nat.log 1000 freq = (ds.length - 1) / 3 := by
  have hlt : freq < 10 ^ ds.length := by
    rw [← hvalue, ← List.length_reverse]
    exact digitsValue_lt _
  have hthousand : ∀ s, 1000 ^ s = 10 ^ (3 * s) := fun s => pow_mul 10 3 s ▸ rfl
  obtain hzero | hpos := Nat.eq_zero_or_pos ((ds.length - 1) / 3)
  · have hle : 10 ^ ds.length ≤ 10 ^ 3 := Nat.pow_le_pow_right (by decide) (by omega)
    rw [hzero, Nat.log_of_lt (by omega)]
  · refine Nat.log_eq_of_pow_le_of_lt_pow ?_ ?_
    · rw [hthousand]
      exact (Nat.pow_le_pow_right (by decide) (by omega)).trans (hlead.resolve_left (by omega))
    · rw [hthousand]
      exact hlt.trans_le (Nat.pow_le_pow_right (by decide) (by omega))

theorem separated_digits (ds : List (Fin 10)) : Separated ds (digitsText ds) := by
  induction ds with
  | nil => exact Separated.nil
  | cons d ds ih => exact ih.digit d

section Shown

variable {ds hi lo : List (Fin 10)} {s freq precision : Nat}

def shown (s precision : Nat) : Nat :=
  if precision = 0 then 3 * s else min (copyPrecision precision) (3 * s)

theorem copied_shown (h : Groups ds s hi lo) (hs : s ≤ 3) {out : List Char}
    (hout : copied (precision = 0) (grouped ds).length true (copyPrecision precision)
      (grouped ds) = some out) :
    out.filter (· ≠ ' ') = if s = 0 then digitsText hi.reverse
      else (⟨hi.reverse, some (lo.reverse.take (shown s precision))⟩ : Decimal).text := by
  have hdigits : lo.reverse.length = 3 * s := by rw [List.length_reverse, h.low]
  have htext : ∀ cs ds', Separated ds' cs →
      (digitsText hi.reverse ++ '.' :: cs).filter (· ≠ ' ') =
        (⟨hi.reverse, some ds'⟩ : Decimal).text := by
    intro cs ds' hcs
    rw [List.filter_append, (separated_digits _).filter, List.filter_cons_of_pos (by decide),
      hcs.filter]
    rfl
  rw [copied_eq h hs] at hout
  split at hout
  next hzero =>
    cases hout
    rw [if_pos hzero, (separated_digits _).filter]
  next hzero =>
    rw [if_neg hzero, shown]
    split at hout
    next hprecision =>
      cases hout
      rw [if_pos hprecision, List.take_of_length_le (by omega)]
      exact htext _ _ (separated_grouped lo)
    next hprecision =>
      rw [if_neg hprecision]
      split at hout
      next hfew =>
        cases hout
        rw [Nat.min_eq_left (by omega)]
        exact htext _ _ (separated_digits _)
      next hmany =>
        split at hout
        next hone =>
          cases hout
          rw [Nat.min_eq_right (by omega), List.take_of_length_le (by omega)]
          exact htext _ _ (separated_digits _)
        next => cases hout

theorem copied_isSome_iff (h : Groups ds s hi lo) (hs : s ≤ 3) :
    (copied (precision = 0) (grouped ds).length true (copyPrecision precision)
      (grouped ds)).isSome ↔ s ≤ 1 ∨ precision < 3 * s := by
  have hcopy : copyPrecision precision = if precision = 0 ∨ 14 < precision then 14 else precision :=
    rfl
  rw [copied_eq h hs]
  split
  next hzero => exact iff_of_true rfl (Or.inl (by omega))
  next hzero =>
    split
    next hprecision => exact iff_of_true rfl (Or.inr (by omega))
    next hprecision =>
      split
      next hfew =>
        refine iff_of_true rfl (Or.inr ?_)
        split at hcopy <;> omega
      next hmany =>
        split
        next hone => exact iff_of_true rfl (Or.inl (by omega))
        next hmore =>
          refine iff_of_false (by decide) ?_
          split at hcopy <;> omega

theorem bigPrefix_power (hs : s ≤ 3) (hpos : s ≠ 0) :
    prefixPower (bigPrefix.getD s ' ') = some s ∧ bigPrefix.getD s ' ' ≠ ' ' := by
  have htable : ∀ s ≤ 3, s ≠ 0 →
      prefixPower (bigPrefix.getD s ' ') = some s ∧ bigPrefix.getD s ' ' ≠ ' ' := by decide
  exact htable s hs hpos

theorem readFreq_shown (h : Groups ds s hi lo) (hs : s ≤ 3) (hvalue : digitsValue ds.reverse = freq)
    (hlog : Nat.log 1000 freq = s) {out : List Char}
    (hout : copied (precision = 0) (grouped ds).length true (copyPrecision precision)
      (grouped ds) = some out) :
    readFreq (out ++ ending precision (bigPrefix.getD s ' ')) = truncated freq precision := by
  have hfilter := copied_shown h hs hout
  have hdigits : lo.reverse.length = 3 * s := by rw [List.length_reverse, h.low]
  have hall : digitsValue (hi.reverse ++ lo.reverse) = freq := by
    rw [← List.reverse_append, ← h.split, hvalue]
  rw [truncated, hlog]
  by_cases hzero : s = 0
  · have hlow : lo = [] := List.length_eq_zero_iff.mp (by rw [h.low, hzero])
    have hplain : (out ++ ending precision (bigPrefix.getD s ' ')).filter (· ≠ ' ') =
        (⟨hi.reverse, none⟩ : Decimal).text := by
      have hspace : bigPrefix.getD s ' ' = ' ' := by rw [hzero]; rfl
      have hending : ending precision ' ' = [' '] := if_neg fun h => h.2 rfl
      rw [if_pos hzero] at hfilter
      rw [List.filter_append, hfilter, hspace, hending]
      rfl
    rw [hlow, List.reverse_nil, List.append_nil] at hall
    rw [readFreq_plain hplain, Decimal.value_eq]
    dsimp only [Option.getD_none]
    rw [digitsValue_nil, hall, hzero, Nat.mul_zero, Nat.zero_sub, Nat.pow_zero, Nat.div_one,
      Nat.mul_one, Nat.cast_zero, zero_div, add_zero]
  · obtain ⟨hpower, hletter⟩ := bigPrefix_power hs hzero
    have hending : (ending precision (bigPrefix.getD s ' ')).filter (· ≠ ' ') =
        [bigPrefix.getD s ' '] := by
      have hkept : [bigPrefix.getD s ' '].filter (· ≠ ' ') = [bigPrefix.getD s ' '] :=
        List.filter_cons_of_pos (decide_eq_true hletter)
      rw [ending]
      split
      · exact hkept
      · exact hkept
    have hcopy : copyPrecision precision =
        if precision = 0 ∨ 14 < precision then 14 else precision := rfl
    have hrequested : requested precision = if precision = 0 then 14 else precision := rfl
    have hrest : lo.reverse.length - shown s precision = 3 * s - requested precision := by
      rw [hdigits, shown, hcopy, hrequested]
      grind
    have hshown : shown s precision ≤ lo.reverse.length := by
      rw [hdigits, shown]
      split <;> omega
    have htake := take_value hi.reverse lo.reverse hshown
    rw [if_neg hzero] at hfilter
    have hthousand : (1000 : ℚ) ^ s = 10 ^ lo.reverse.length := by
      rw [hdigits, pow_mul]
      norm_num
    rw [readFreq_unit (by rw [List.filter_append, hfilter, hending]) hpower, hthousand, htake, hall,
      hrest]

theorem fits_iff (hword : freq < 2 ^ 32) (hlog : Nat.log 1000 freq = s) :
    Fits freq precision ↔ s ≤ 1 ∨ precision < 3 * s := by
  have hbelow : ∀ k, k ≠ 0 → (freq < 1000 ^ k ↔ s < k) := by
    intro k hk
    rw [← hlog]
    exact ⟨Nat.log_lt_of_lt_pow' hk, Nat.lt_pow_of_log_lt (by decide)⟩
  have htwo := hbelow 2 (by decide)
  have hthree := hbelow 3 (by decide)
  have hfour := (hbelow 4 (by decide)).mp (by omega)
  rw [Fits]
  omega

end Shown

/-- A frequency is shown as it should be exactly when at most one group follows the point, or a
decimal is left behind those that are asked for. -/
theorem shows_frequency_iff (board : Board) {freq : Nat} (hword : freq < 2 ^ 32) (precision : Nat) :
    Meets board freq precision ↔ Fits freq precision := by
  obtain ⟨ds, hne, hvalue, hlength, hlead, htext⟩ := freqText_eq board hword precision
  have hs : (ds.length - 1) / 3 ≤ 3 := by omega
  have hgroups := groups_exist hne
  have hlog := log_groups hvalue hlead
  rw [fits_iff hword hlog, ← copied_isSome_iff hgroups hs]
  constructor
  · rintro ⟨-, text, hget, -⟩
    rw [htext] at hget
    obtain ⟨out, hout, -⟩ := Option.map_eq_some_iff.mp hget
    rw [hout]
    rfl
  · intro hsome
    obtain ⟨out, hout⟩ := Option.isSome_iff_exists.mp hsome
    refine ⟨divTen_eq board hword, _, ?_, readFreq_shown hgroups hs hvalue hlog hout⟩
    rw [htext, hout, Option.map_some]

theorem shows_frequency_iff_three : Meets .f072 1234567890 3 :=
  (shows_frequency_iff .f072 (by decide) 3).mpr (Or.inr (Or.inl (by decide)))

/-- Six decimals of a frequency in megahertz. -/
theorem not_shows_frequency : ¬ Meets .f072 100000000 6 := by
  rintro ⟨-, text, htext, -⟩
  have hnone : freqText .f072 100000000 6 = none := by decide +kernel
  rw [hnone] at htext
  cases htext

end NanoVNA.FrequencyDigits
