import NanoVNA.FrequencyText
import NanoVNA.PrintedIntegers

namespace NanoVNA.PrintBuffer

open NanoVNA.Word32 NanoVNA.FrequencyText NanoVNA.PrintedIntegers
open NanoVNA.DeviceState (Board)
open NanoVNA.ShellPrintf (maxFiller decimals)

/-! ### Numbers in the buffer of the conversions -/

def digitsDown (radix : Nat) : Nat → Nat → Nat → Nat → Cells → Option (Nat × Cells)
  | 0, _, _, _, _ => none
  | room + 1, num, precision, q, buf => do
    let buf ← push buf q (radixDigit (num % radix))
    if precision - 1 ≠ 0 ∨ num / radix ≠ 0 then
      digitsDown radix room (num / radix) (precision - 1) (q - 1) buf
    else some (q - 1, buf)

/-- `do *p++ = *q++; while (--i)` -/
def moveFront : Nat → Nat → Nat → Cells → Option (Nat × Cells)
  | 0, _, p, buf => some (p, buf)
  | i + 1, q, p, buf => do
    let c ← buf q
    let buf ← store buf p c
    moveFront i (q + 1) (p + 1) buf

/-- `long_to_string_with_divisor`, with the place where the text goes. -/
def longToStringAt (p num radix precision : Nat) (buf : Cells) : Option (Nat × Cells) := do
  let (q, buf) ← digitsDown radix maxFiller num precision (p + maxFiller) buf
  moveFront (p + maxFiller - q) q p buf

/-! ### What the conversions write -/

def Full (buf : Cells) : Prop := ∀ i, (buf i).isSome

section Writes

variable {buf : Cells}

theorem Full.update (h : Full buf) (i : Nat) (c : Char) :
    Full (Function.update buf i (some c)) := by
  intro j
  by_cases hj : j = i
  · rw [hj, Function.update_self]
    rfl
  · rw [Function.update_of_ne hj]
    exact h j

structure Keeps (p : Nat) (buf buf' : Cells) : Prop where
  full : Full buf'
  front : ∀ i < p, buf' i = buf i

theorem Keeps.trans {p p' : Nat} {buf' buf'' : Cells} (h : Keeps p buf buf')
    (h' : Keeps p' buf' buf'') (hp : p ≤ p') : Keeps p buf buf'' :=
  ⟨h'.full, fun i hi => (h'.front i (Nat.lt_of_lt_of_le hi hp)).trans (h.front i hi)⟩

theorem keeps_store (h : Full buf) {p i : Nat} (hp : p ≤ i) (hi : i < tmpbufSize) (c : Char) :
    ∃ buf', store buf i c = some buf' ∧ Keeps p buf buf' :=
  ⟨_, if_pos hi, h.update i c, fun j hj => Function.update_of_ne (by omega) _ _⟩

theorem digitsDown_spec {radix room num precision q : Nat} (h : Full buf) (hroom : 0 < room)
    (hradix : 0 < radix) (hnum : num < radix ^ room) (hprecision : precision ≤ room)
    (hq : room ≤ q) (hsize : q ≤ tmpbufSize) :
    ∃ buf', digitsDown radix room num precision q buf =
        some (q - (divisorDigits radix room num precision).length, buf') ∧
      Keeps (q - room) buf buf' := by
  induction room generalizing num precision q buf with
  | zero => omega
  | succ room ih =>
    have hpush := @push_eq buf q (by omega) hsize (radixDigit (num % radix))
    have hfull := h.update (q - 1) (radixDigit (num % radix))
    have hfirst : ∀ i < q - (room + 1),
        Function.update buf (q - 1) (some (radixDigit (num % radix))) i = buf i :=
      fun i hi => Function.update_of_ne (by omega) _ _
    rw [digitsDown, divisorDigits, hpush, Option.bind_eq_bind, Option.bind_some,
      List.length_append, List.length_singleton]
    by_cases hmore : precision - 1 ≠ 0 ∨ num / radix ≠ 0
    · have hdiv : num / radix < radix ^ room := by
        rw [Nat.div_lt_iff_lt_mul hradix, ← Nat.pow_succ]
        exact hnum
      have hrest : 0 < room := by
        obtain rfl | hpos := Nat.eq_zero_or_pos room
        · have hzero : num / radix = 0 := Nat.lt_one_iff.mp hdiv
          obtain hmore | hmore := hmore
          · omega
          · exact absurd hzero hmore
        · exact hpos
      obtain ⟨buf', hdown, hkeeps⟩ := @ih _ (num / radix) (precision - 1) (q - 1) hfull hrest hdiv
        (by omega) (by omega) (by omega)
      rw [if_pos hmore, if_pos hmore, hdown]
      refine ⟨buf', ?_, hkeeps.full, fun i hi => ?_⟩
      · rw [Nat.sub_sub, Nat.add_comm 1]
      · rw [hkeeps.front i (by omega), hfirst i hi]
    · rw [if_neg hmore, if_neg hmore]
      exact ⟨_, rfl, hfull, hfirst⟩

theorem moveFront_spec {i q p : Nat} (h : Full buf) (hsize : p + i ≤ tmpbufSize) :
    ∃ buf', moveFront i q p buf = some (p + i, buf') ∧ Keeps p buf buf' := by
  induction i generalizing q p buf with
  | zero => exact ⟨buf, rfl, h, fun _ _ => rfl⟩
  | succ i ih =>
    obtain ⟨c, hc⟩ := Option.isSome_iff_exists.mp (h q)
    obtain ⟨buf', hstore, hkeeps⟩ := keeps_store h (Nat.le_refl p) (by omega) c
    obtain ⟨buf'', hmove, hkeeps'⟩ := @ih buf' (q + 1) (p + 1) hkeeps.full (by omega)
    refine ⟨buf'', ?_, hkeeps.trans hkeeps' (Nat.le_succ p)⟩
    rw [moveFront, hc, Option.bind_eq_bind, Option.bind_some, hstore, Option.bind_eq_bind,
      Option.bind_some, hmove, Nat.add_right_comm, Nat.add_assoc]

theorem longToStringAt_spec {p num radix precision : Nat} (h : Full buf) (hradix : 8 ≤ radix)
    (hnum : num < 2 ^ 32) (hprecision : precision ≤ maxFiller) (hp : p + maxFiller ≤ tmpbufSize) :
    ∃ buf', longToStringAt p num radix precision buf =
        some (p + (divisorDigits radix maxFiller num precision).length, buf') ∧
      Keeps p buf buf' := by
  have hsize : tmpbufSize = 23 := rfl
  have hroom : maxFiller = 11 := rfl
  have hpow : 2 ^ 32 < radix ^ maxFiller :=
    Nat.lt_of_lt_of_le (by decide) (Nat.pow_le_pow_left hradix maxFiller)
  have hlength := length_divisorDigits_le radix maxFiller num precision
  obtain ⟨buf', hdown, hkeeps⟩ := @digitsDown_spec buf radix maxFiller num precision (p + maxFiller)
    h (by decide) (by omega) (hnum.trans hpow) hprecision (by omega) hp
  obtain ⟨i, hi⟩ : ∃ i, i = (divisorDigits radix maxFiller num precision).length := ⟨_, rfl⟩
  rw [← hi] at hlength hdown
  obtain ⟨buf'', hmove, hkeeps'⟩ := @moveFront_spec buf' i (p + maxFiller - i) p hkeeps.full
    (by omega)
  have hcount : p + maxFiller - (p + maxFiller - i) = i := by omega
  rw [Nat.add_sub_cancel] at hkeeps
  refine ⟨buf'', ?_, hkeeps.trans hkeeps' (Nat.le_refl p)⟩
  rw [longToStringAt, hdown, Option.bind_eq_bind, Option.bind_some]
  dsimp only
  rw [hcount, hmove, hi]

theorem longToStringAt_none {p num radix precision : Nat} (hp : tmpbufSize < p + maxFiller) :
    longToStringAt p num radix precision buf = none := by
  have hroom : maxFiller = 10 + 1 := rfl
  have hpush : push buf (p + maxFiller) (radixDigit (num % radix)) = none := by
    rw [push, if_neg (by omega), store, if_neg (by omega)]
  have hdown : digitsDown radix maxFiller num precision (p + maxFiller) buf = none := by
    rw [hroom] at hpush ⊢
    rw [digitsDown, hpush]
    rfl
  rw [longToStringAt, hdown]
  rfl

theorem length_decimal {num : Nat} (hnum : num < 2 ^ 32) (precision : Nat)
    (hprecision : precision ≤ maxFiller) :
    (divisorDigits 10 maxFiller num precision).length = max precision (decimals num) := by
  have hten : num < 10 ^ maxFiller := Nat.lt_trans hnum (by decide)
  rw [divisorDigits_ten, ShellPrintf.length_longDigits (by decide) hten hprecision]

theorem decimals_le {num : Nat} (hnum : num < 2 ^ 32) : decimals num ≤ 10 := by
  have hten : num < 10 ^ 10 := Nat.lt_trans hnum (by decide)
  exact Nat.log_lt_of_lt_pow' (by decide) hten

/-! ### A frequency in the buffer -/

theorem push_full (h : Full buf) {q : Nat} {c : Char} {buf' : Cells}
    (hpush : push buf q c = some buf') : Full buf' := by
  rw [push] at hpush
  split at hpush
  · cases hpush
  · rw [store] at hpush
    split at hpush
    · cases hpush
      exact h.update _ _
    · cases hpush

theorem digitLoop_full {board : Board} {fuel freq format q s q' s' : Nat} {buf' : Cells}
    (h : Full buf) (hloop : digitLoop board fuel freq format q s buf = some (q', s', buf')) :
    Full buf' := by
  induction fuel generalizing freq format q s buf with
  | zero => cases hloop
  | succ fuel ih =>
    obtain ⟨⟨rest, c⟩, hdiv⟩ : ∃ r, divTen board freq = r := ⟨_, rfl⟩
    rw [digitLoop, hdiv] at hloop
    dsimp only at hloop
    obtain ⟨digits, hpush, hloop⟩ := Option.bind_eq_some_iff.mp hloop
    have hdigits := push_full h hpush
    split at hloop
    · cases hloop
      exact hdigits
    · split at hloop
      · obtain ⟨spaces, hpush', hloop⟩ := Option.bind_eq_some_iff.mp hloop
        exact ih (push_full hdigits hpush') hloop
      · exact ih hdigits hloop

theorem nextChar_full (h : Full buf) (prefixSpace pset : Bool) (q : Nat) :
    ∃ next, nextChar prefixSpace pset q buf = some next := by
  obtain ⟨c, hc⟩ := Option.isSome_iff_exists.mp (h q)
  obtain ⟨c', hc'⟩ := Option.isSome_iff_exists.mp (h (q + 1))
  rw [nextChar, hc, Option.bind_eq_bind, Option.bind_some]
  split
  · split
    · exact ⟨_, rfl⟩
    · split
      · exact ⟨_, rfl⟩
      · exact ⟨_, by rw [hc', Option.map_some]⟩
  · exact ⟨_, rfl⟩

theorem copyLoop_full {prefixSpace pset : Bool} {i q p : Nat} {precision : Int} (h : Full buf)
    (hsize : p + i ≤ tmpbufSize) :
    ∃ p' buf', copyLoop prefixSpace i pset precision q p buf = some (p', buf') ∧ Full buf' ∧
      p' ≤ p + i := by
  induction i generalizing pset precision q p buf with
  | zero => exact ⟨p, buf, rfl, h, Nat.le_refl p⟩
  | succ i ih =>
    obtain ⟨⟨c, pset', q'⟩, hnext⟩ := nextChar_full h prefixSpace pset q
    rw [copyLoop, hnext, Option.bind_eq_bind, Option.bind_some]
    dsimp only
    split
    · exact ⟨p, buf, rfl, h, by omega⟩
    · obtain ⟨buf', hstore, hkeeps⟩ := keeps_store h (Nat.le_refl p) (by omega) c
      obtain ⟨p', buf'', hcopy, hfull, hp⟩ := @ih buf' pset' q' (p + 1)
        (if pset' then precision else precision - 1) hkeeps.full (by omega)
      refine ⟨p', buf'', ?_, hfull, by omega⟩
      rw [hstore, Option.bind_eq_bind, Option.bind_some, hcopy]

theorem ulongFreq_full (board : Board) {freq : Nat} (hfreq : freq < 2 ^ 32) (precision : Int)
    (h : Full buf) :
    ∃ p buf', ulongFreq board freq precision buf = some (p, buf') ∧ Full buf' ∧
      p ≤ maxFreqPrecision + 2 := by
  have hsize : tmpbufSize = 23 := rfl
  have hmax : maxFreqPrecision = 14 := rfl
  obtain ⟨d, ds, digits, -, hlength, -, hloop, -⟩ :=
    @digitLoop_spec board 10 freq 0 maxFreqPrecision 0 buf (by decide) (by omega) hfreq
      (by decide) (by decide) (by decide)
  have hdigits := digitLoop_full h hloop
  have hletter : ∃ c, bigPrefix[0 + ((0 + ds.length) / 3 - 0 / 3)]? = some c :=
    ⟨_, List.getElem?_eq_getElem (by rw [show bigPrefix.length = 10 from rfl]; omega)⟩
  obtain ⟨c, hletter⟩ := hletter
  obtain ⟨q, hq⟩ : ∃ q, q = maxFreqPrecision - (FloatNumerals.digitChar d ::
    spaced (0 + 1) ds).length := ⟨_, rfl⟩
  rw [← hq] at hloop
  obtain ⟨p, copy, hcopy, hfull, hp⟩ := @copyLoop_full digits (precision = 0) true
    (maxFreqPrecision - q) q 0
    (if precision = 0 ∨ maxFreqPrecision < precision then maxFreqPrecision else precision)
    hdigits (by omega)
  have hshift : groupFormat = groupFormat >>> 0 := rfl
  rw [ulongFreq]
  dsimp only [Option.bind_eq_bind]
  rw [hshift, hloop, Option.bind_some]
  dsimp only
  rw [hletter, Option.bind_some, hcopy, Option.bind_some]
  split
  · obtain ⟨space, hspace, hkeeps⟩ := keeps_store hfull (Nat.zero_le p) (by omega) ' '
    obtain ⟨buf', hstore, hkeeps'⟩ := keeps_store hkeeps.full (Nat.zero_le (p + 1)) (by omega) c
    refine ⟨p + 1 + 1, buf', ?_, hkeeps'.full, by omega⟩
    rw [hspace, Option.map_some, Option.bind_some, hstore, Option.bind_some]
  · obtain ⟨buf', hstore, hkeeps⟩ := keeps_store hfull (Nat.zero_le p) (by omega) c
    refine ⟨p + 1, buf', ?_, hkeeps.full, by omega⟩
    rw [Option.bind_some, hstore, Option.bind_some]

end Writes

end NanoVNA.PrintBuffer
