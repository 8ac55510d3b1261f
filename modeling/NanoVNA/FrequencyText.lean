import Mathlib.Logic.Function.Basic
import NanoVNA.DeviceState
import NanoVNA.FloatNumerals
import NanoVNA.ShellPrintf

namespace NanoVNA.FrequencyText

open NanoVNA.Word32 NanoVNA.DeviceState
open NanoVNA.ShellPrintf (maxFiller)
open NanoVNA.FloatNumerals (digitChar digitsValue digitsValue_nil digitsValue_concat)

/-! ### The conversion of a frequency -/

def maxFreqPrecision : Nat := 14

/-- The bytes of `tmpbuf`. -/
def tmpbufSize : Nat := 2 * maxFiller + 1

/-- The buffer from the place on where the text goes; `none` where nothing has been written. -/
abbrev Cells := Nat → Option Char

def store (buf : Cells) (i : Nat) (c : Char) : Option Cells :=
  if i < tmpbufSize then some (Function.update buf i (some c)) else none

/-- `*--q = c` -/
def push (buf : Cells) (q : Nat) (c : Char) : Option Cells :=
  if q = 0 then none else store buf (q - 1) c

/-- The loop that corrects the quotient; no more rounds than given are needed. -/
def correct : Nat → Nat → Nat → Nat × Nat
  | 0, freq, c => (freq, c)
  | rounds + 1, freq, c => if 10 ≤ c then correct rounds (u32 (freq + 1)) (c - 10) else (freq, c)

/-- The quotient and the remainder; the larger board has a division. -/
def divTen (board : Board) (n : Nat) : Nat × Nat :=
  match board with
  | .f303 => (n / 10, n % 10)
  | .f072 =>
    let freq := n >>> 1
    let freq := u32 (freq + freq >>> 1)
    let freq := u32 (freq + freq >>> 4)
    let freq := u32 (freq + freq >>> 8)
    let freq := u32 (freq + freq >>> 16)
    let freq := freq >>> 3
    let c := sub32 n (u32 (freq * 10))
    correct c freq c

def groupFormat : Nat := 0b100100100100100

/-- The digits and spaces, from the last one on; what is left of the buffer, the number of spaces
and the buffer. -/
def digitLoop (board : Board) : Nat → Nat → Nat → Nat → Nat → Cells → Option (Nat × Nat × Cells)
  | 0, _, _, _, _, _ => none
  | fuel + 1, freq, format, q, s, buf => do
    let (freq, c) := divTen board freq
    let buf ← push buf q (Char.ofNat (c + '0'.toNat))
    if freq = 0 then some (q - 1, s, buf)
    else if format &&& 1 ≠ 0 then do
      let buf ← push buf (q - 1) ' '
      digitLoop board fuel freq (format >>> 1) (q - 2) (s + 1) buf
    else digitLoop board fuel freq (format >>> 1) (q - 1) s buf

/-- The next character to copy; the first space becomes the point, the others are skipped where no
space stands in front of the prefix. -/
def nextChar (prefixSpace pset : Bool) (q : Nat) (buf : Cells) : Option (Char × Bool × Nat) := do
  let c ← buf q
  if c = ' ' then
    if pset then some ('.', false, q + 1)
    else if prefixSpace then some (c, pset, q + 1)
    else (buf (q + 1)).map fun c => (c, pset, q + 2)
  else some (c, pset, q + 1)

def copyLoop (prefixSpace : Bool) : Nat → Bool → Int → Nat → Nat → Cells → Option (Nat × Cells)
  | 0, _, _, _, p, buf => some (p, buf)
  | i + 1, pset, precision, q, p, buf => do
    let (c, pset, q) ← nextChar prefixSpace pset q buf
    if pset = false ∧ precision < 0 then some (p, buf)
    else do
      let buf ← store buf p c
      copyLoop prefixSpace i pset (if pset then precision else precision - 1) q (p + 1) buf

def bigPrefix : List Char := [' ', 'k', 'M', 'G', 'T', 'P', 'E', 'Z', 'Y', '\x00']

/-- The place behind the text, and the buffer; a number of 32 bits has ten digits. -/
def ulongFreq (board : Board) (freq : Nat) (precision : Int) (buf : Cells) :
    Option (Nat × Cells) := do
  let prefixSpace : Bool := precision = 0
  let precision : Int := if precision = 0 ∨ maxFreqPrecision < precision then maxFreqPrecision
    else precision
  let (q, s, buf) ← digitLoop board 10 freq groupFormat maxFreqPrecision 0 buf
  let s ← bigPrefix[s]?
  let (p, buf) ← copyLoop prefixSpace (maxFreqPrecision - q) true precision q 0 buf
  let (p, buf) ←
    (if prefixSpace ∧ s ≠ ' ' then (store buf p ' ').map fun buf => (p + 1, buf) else some (p, buf))
  let buf ← store buf p s
  some (p + 1, buf)

def textOf (buf : Cells) : Nat → Nat → Option (List Char)
  | _, 0 => some []
  | i, n + 1 => do
    let c ← buf i
    let cs ← textOf buf (i + 1) n
    some (c :: cs)

def freqText (board : Board) (freq precision : Nat) : Option (List Char) := do
  let (n, buf) ← ulongFreq board freq precision fun _ => none
  textOf buf 0 n

example : freqText .f072 1234567890 3 = some "1.234G".toList ∧
    freqText .f303 1234567890 0 = some "1.234 567 890 G".toList := by decide

/-! ### The division by ten -/

theorem correct_eq {rounds freq c : Nat} (hrounds : c ≤ rounds) (hfreq : freq + c / 10 < 2 ^ 32) :
    correct rounds freq c = (freq + c / 10, c % 10) := by
  induction rounds generalizing freq c with
  | zero =>
    obtain rfl : c = 0 := by omega
    rfl
  | succ rounds ih =>
    rw [correct]
    split
    next hten =>
      rw [u32_of_lt (by omega), ih (by omega) (by omega)]
      refine Prod.ext ?_ ?_
      · dsimp only
        omega
      · dsimp only
        omega
    next hten =>
      refine Prod.ext ?_ ?_
      · dsimp only
        omega
      · dsimp only
        omega

theorem quotient_le {n f1 f2 f3 f4 f5 q : Nat} (h1 : 2 * f1 ≤ n) (h2 : 2 * f2 ≤ 3 * f1)
    (h3 : 16 * f3 ≤ 17 * f2) (h4 : 256 * f4 ≤ 257 * f3) (h5 : 65536 * f5 ≤ 65537 * f4)
    (h6 : 8 * q ≤ f5) : q * 10 ≤ n := by
  omega

/-- The shifts give a quotient that is not too large, and the loop makes it exact. -/
theorem divTen_eq (board : Board) {n : Nat} (hn : n < 2 ^ 32) :
    divTen board n = (n / 10, n % 10) := by
  cases board with
  | f303 => rfl
  | f072 =>
    obtain ⟨f1, hf1⟩ : ∃ f1, f1 = n / 2 := ⟨_, rfl⟩
    obtain ⟨f2, hf2⟩ : ∃ f2, f2 = f1 + f1 / 2 := ⟨_, rfl⟩
    obtain ⟨f3, hf3⟩ : ∃ f3, f3 = f2 + f2 / 2 ^ 4 := ⟨_, rfl⟩
    obtain ⟨f4, hf4⟩ : ∃ f4, f4 = f3 + f3 / 2 ^ 8 := ⟨_, rfl⟩
    obtain ⟨f5, hf5⟩ : ∃ f5, f5 = f4 + f4 / 2 ^ 16 := ⟨_, rfl⟩
    obtain ⟨q, hq⟩ : ∃ q, q = f5 / 2 ^ 3 := ⟨_, rfl⟩
    have h1 : 2 * f1 ≤ n := by omega
    have h2 : 2 * f2 ≤ 3 * f1 := by omega
    have h3 : 16 * f3 ≤ 17 * f2 := by omega
    have h4 : 256 * f4 ≤ 257 * f3 := by omega
    have h5 : 65536 * f5 ≤ 65537 * f4 := by omega
    have h6 : 8 * q ≤ f5 := by omega
    have hquotient : q * 10 ≤ n := quotient_le h1 h2 h3 h4 h5 h6
    have hlt : f2 < 2 ^ 32 ∧ f3 < 2 ^ 32 ∧ f4 < 2 ^ 32 ∧ f5 < 2 ^ 32 := by
      clear hf1 hf2 hf3 hf4 hf5 hq hquotient h6
      omega
    simp only [divTen, Nat.shiftRight_eq_div_pow, Nat.pow_one, ← hf1]
    rw [← hf2, u32_of_lt hlt.1, ← hf3, u32_of_lt hlt.2.1, ← hf4, u32_of_lt hlt.2.2.1, ← hf5,
      u32_of_lt hlt.2.2.2, ← hq, u32_of_lt (by omega), sub32_of_le hn hquotient]
    clear hf1 hf2 hf3 hf4 hf5 hq hlt h1 h2 h3 h4 h5 h6
    rw [correct_eq (Nat.le_refl _) (by omega)]
    refine Prod.ext ?_ ?_
    · dsimp only
      omega
    · dsimp only
      omega

/-! ### The digits and their groups -/

/-- The characters of digits, the last digit first, from the one at the given place on. -/
def spaced : Nat → List (Fin 10) → List Char
  | _, [] => []
  | k, d :: ds =>
    if k % 3 = 0 ∧ k ≠ 0 then ' ' :: digitChar d :: spaced (k + 1) ds
    else digitChar d :: spaced (k + 1) ds

theorem spaced_append (k : Nat) (ds ds' : List (Fin 10)) :
    spaced k (ds ++ ds') = spaced k ds ++ spaced (k + ds.length) ds' := by
  induction ds generalizing k with
  | nil => rfl
  | cons d ds ih =>
    have hplace : k + 1 + ds.length = k + (d :: ds).length := by
      rw [List.length_cons]
      omega
    rw [List.cons_append, spaced, spaced, ih, hplace]
    split <;> rfl

theorem spaced_length (k : Nat) (ds : List (Fin 10)) :
    (spaced (k + 1) ds).length + k / 3 = ds.length + (k + ds.length) / 3 := by
  induction ds generalizing k with
  | nil => rfl
  | cons d ds ih =>
    have hrest := ih (k + 1)
    have hplace : k + 1 + ds.length = k + (d :: ds).length := by
      rw [List.length_cons]
      omega
    rw [hplace] at hrest
    rw [spaced]
    split
    · rw [List.length_cons, List.length_cons, List.length_cons]
      omega
    · rw [List.length_cons, List.length_cons]
      omega

/-- The characters stand in the buffer in front of a place, the first one last. -/
structure Written (buf buf' : Cells) (q : Nat) (cs : List Char) : Prop where
  chars : ∀ j (h : j < cs.length), buf' (q - 1 - j) = some cs[j]
  behind : ∀ j, q ≤ j → buf' j = buf j

theorem push_eq {buf : Cells} {q : Nat} (hq : 0 < q) (hsize : q ≤ tmpbufSize) (c : Char) :
    push buf q c = some (Function.update buf (q - 1) (some c)) := by
  rw [push, if_neg (by omega), store, if_pos (by omega)]

theorem written_nil (buf : Cells) (q : Nat) : Written buf buf q [] :=
  ⟨fun _ h => absurd h (Nat.not_lt_zero _), fun _ _ => rfl⟩

theorem written_cons {buf buf' : Cells} {q : Nat} {c : Char} {cs : List Char} (hq : cs.length < q)
    (h : Written (Function.update buf (q - 1) (some c)) buf' (q - 1) cs) :
    Written buf buf' q (c :: cs) := by
  constructor
  · intro j hj
    cases j with
    | zero =>
      have hbehind := h.behind (q - 1) (Nat.le_refl _)
      rw [Function.update_self] at hbehind
      exact hbehind
    | succ j =>
      rw [List.length_cons] at hj
      have hchars := h.chars j (by omega)
      rw [show q - 1 - (j + 1) = q - 1 - 1 - j by omega]
      exact hchars
  · intro j hj
    rw [h.behind j (by omega), Function.update_of_ne (by omega)]

theorem groupFormat_shift : ∀ k < 15, (groupFormat >>> k &&& 1 ≠ 0 ↔ k % 3 = 2) := by decide

theorem digitChar_mod (n : Nat) :
    Char.ofNat (n % 10 + '0'.toNat) = digitChar ⟨n % 10, Nat.mod_lt n (by decide)⟩ := by
  rw [digitChar, Nat.add_comm]

section Digits

variable {board : Board} {fuel freq k q s : Nat} {buf : Cells}

def Prints (board : Board) (fuel freq k q s : Nat) (buf : Cells) : Prop :=
  ∃ d ds buf', digitsValue (d :: ds).reverse = freq ∧ ds.length < fuel ∧
    (ds = [] ∨ 10 ^ ds.length ≤ freq) ∧
    digitLoop board fuel freq (groupFormat >>> k) q s buf =
      some (q - (digitChar d :: spaced (k + 1) ds).length, s + ((k + ds.length) / 3 - k / 3),
        buf') ∧
    Written buf buf' q (digitChar d :: spaced (k + 1) ds)

def separator (k : Nat) : List Char := if k % 3 = 2 then [' '] else []

theorem spaced_succ (k : Nat) (d : Fin 10) (ds : List (Fin 10)) :
    spaced (k + 1) (d :: ds) = separator k ++ digitChar d :: spaced (k + 1 + 1) ds := by
  have hgroup : (k + 1) % 3 = 0 ∧ k + 1 ≠ 0 ↔ k % 3 = 2 := by omega
  simp only [spaced, separator, hgroup]
  split <;> rfl

theorem digitLoop_succ (board : Board) (fuel format s : Nat) {d : Fin 10}
    (hlow : (d : Nat) = freq % 10) (hword : freq < 2 ^ 32) (hq : 0 < q) (hsize : q ≤ tmpbufSize) :
    digitLoop board (fuel + 1) freq format q s buf =
      let buf := Function.update buf (q - 1) (some (digitChar d))
      if freq / 10 = 0 then some (q - 1, s, buf)
      else if format &&& 1 ≠ 0 then
        (push buf (q - 1) ' ').bind
          (digitLoop board fuel (freq / 10) (format >>> 1) (q - 2) (s + 1))
      else digitLoop board fuel (freq / 10) (format >>> 1) (q - 1) s buf := by
  obtain rfl : d = ⟨freq % 10, Nat.mod_lt freq (by decide)⟩ := Fin.ext hlow
  rw [digitLoop, divTen_eq board hword]
  dsimp only
  rw [digitChar_mod, push_eq hq hsize]
  rfl

theorem digitsValue_last {d : Fin 10} (hlow : (d : Nat) = freq % 10) {ds : List (Fin 10)}
    (hds : digitsValue ds.reverse = freq / 10) : digitsValue (d :: ds).reverse = freq := by
  rw [List.reverse_cons, digitsValue_concat, hds, hlow]
  omega

theorem prints_last {d : Fin 10} (hlow : (d : Nat) = freq % 10) (hzero : freq / 10 = 0)
    (hq : 0 < q)
    (hloop : digitLoop board (fuel + 1) freq (groupFormat >>> k) q s buf =
      some (q - 1, s, Function.update buf (q - 1) (some (digitChar d)))) :
    Prints board (fuel + 1) freq k q s buf := by
  refine ⟨d, [], _, digitsValue_last hlow hzero.symm, Nat.succ_pos fuel, Or.inl rfl, ?_,
    written_cons hq (written_nil _ _)⟩
  rw [List.length_nil, Nat.add_zero k, Nat.sub_self]
  exact hloop

theorem Prints.cons {buf₁ : Cells} {d : Fin 10} (hlow : (d : Nat) = freq % 10)
    (hzero : freq / 10 ≠ 0) (hroom : fuel + 1 + (k + fuel) / 3 ≤ q + k / 3)
    (hloop : digitLoop board (fuel + 1) freq (groupFormat >>> k) q s buf =
      digitLoop board fuel (freq / 10) (groupFormat >>> (k + 1)) (q - 1 - (separator k).length)
        (s + (separator k).length) buf₁)
    (hwritten : ∀ buf' text, (separator k).length + text.length < q →
      Written buf₁ buf' (q - 1 - (separator k).length) text →
        Written buf buf' q (digitChar d :: (separator k ++ text)))
    (h : Prints board fuel (freq / 10) (k + 1) (q - 1 - (separator k).length)
      (s + (separator k).length) buf₁) :
    Prints board (fuel + 1) freq k q s buf := by
  obtain ⟨d', ds, buf', hds, hlength, hlead, hrest, htext⟩ := h
  have hcount := spaced_length (k + 1) ds
  have hseparator : (separator k).length = if k % 3 = 2 then 1 else 0 := by
    unfold separator
    split <;> rfl
  have hpow : 10 ^ (d' :: ds).length ≤ freq := by
    rw [List.length_cons, Nat.pow_succ]
    obtain rfl | hds' := hlead
    · rw [List.length_nil]
      omega
    · omega
  refine ⟨d, d' :: ds, buf', digitsValue_last hlow hds, Nat.succ_lt_succ hlength, Or.inr hpow,
    ?_, ?_⟩
  · rw [hloop, hrest, spaced_succ]
    simp only [List.length_cons, List.length_append]
    refine congrArg some (Prod.ext ?_ (Prod.ext ?_ rfl))
    · dsimp only
      omega
    · dsimp only
      split at hseparator <;> omega
  · rw [spaced_succ]
    refine hwritten buf' _ ?_ htext
    simp only [List.length_cons]
    split at hseparator <;> omega

variable (board) in
theorem digitLoop_spec (hfuel : 0 < fuel) (hfreq : freq < 10 ^ fuel) (hword : freq < 2 ^ 32)
    (hk : k + fuel ≤ 15) (hroom : fuel + (k + fuel - 1) / 3 ≤ q + k / 3) (hsize : q ≤ tmpbufSize) :
    Prints board fuel freq k q s buf := by
  induction fuel generalizing freq k q s buf with
  | zero => omega
  | succ fuel ih =>
    obtain ⟨d, hlow⟩ : ∃ d : Fin 10, (d : Nat) = freq % 10 :=
      ⟨⟨freq % 10, Nat.mod_lt freq (by decide)⟩, rfl⟩
    have hloop := @digitLoop_succ freq q buf board fuel (groupFormat >>> k) s d hlow hword
      (by omega) hsize
    by_cases hzero : freq / 10 = 0
    · exact prints_last hlow hzero (by omega) (hloop.trans (if_pos hzero))
    · have hfreq' : freq / 10 < 10 ^ fuel := by
        rw [Nat.pow_succ] at hfreq
        omega
      have hfuel' : 0 < fuel := by
        obtain rfl | hpos := Nat.eq_zero_or_pos fuel
        · omega
        · exact hpos
      rw [if_neg hzero, ← Nat.shiftRight_add] at hloop
      by_cases hgroup : k % 3 = 2
      · have hsep : separator k = [' '] := if_pos hgroup
        have hbit := (groupFormat_shift k (by omega)).mpr hgroup
        rw [if_pos hbit, push_eq (by omega) (by omega), Option.bind_some] at hloop
        have hrest := @ih (freq / 10) (k + 1) (q - 2) (s + 1)
          (Function.update (Function.update buf (q - 1) (some (digitChar d))) (q - 1 - 1)
            (some ' ')) hfuel' hfreq' (by omega) (by omega) (by omega) (by omega)
        refine Prints.cons hlow hzero (by omega) (by rwa [hsep]) ?_ (by rwa [hsep])
        intro buf' text hlt htext
        rw [hsep] at hlt htext ⊢
        rw [List.length_singleton] at hlt htext
        have hfirst : ([' '] ++ text).length < q := by
          rw [List.length_append, List.length_singleton]
          exact hlt
        have hsecond : text.length < q - 1 := by omega
        exact written_cons hfirst (written_cons hsecond htext)
      · have hsep : separator k = [] := if_neg hgroup
        have hbit := mt (groupFormat_shift k (by omega)).mp hgroup
        rw [if_neg hbit] at hloop
        have hrest := @ih (freq / 10) (k + 1) (q - 1) s
          (Function.update buf (q - 1) (some (digitChar d))) hfuel' hfreq' (by omega) (by omega)
          (by omega) (by omega)
        refine Prints.cons hlow hzero (by omega) (by rwa [hsep]) ?_ (by rwa [hsep])
        intro buf' text hlt htext
        rw [hsep] at hlt htext ⊢
        rw [List.length_nil, Nat.zero_add] at hlt
        exact written_cons hlt htext

end Digits

end NanoVNA.FrequencyText
