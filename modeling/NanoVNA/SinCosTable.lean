import Mathlib.Algebra.Order.Field.Basic
import Mathlib.Algebra.Ring.Periodic
import Mathlib.Data.Int.Cast.Lemmas
import Mathlib.Data.Rat.Floor
import Mathlib.Tactic.Linarith
import Mathlib.Tactic.Ring
import NanoVNA.DeviceState

namespace NanoVNA.SinCosTable

open NanoVNA.DeviceState

/-- The steps of a quarter wave, `QTR_WAVE_TABLE_SIZE - 1`. -/
def quarterSteps : Board → Nat
  | .f072 => 256
  | .f303 => 512

structure QuarterWave (n : Nat) where
  values : List ℚ
  length_eq : values.length = n + 1
  first : values[0]? = some 0
  last : values[n]? = some 1

section Conversions

def truncated (x : ℚ) : ℤ := if 0 ≤ x then ⌊x⌋ else ⌈x⌉

/-- Out of the range of its type the conversion has no value. -/
def toUnsigned (width : Nat) (x : ℚ) : Option Nat :=
  if 0 ≤ truncated x ∧ truncated x < 2 ^ width then some (truncated x).toNat else none

def toInt (x : ℚ) : Option ℤ :=
  if -2 ^ 31 ≤ truncated x ∧ truncated x < 2 ^ 31 then some (truncated x) else none

def divided (a b : Nat) : Option Nat := if b = 0 then none else some (a / b)

def vnaModff (x : ℚ) : ℚ := x - truncated x

end Conversions

section Code

/-- The entries at an index and after it; the last one stands for the one past the end. -/
def entries (table : List ℚ) (size idx : Nat) : Option (ℚ × ℚ × ℚ) := do
  let y0 ← table[idx]?
  let y1 ← table[idx + 1]?
  let y2 ← if size - 2 ≤ idx then some y1 else table[idx + 2]?
  some (y0, y1, y2)

def quadratic (fract y0 y1 y2 : ℚ) : ℚ :=
  y0 + fract * (y1 - y0) + fract * (fract - 1) * (y2 - 2 * y1 + y0) * (1 / 2)

def quadraticInterpolation512 (table : List ℚ) (x : ℚ) : Option ℚ := do
  let idx ← toInt x
  let fract := if idx < 0 then 0 else x - idx
  let idx := if idx < 0 then 0 else idx.toNat
  if 512 ≤ idx then table[512]?
  else do
    let (y0, y1, y2) ← entries table 513 idx
    some (quadratic fract y0 y1 y2)

/-- `quadratic_interpolation` of the smaller table, linear in its last step. -/
def quadraticInterpolation (table : List ℚ) (x : ℚ) : Option ℚ := do
  let idx ← toInt x
  let fract := if idx < 0 then 0 else x - idx
  let idx := if idx < 0 then 0 else idx.toNat
  if 256 ≤ idx then table[256]?
  else do
    let (y0, y1, y2) ← entries table 257 idx
    some (if 255 ≤ idx then y0 + fract * (y1 - y0) else quadratic fract y0 y1 y2)

def turned (quad : Nat) (s c : ℚ) : ℚ × ℚ :=
  match quad with
  | 0 => (s, c)
  | 1 => (c, -s)
  | 2 => (-s, -c)
  | 3 => (-c, s)
  | _ => (0, 1)

def fractionOfTurn (angle : ℚ) : ℚ :=
  if vnaModff angle < 0 then vnaModff angle + 1 else vnaModff angle

def vnaSincosf512 (table : List ℚ) (angle : ℚ) : Option (ℚ × ℚ) := do
  let scaled := fractionOfTurn angle * 2048
  let fullIndex ← toUnsigned 16 scaled
  let fract := scaled - fullIndex
  let quad ← divided fullIndex 512
  let inQuadPos := fullIndex % 512
  let sinInterp ← quadraticInterpolation512 table (inQuadPos + fract)
  let cosInterp ← quadraticInterpolation512 table (512 - (inQuadPos + fract))
  some (turned (quad % 256) sinInterp cosInterp)

/-- The copy for the smaller table converts the steps of a quarter to eight bits. -/
def vnaSincosf256 (table : List ℚ) (angle : ℚ) : Option (ℚ × ℚ) := do
  let scaled := fractionOfTurn angle * 1024
  let fullIndex ← toUnsigned 16 scaled
  let fract := scaled - fullIndex
  let divisor ← toUnsigned 8 256
  let quad ← divided fullIndex divisor
  let modulus ← toUnsigned 16 256
  let inQuadPos := fullIndex % modulus
  let sinInterp ← quadraticInterpolation table (inQuadPos + fract)
  let compAngle := 256 - (inQuadPos + fract)
  let cosInterp ←
    if 256 ≤ compAngle then table[256]?
    else if compAngle < 0 then table[0]?
    else quadraticInterpolation table compAngle
  some (turned (quad % 256) sinInterp cosInterp)

def vnaSincosf (board : Board) (table : List ℚ) (angle : ℚ) : Option (ℚ × ℚ) :=
  match board with
  | .f072 => vnaSincosf256 table angle
  | .f303 => vnaSincosf512 table angle

end Code

/-- A function on the steps of the circle that continues the table, mirrored at the end of the
first quarter and changing its sign after half a turn. -/
structure OddPeriodic {n : Nat} (t : QuarterWave n) (S : ℤ → ℚ) : Prop where
  table : ∀ j ≤ n, t.values[j]? = some (S j)
  mirror : ∀ j, S (2 * n - j) = S j
  odd : ∀ j, S (2 * n + j) = -S j

/-- The code has a value at every angle, the one of the table at its steps, and a quarter of a turn
takes the sine to the cosine and the cosine to the opposite of the sine. -/
def Exact (board : Board) (t : QuarterWave (quarterSteps board)) : Prop :=
  ∃ S, OddPeriodic t S ∧ ∀ a, ∃ s c,
    vnaSincosf board t.values a = some (s, c) ∧
      (∀ k : ℤ, a = k / (4 * quarterSteps board) → s = S k ∧ c = S (k + quarterSteps board)) ∧
      vnaSincosf board t.values (a + 1 / 4) = some (c, -s)

section Turns

variable {a p x : ℚ} {n : ℤ}

theorem floor_eq (hn : a = n + p) (hlo : 0 ≤ p) (hhi : p < 1) : ⌊a⌋ = n := by
  rw [Int.floor_eq_iff]
  constructor <;> linarith

theorem fractionOfTurn_eq (hn : a = n + p) (hlo : 0 ≤ p) (hhi : p < 1) : fractionOfTurn a = p := by
  unfold fractionOfTurn vnaModff truncated
  by_cases hsign : 0 ≤ a
  · rw [if_pos hsign, floor_eq hn hlo hhi, if_neg (by linarith), hn]
    ring
  · rw [if_neg hsign]
    obtain heq | hpos := hlo.eq_or_lt
    · have hceil : ⌈a⌉ = n := by
        rw [Int.ceil_eq_iff]
        constructor <;> linarith
      rw [hceil, if_neg (by linarith), hn]
      linarith
    · have hceil : ⌈a⌉ = n + 1 := by
        rw [Int.ceil_eq_iff]
        push_cast
        constructor <;> linarith
      rw [hceil]
      push_cast
      rw [if_pos (by linarith), hn]
      ring

theorem exists_step (hx : 0 ≤ x) : ∃ j : Nat, (j : ℚ) ≤ x ∧ x < j + 1 :=
  ⟨⌊x⌋₊, Nat.floor_le hx, Nat.lt_floor_add_one x⟩

theorem truncated_eq {j : Nat} (hlo : (j : ℚ) ≤ x) (hhi : x < j + 1) : truncated x = j := by
  have hpos : 0 ≤ x := le_trans (Nat.cast_nonneg j) hlo
  rw [truncated, if_pos hpos, Int.floor_eq_iff]
  exact ⟨by exact_mod_cast hlo, by exact_mod_cast hhi⟩

theorem toUnsigned_eq {width j : Nat} (hj : j < 2 ^ width) (hlo : (j : ℚ) ≤ x) (hhi : x < j + 1) :
    toUnsigned width x = some j := by
  rw [toUnsigned, truncated_eq hlo hhi, if_pos ⟨Int.natCast_nonneg j, by exact_mod_cast hj⟩,
    Int.toNat_natCast]

theorem toInt_eq {j : Nat} (hj : j < 2 ^ 31) (hlo : (j : ℚ) ≤ x) (hhi : x < j + 1) :
    toInt x = some (j : ℤ) := by
  rw [toInt, truncated_eq hlo hhi, if_pos ⟨by omega, by exact_mod_cast hj⟩]

end Turns

section Interpolation

variable {n : Nat} {x : ℚ}

theorem QuarterWave.exists_value (t : QuarterWave n) {j : Nat} (hj : j ≤ n) :
    ∃ v, t.values[j]? = some v := by
  have hlt : j < t.values.length := by
    rw [t.length_eq]
    omega
  exact ⟨t.values[j], List.getElem?_eq_getElem hlt⟩

theorem exists_entries (t : QuarterWave 512) {j : Nat} (hj : j < 512) :
    ∃ y0 y1 y2, entries t.values 513 j = some (y0, y1, y2) ∧ t.values[j]? = some y0 := by
  obtain ⟨y0, h0⟩ := t.exists_value (j := j) (by omega)
  obtain ⟨y1, h1⟩ := t.exists_value (j := j + 1) (by omega)
  by_cases hend : 513 - 2 ≤ j
  · refine ⟨y0, y1, y1, ?_, h0⟩
    simp only [entries, h0, h1, if_pos hend, Option.bind_eq_bind, Option.bind_some]
  · obtain ⟨y2, h2⟩ := t.exists_value (j := j + 2) (by omega)
    refine ⟨y0, y1, y2, ?_, h0⟩
    simp only [entries, h0, h1, h2, if_neg hend, Option.bind_eq_bind, Option.bind_some]

theorem interpolation512_inner (t : QuarterWave 512) {j : Nat} (hj : j < 512)
    (hlo : (j : ℚ) ≤ x) (hhi : x < j + 1) :
    ∃ v, quadraticInterpolation512 t.values x = some v ∧ (x = j → t.values[j]? = some v) := by
  obtain ⟨y0, y1, y2, hentries, hvalue⟩ := exists_entries t hj
  refine ⟨quadratic (x - j) y0 y1 y2, ?_, fun hx => ?_⟩
  · have hsign : ¬ (j : ℤ) < 0 := by omega
    have hlow : ¬ 512 ≤ j := by omega
    simp only [quadraticInterpolation512, toInt_eq (by omega) hlo hhi, Option.bind_eq_bind,
      Option.bind_some, if_neg hsign, Int.toNat_natCast, if_neg hlow, hentries, Int.cast_natCast]
  · rw [hvalue, hx, quadratic]
    simp

theorem interpolation512_last (t : QuarterWave 512) :
    quadraticInterpolation512 t.values 512 = some 1 := by
  have hint : toInt 512 = some ((512 : Nat) : ℤ) :=
    toInt_eq (by decide) (by norm_num) (by norm_num)
  simp only [quadraticInterpolation512, hint, Option.bind_eq_bind, Option.bind_some]
  exact t.last

theorem interpolation512_spec (t : QuarterWave 512) (hlo : 0 ≤ x) (hhi : x ≤ 512) :
    ∃ v, quadraticInterpolation512 t.values x = some v ∧
      ∀ j : Nat, x = j → t.values[j]? = some v := by
  obtain hlt | heq := hhi.lt_or_eq
  · obtain ⟨i, hbelow, habove⟩ := exists_step hlo
    have hi512 : i < 512 := by
      have hcast : (i : ℚ) < 512 := lt_of_le_of_lt hbelow hlt
      exact_mod_cast hcast
    obtain ⟨v, hv, hat⟩ := interpolation512_inner t hi512 hbelow habove
    refine ⟨v, hv, fun j hj => ?_⟩
    obtain rfl : i = j := by
      rw [hj] at hbelow habove
      have hle : i ≤ j := by exact_mod_cast hbelow
      have hge : j < i + 1 := by exact_mod_cast habove
      omega
    exact hat hj
  · refine ⟨1, heq ▸ interpolation512_last t, fun j hj => ?_⟩
    obtain rfl : j = 512 := by
      have hcast : (j : ℚ) = 512 := hj.symm.trans heq
      exact_mod_cast hcast
    exact t.last

end Interpolation

section Quadrants

variable {a x : ℚ} {n : ℤ} {q : Nat}

theorem sincos_of_turns {table : List ℚ} {s c : ℚ} (hq : q < 4) (hlo : 0 ≤ x) (hhi : x < 512)
    (ha : a * 2048 = 2048 * n + 512 * q + x)
    (hs : quadraticInterpolation512 table x = some s)
    (hc : quadraticInterpolation512 table (512 - x) = some c) :
    vnaSincosf512 table a = some (turned q s c) := by
  have hq3 : (q : ℚ) ≤ 3 := by exact_mod_cast Nat.le_of_lt_succ hq
  have hq0 : (0 : ℚ) ≤ q := Nat.cast_nonneg q
  have hturn : fractionOfTurn a = (512 * q + x) / 2048 :=
    fractionOfTurn_eq (n := n) (by linarith) (by linarith) (by linarith)
  have hscaled : fractionOfTurn a * 2048 = 512 * q + x := by
    rw [hturn]
    ring
  obtain ⟨j, hbelow, habove⟩ := exists_step hlo
  have hj512 : j < 512 := by
    have hcast : (j : ℚ) < 512 := lt_of_le_of_lt hbelow hhi
    exact_mod_cast hcast
  have hindex : toUnsigned 16 (512 * q + x) = some (512 * q + j) :=
    toUnsigned_eq (by omega) (by push_cast; linarith) (by push_cast; linarith)
  have hquad : (512 * q + j) / 512 % 256 = q := by omega
  have hpos : (512 * q + j) % 512 = j := by omega
  have hplace : (j : ℚ) + (512 * q + x - ((512 * q + j : Nat) : ℚ)) = x := by
    push_cast
    ring
  simp only [vnaSincosf512, hscaled, hindex, divided, Option.bind_eq_bind, Option.bind_some,
    OfNat.ofNat_ne_zero, if_false, hquad, hpos, hplace, hs, hc]

theorem sincos_quarter_later {table : List ℚ} {s c : ℚ} (hq : q < 4) (hlo : 0 ≤ x) (hhi : x < 512)
    (ha : a * 2048 = 2048 * n + 512 * q + x)
    (hs : quadraticInterpolation512 table x = some s)
    (hc : quadraticInterpolation512 table (512 - x) = some c) :
    vnaSincosf512 table (a + 1 / 4) = some (turned ((q + 1) % 4) s c) := by
  by_cases hwrap : q = 3
  · refine sincos_of_turns (n := n + 1) (Nat.mod_lt _ (by decide)) hlo hhi ?_ hs hc
    rw [hwrap] at ha ⊢
    push_cast at ha ⊢
    norm_num
    linarith
  · rw [Nat.mod_eq_of_lt (by omega)]
    refine sincos_of_turns (n := n) (by omega) hlo hhi ?_ hs hc
    push_cast
    linarith

theorem turned_next (hq : q < 4) (s c : ℚ) :
    turned ((q + 1) % 4) s c = ((turned q s c).2, -(turned q s c).1) := by
  obtain rfl | rfl | rfl | rfl : q = 0 ∨ q = 1 ∨ q = 2 ∨ q = 3 := by omega
  · rfl
  · rfl
  · simp [turned]
  · simp [turned]

theorem exists_quadrant (a : ℚ) :
    ∃ n : ℤ, ∃ q < 4, ∃ x : ℚ, 0 ≤ x ∧ x < 512 ∧ a * 2048 = 2048 * n + 512 * (q : Nat) + x := by
  have hfract := Int.fract_nonneg a
  obtain ⟨q, hbelow, habove⟩ := exists_step (x := Int.fract a * 4) (by linarith)
  have hlt : (q : ℚ) < 4 := by
    have := Int.fract_lt_one a
    linarith
  refine ⟨⌊a⌋, q, by exact_mod_cast hlt, Int.fract a * 2048 - 512 * q, by linarith, by linarith, ?_⟩
  have hsplit := Int.floor_add_fract a
  calc a * 2048 = (⌊a⌋ + Int.fract a) * 2048 := by rw [hsplit]
    _ = 2048 * ⌊a⌋ + 512 * q + (Int.fract a * 2048 - 512 * q) := by ring

end Quadrants

section Extension

variable {S : ℤ → ℚ} {n : ℤ} {q j : Nat}

def extension (T : Nat → ℚ) (k : ℤ) : ℚ :=
  let r := (k % 2048).toNat
  if r ≤ 512 then T r
  else if r ≤ 1024 then T (1024 - r)
  else if r ≤ 1536 then -T (r - 1024)
  else -T (2048 - r)

theorem extension_mirror (T : Nat → ℚ) (k : ℤ) : extension T (1024 - k) = extension T k := by
  unfold extension
  obtain ⟨r, hr⟩ : ∃ r, (k % 2048).toNat = r := ⟨_, rfl⟩
  have hmirror : ((1024 - k) % 2048).toNat = if r ≤ 1024 then 1024 - r else 3072 - r := by
    split <;> omega
  rw [hr, hmirror]
  dsimp only
  split_ifs <;> first | omega | exact congrArg T (by omega) | exact congrArg (-T ·) (by omega)

theorem extension_odd (T : Nat → ℚ) (hT : T 0 = 0) (k : ℤ) :
    extension T (1024 + k) = -extension T k := by
  unfold extension
  obtain ⟨r, hr⟩ : ∃ r, (k % 2048).toNat = r := ⟨_, rfl⟩
  have hhalf : ((1024 + k) % 2048).toNat = if r < 1024 then r + 1024 else r - 1024 := by
    split <;> omega
  rw [hr, hhalf]
  dsimp only
  obtain rfl | rfl | ⟨hzero, hturn⟩ : r = 0 ∨ r = 1024 ∨ r ≠ 0 ∧ r ≠ 1024 := by omega
  · simp [hT]
  · simp [hT]
  · split_ifs <;>
      first
      | omega
      | exact congrArg (-T ·) (by omega)
      | exact (congrArg T (by omega)).trans (neg_neg _).symm

theorem exists_oddPeriodic (t : QuarterWave 512) : ∃ S, OddPeriodic t S := by
  have hzero : t.values.getD 0 0 = 0 := by
    rw [List.getD_eq_getElem?_getD, t.first]
    rfl
  refine ⟨extension (t.values.getD · 0), fun j hj => ?_, extension_mirror _,
    extension_odd _ hzero⟩
  obtain ⟨v, hv⟩ := t.exists_value hj
  have hstep : ((j : ℤ) % 2048).toNat = j := by omega
  rw [extension, hstep, if_pos hj, List.getD_eq_getElem?_getD, hv]
  rfl

variable {t : QuarterWave 512} (h : OddPeriodic t S)

include h

theorem OddPeriodic.half (k : ℤ) : S (1024 + k) = -S k := h.odd k

theorem OddPeriodic.complement (k : ℤ) : S (512 + k) = S (512 - k) := by
  have hmirror := h.mirror (512 - k)
  rw [← hmirror]
  exact congrArg S (by push_cast; ring)

theorem OddPeriodic.turn (n k : ℤ) : S (2048 * n + k) = S k := by
  have hperiodic : Function.Periodic S 2048 := fun k => by
    calc S (k + 2048) = S (1024 + (1024 + k)) := congrArg S (by ring)
      _ = S k := by rw [h.half, h.half, neg_neg]
  have hturns := hperiodic.int_mul n k
  rw [Int.cast_id] at hturns
  rw [← hturns]
  exact congrArg S (by ring)

theorem OddPeriodic.quadrant (hq : q < 4) (n k : ℤ) :
    (S (2048 * n + (512 * q + k)), S (2048 * n + (512 * q + k + 512))) =
      turned q (S k) (S (512 - k)) := by
  rw [h.turn, h.turn]
  have hnext := h.complement k
  have hhalf := h.half k
  have hthird := h.half (512 + k)
  have hlast := h.half (1024 + k)
  rw [hnext] at hthird
  rw [hhalf, neg_neg] at hlast
  obtain rfl | rfl | rfl | rfl : q = 0 ∨ q = 1 ∨ q = 2 ∨ q = 3 := by omega
  · simp only [turned, Prod.mk.injEq]
    exact ⟨congrArg S (by push_cast; ring), hnext ▸ congrArg S (by push_cast; ring)⟩
  · simp only [turned, Prod.mk.injEq]
    exact ⟨hnext ▸ congrArg S (by push_cast; ring), hhalf ▸ congrArg S (by push_cast; ring)⟩
  · simp only [turned, Prod.mk.injEq]
    exact ⟨hhalf ▸ congrArg S (by push_cast; ring), hthird ▸ congrArg S (by push_cast; ring)⟩
  · simp only [turned, Prod.mk.injEq]
    exact ⟨hthird ▸ congrArg S (by push_cast; ring), hlast ▸ congrArg S (by push_cast; ring)⟩

end Extension

theorem sincos_spec (t : QuarterWave 512) {S : ℤ → ℚ} (h : OddPeriodic t S) (a : ℚ) :
    ∃ s c, vnaSincosf512 t.values a = some (s, c) ∧
      (∀ k : ℤ, a = k / (4 * 512) → s = S k ∧ c = S (k + 512)) ∧
      vnaSincosf512 t.values (a + 1 / 4) = some (c, -s) := by
  obtain ⟨n, q, hq, x, hlo, hhi, ha⟩ := exists_quadrant a
  obtain ⟨u, hu, hustep⟩ := interpolation512_spec t hlo (le_of_lt hhi)
  obtain ⟨v, hv, hvstep⟩ := interpolation512_spec t (x := 512 - x) (by linarith) (by linarith)
  refine ⟨(turned q u v).1, (turned q u v).2, sincos_of_turns hq hlo hhi ha hu hv,
    fun k hk => ?_, ?_⟩
  · -- at a step of the circle the place in the quadrant is a step of the table
    have hk' : (k : ℚ) = a * 2048 := by
      rw [hk]
      ring
    have hx : x = ((k - 2048 * n - 512 * q : ℤ) : ℚ) := by
      push_cast
      linarith
    obtain ⟨j, hj⟩ := Int.eq_ofNat_of_zero_le (a := k - 2048 * n - 512 * q) (by
      have hnonneg : (0 : ℚ) ≤ ((k - 2048 * n - 512 * q : ℤ) : ℚ) := hx ▸ hlo
      exact_mod_cast hnonneg)
    have hxj : x = j := by
      rw [hx, hj]
      rfl
    have hj512 : j ≤ 512 := by
      have hcast : (j : ℚ) < 512 := hxj ▸ hhi
      exact Nat.le_of_lt (by exact_mod_cast hcast)
    have hsine : u = S j := Option.some.inj ((hustep j hxj).symm.trans (h.table j hj512))
    have hcosine : v = S (512 - j) := by
      have hcomplement : 512 - x = ((512 - j : Nat) : ℚ) := by
        rw [Nat.cast_sub hj512, hxj]
        rfl
      have htable := Option.some.inj
        ((hvstep _ hcomplement).symm.trans (h.table (512 - j) (Nat.sub_le _ _)))
      rw [htable, Nat.cast_sub hj512]
      rfl
    have hquadrant := h.quadrant hq n j
    have hplace : 2048 * n + (512 * q + (j : ℤ)) = k := by omega
    rw [hplace, show 2048 * n + (512 * q + (j : ℤ) + 512) = k + 512 by omega, ← hsine,
      ← hcosine] at hquadrant
    exact Prod.mk.inj hquadrant.symm
  · rw [sincos_quarter_later hq hlo hhi ha hu hv, turned_next hq]

/-- 256 does not fit the eight bits that the copy for the smaller table converts it to. -/
theorem sincos256_none (table : List ℚ) (a : ℚ) : vnaSincosf256 table a = none := by
  have hoverflow : toUnsigned 8 256 = none := by decide +kernel
  unfold vnaSincosf256
  cases hindex : toUnsigned 16 (fractionOfTurn a * 1024) with
  | none => simp only [hindex, Option.bind_eq_bind, Option.bind_none]
  | some fullIndex =>
    simp only [hindex, hoverflow, Option.bind_eq_bind, Option.bind_some, Option.bind_none]

theorem not_exact_f072 (t : QuarterWave 256) : ¬ Exact .f072 t := by
  rintro ⟨S, -, hall⟩
  obtain ⟨s, c, hvalue, -⟩ := hall 0
  exact nomatch (sincos256_none t.values 0).symm.trans hvalue

/-- The copy for the table of 512 steps is exact, the other one has no value at any angle. -/
theorem exact_iff (board : Board) (t : QuarterWave (quarterSteps board)) :
    Exact board t ↔ board = .f303 := by
  cases board with
  | f072 =>
    exact iff_of_false (not_exact_f072 t) nofun
  | f303 =>
    refine iff_of_true ?_ rfl
    obtain ⟨S, hS⟩ := exists_oddPeriodic t
    exact ⟨S, hS, sincos_spec t hS⟩

def ramp (n : Nat) (hn : n ≠ 0) : QuarterWave n where
  values := (List.range (n + 1)).map fun i : Nat => (i : ℚ) / n
  length_eq := by rw [List.length_map, List.length_range]
  first := by simp
  last := by simp [hn]

theorem sincos_undefined :
    vnaSincosf .f072 (ramp 256 (by decide)).values 0 = none ∧
      ¬ Exact .f072 (ramp 256 (by decide)) :=
  ⟨sincos256_none _ 0, not_exact_f072 _⟩

end NanoVNA.SinCosTable
