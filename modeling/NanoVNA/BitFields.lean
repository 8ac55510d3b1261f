import Mathlib.Tactic.Ring

namespace NanoVNA.BitFields

/-- The fields of a word from its lowest bit up, each with its width and its value; a field keeps
the low bits of its value. -/
def pack : List (ℕ × ℕ) → ℕ
  | [] => 0
  | (w, v) :: fs => v % 2 ^ w + 2 ^ w * pack fs

def width : List (ℕ × ℕ) → ℕ
  | [] => 0
  | (w, _) :: fs => w + width fs

/-- The field of `w` bits that starts at a bit of the word. -/
def field (word start w : ℕ) : ℕ := word / 2 ^ start % 2 ^ w

theorem pack_lt (fs : List (ℕ × ℕ)) : pack fs < 2 ^ width fs := by
  induction fs with
  | nil => exact Nat.one_pos
  | cons f fs ih =>
    obtain ⟨w, v⟩ := f
    have hlow : v % 2 ^ w < 2 ^ w := Nat.mod_lt _ (Nat.two_pow_pos w)
    calc pack ((w, v) :: fs) < 2 ^ w + 2 ^ w * pack fs := Nat.add_lt_add_right hlow _
      _ = 2 ^ w * (pack fs + 1) := by ring
      _ ≤ 2 ^ w * 2 ^ width fs := Nat.mul_le_mul_left _ ih
      _ = 2 ^ width ((w, v) :: fs) := (Nat.pow_add 2 w (width fs)).symm

theorem pack_append_div (low high : List (ℕ × ℕ)) :
    pack (low ++ high) / 2 ^ width low = pack high := by
  induction low with
  | nil => exact Nat.div_one _
  | cons f low ih =>
    obtain ⟨w, v⟩ := f
    have hlow : (v % 2 ^ w + 2 ^ w * pack (low ++ high)) / 2 ^ w = pack (low ++ high) := by
      rw [Nat.add_mul_div_left _ _ (Nat.two_pow_pos w), Nat.div_eq_of_lt, Nat.zero_add]
      exact Nat.mod_lt _ (Nat.two_pow_pos w)
    rw [List.cons_append, pack, width, Nat.pow_add, ← Nat.div_div_eq_div_mul, hlow, ih]

theorem field_pack (low : List (ℕ × ℕ)) (w v : ℕ) (high : List (ℕ × ℕ)) :
    field (pack (low ++ (w, v) :: high)) (width low) w = v % 2 ^ w := by
  rw [field, pack_append_div, pack, Nat.add_mul_mod_self_left, Nat.mod_mod]

end NanoVNA.BitFields
