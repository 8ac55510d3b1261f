import Mathlib.Algebra.Order.Archimedean.Basic
import Mathlib.Algebra.Order.Floor.Ring
import Mathlib.Tactic.Linarith

namespace NanoVNA.Truncation

variable {K : Type} [Field K] [LinearOrder K] [IsStrictOrderedRing K] [FloorRing K]

/-- The conversion to an integer drops the fraction. -/
def truncate (v : K) : Int := if 0 ≤ v then ⌊v⌋ else ⌈v⌉

theorem le_truncate {v : K} {n : Int} (hn : 1 ≤ n) : n ≤ truncate v ↔ (n : K) ≤ v := by
  unfold truncate
  split_ifs with hv
  · exact Int.le_floor
  · have hceil : ⌈v⌉ ≤ 0 := Int.ceil_le.mpr (by push_cast; linarith)
    have hn' : (1 : K) ≤ n := by exact_mod_cast hn
    exact ⟨fun h => by omega, fun h => by linarith⟩

theorem truncate_le {v : K} {n : Int} (hn : n ≤ -1) : truncate v ≤ n ↔ v ≤ n := by
  unfold truncate
  split_ifs with hv
  · have hfloor : 0 ≤ ⌊v⌋ := Int.floor_nonneg.mpr hv
    have hn' : (n : K) ≤ -1 := by exact_mod_cast hn
    exact ⟨fun h => by omega, fun h => by linarith⟩
  · exact Int.ceil_le

theorem le_abs_truncate {v : K} {n : Int} (hn : 1 ≤ n) (h : (n : K) ≤ |v|) : n ≤ |truncate v| := by
  obtain hpos | hneg := le_abs.mp h
  · exact le_abs.mpr (Or.inl ((le_truncate hn).mpr hpos))
  · have hle : v ≤ ((-n : Int) : K) := by
      push_cast
      linarith
    exact le_abs.mpr (Or.inr (le_neg.mpr ((truncate_le (by omega)).mpr hle)))

theorem abs_truncate_le (v : K) : |(truncate v : K)| ≤ |v| := by
  unfold truncate
  split_ifs with hv
  · have hfloor : (0 : K) ≤ ⌊v⌋ := by exact_mod_cast Int.floor_nonneg.mpr hv
    rw [abs_of_nonneg hfloor, abs_of_nonneg hv]
    exact Int.floor_le v
  · have hneg : v < 0 := not_le.mp hv
    have hceil : (⌈v⌉ : K) ≤ 0 := by exact_mod_cast Int.ceil_le.mpr (by push_cast; exact hneg.le)
    rw [abs_of_nonpos hceil, abs_of_neg hneg]
    linarith [Int.le_ceil v]

end NanoVNA.Truncation
