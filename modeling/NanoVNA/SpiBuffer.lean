import NanoVNA.ScreenColors
import Mathlib.Data.List.GetD
import Mathlib.Logic.Function.Basic

namespace NanoVNA.SpiBuffer

open NanoVNA.ScreenColors

/-- The bytes of `spi_buffer`, `buf_8` and `buf_16` of the file callbacks alike. -/
abbrev Memory := Nat → UInt8

def load16 (m : Memory) (index : Nat) : UInt16 := word (m (2 * index)) (m (2 * index + 1))

def store16 (m : Memory) (index : Nat) (v : UInt16) : Memory :=
  Function.update (Function.update m (2 * index) v.toUInt8) (2 * index + 1)
    (v >>> (8 : UInt16)).toUInt8

/-- The buffer after a read of `bytes` into its start. -/
def storeBytes (m : Memory) (bytes : List UInt8) : Memory := fun k => bytes.getD k (m k)

theorem load16_congr {m m' : Memory} {index : Nat} (h : ∀ k < 2 * index + 2, m k = m' k) :
    load16 m index = load16 m' index := by
  rw [load16, load16, h _ (by omega), h _ (by omega)]

theorem load16_store16 (m : Memory) (index : Nat) (v : UInt16) :
    load16 (store16 m index v) index = v := by
  rw [load16, store16, Function.update_self, Function.update_of_ne (Nat.succ_ne_self _).symm,
    Function.update_self]
  exact word_bytes v

theorem store16_of_ne (m : Memory) {index k : Nat} (v : UInt16) (h : k / 2 ≠ index) :
    store16 m index v k = m k := by
  rw [store16, Function.update_of_ne (by omega), Function.update_of_ne (by omega)]

theorem load16_store16_of_ne (m : Memory) {index other : Nat} (v : UInt16) (h : other ≠ index) :
    load16 (store16 m index v) other = load16 m other := by
  rw [load16, store16_of_ne m v (by omega), store16_of_ne m v (by omega), load16]

theorem storeBytes_of_lt (m : Memory) {bytes : List UInt8} {k : Nat} (h : k < bytes.length) :
    storeBytes m bytes k = bytes.getD k 0 := by
  rw [storeBytes, List.getD_eq_getElem _ _ h, List.getD_eq_getElem _ _ h]

theorem storeBytes_of_le (m : Memory) {bytes : List UInt8} {k : Nat} (h : bytes.length ≤ k) :
    storeBytes m bytes k = m k := by
  rw [storeBytes, List.getD_eq_default _ _ h]

theorem load16_storeBytes (m : Memory) {bytes : List UInt8} {index : Nat}
    (h : 2 * index + 1 < bytes.length) :
    load16 (storeBytes m bytes) index =
      word (bytes.getD (2 * index) 0) (bytes.getD (2 * index + 1) 0) := by
  rw [load16, storeBytes_of_lt m (Nat.lt_of_succ_lt h), storeBytes_of_lt m h]

end NanoVNA.SpiBuffer
