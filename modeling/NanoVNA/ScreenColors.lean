import Mathlib.Tactic.IntervalCases

namespace NanoVNA.ScreenColors

/-- `RGB565`, with the bytes of the pixel in the order of the display. -/
def rgb565 (r g b : UInt8) : UInt16 :=
  ((g.toUInt16 &&& (0x1c : UInt16)) <<< (11 : UInt16)) |||
    ((b.toUInt16 &&& (0xf8 : UInt16)) <<< (5 : UInt16)) ||| (r.toUInt16 &&& (0xf8 : UInt16)) |||
    ((g.toUInt16 &&& (0xe0 : UInt16)) >>> (5 : UInt16))

/-- The pixel with its bytes swapped, `color` of `save_tiff`. -/
def colorOf (pixel : UInt16) : UInt16 := (pixel <<< (8 : UInt16)) ||| (pixel >>> (8 : UInt16))

def redOf (pixel : UInt16) : UInt8 := (colorOf pixel >>> (8 : UInt16)).toUInt8 &&& (0xF8 : UInt8)

def greenOf (pixel : UInt16) : UInt8 := (colorOf pixel >>> (3 : UInt16)).toUInt8 &&& (0xFC : UInt8)

def blueOf (pixel : UInt16) : UInt8 := (colorOf pixel <<< (3 : UInt16)).toUInt8 &&& (0xF8 : UInt8)

def word (low high : UInt8) : UInt16 := low.toUInt16 ||| (high.toUInt16 <<< (8 : UInt16))

section Bits

theorem bits_three : (3 : UInt16).toBitVec % 16 = 3#16 := rfl

theorem bits_five : (5 : UInt16).toBitVec % 16 = 5#16 := rfl

theorem bits_eight : (8 : UInt16).toBitVec % 16 = 8#16 := rfl

theorem bits_eleven : (11 : UInt16).toBitVec % 16 = 11#16 := rfl

theorem rgb565_expanded (pixel : UInt16) :
    rgb565 (redOf pixel) (greenOf pixel) (blueOf pixel) = pixel := by
  apply UInt16.toBitVec_inj.mp
  simp only [rgb565, redOf, greenOf, blueOf, colorOf, UInt16.toBitVec_or, UInt16.toBitVec_and,
    UInt16.toBitVec_shiftLeft, UInt16.toBitVec_shiftRight, UInt8.toBitVec_and,
    UInt16.toBitVec_toUInt8, UInt8.toBitVec_toUInt16, bits_three, bits_five, bits_eight,
    bits_eleven]
  generalize pixel.toBitVec = v
  apply BitVec.eq_of_getLsbD_eq
  intro i hi
  simp only [BitVec.getLsbD_or, BitVec.getLsbD_and, BitVec.shiftLeft_eq', BitVec.ushiftRight_eq',
    BitVec.getLsbD_shiftLeft, BitVec.getLsbD_ushiftRight, BitVec.getLsbD_setWidth]
  interval_cases i <;> simp

theorem word_bytes (v : UInt16) : word v.toUInt8 (v >>> (8 : UInt16)).toUInt8 = v := by
  apply UInt16.toBitVec_inj.mp
  simp only [word, UInt16.toBitVec_or, UInt16.toBitVec_shiftLeft, UInt16.toBitVec_shiftRight,
    UInt16.toBitVec_toUInt8, UInt8.toBitVec_toUInt16, bits_eight]
  generalize v.toBitVec = v
  apply BitVec.eq_of_getLsbD_eq
  intro i hi
  simp only [BitVec.getLsbD_or, BitVec.shiftLeft_eq', BitVec.ushiftRight_eq',
    BitVec.getLsbD_shiftLeft, BitVec.getLsbD_ushiftRight, BitVec.getLsbD_setWidth]
  interval_cases i <;> simp

end Bits

end NanoVNA.ScreenColors
