import NanoVNA.Si5351Groups
import NanoVNA.Si5351Ratios

namespace NanoVNA.Si5351Range

open NanoVNA.Word32 NanoVNA.BandStrategy NanoVNA.BandSelection NanoVNA.Si5351Registers
  NanoVNA.Si5351 NanoVNA.Si5351Chip NanoVNA.Si5351Ratios

variable {s : Setup} {f : Frequency} {driveStrength current : Nat} {p : Prepared}
  {wrap : Nat → Nat} {mult div num denom rdiv channel chctrl pllSource pllfreq freq k : Nat}

def usedDivider : Call → Divider
  | .setupPll _ mult num denom => dividerOf u32 mult num denom
  | .setupMultisynth _ div num denom _ _ =>
    if div = 4 then ⟨0, 0, 1⟩ else dividerOf u32 div num denom

def handedRatio : Call → ℚ
  | .setupPll _ mult num denom => mult + num / denom
  | .setupMultisynth _ div num denom _ _ => div + num / denom

def usesDivby4 : Call → Bool
  | .setupPll .. => false
  | .setupMultisynth _ div .. => div = 4

/-- The call writes fields of the format, and they decode to the ratio it was handed; the
divide-by-4 bits stand for the ratio 4. -/
structure Encoded (c : Call) : Prop where
  inFormat : (usedDivider c).InFormat
  ratio : decodeRatio (bytesOf c) = handedRatio c
  divby4 : decodeDivby4 (bytesOf c) = usesDivby4 c

theorem pll_encoded (h : RatioFits mult num denom) :
    Encoded (.setupPll pllSource mult num denom) where
  inFormat := dividerOf_inFormat h
  ratio := decodeRatio_dividerOf h (Nat.zero_mod 4)
  divby4 := decodeDivby4_bytes _ 0

theorem multisynthBytes_of_ne (hd : div ≠ 4) :
    multisynthBytes div num denom (k * 16) =
      dividerBytes (dividerOf u32 div num denom) (k * 4 * 4) := by
  rw [multisynthBytes, if_neg hd, show k * 16 = k * 4 * 4 by omega]

theorem multisynth_encoded (hd : div ≠ 4) (h : RatioFits div num denom) :
    Encoded (.setupMultisynth channel div num denom (k * 16) chctrl) where
  inFormat := by
    rw [usedDivider, if_neg hd]
    exact dividerOf_inFormat h
  ratio := by
    rw [bytesOf, multisynthBytes_of_ne hd]
    exact decodeRatio_dividerOf h (by omega)
  divby4 := by
    rw [bytesOf, multisynthBytes_of_ne hd, decodeDivby4_bytes, usesDivby4, decide_eq_decide]
    exact iff_of_false (by omega) hd

theorem multisynth_byFour : Encoded (.setupMultisynth channel 4 0 1 0 chctrl) where
  inFormat := ⟨Nat.two_pow_pos 18, Nat.two_pow_pos 20, Nat.one_lt_two_pow (by decide), Nat.one_pos⟩
  ratio := by
    rw [bytesOf, show multisynthBytes 4 0 1 0 = dividerBytes ⟨0, 0, 1⟩ (3 * 4) from rfl,
      decodeRatio, decodeDivby4_bytes]
    simp [handedRatio]
  divby4 := decodeDivby4_bytes ⟨0, 0, 1⟩ 3

theorem decodeRdiv_multisynthBytes (hd : div ≠ 4) :
    decodeRdiv (multisynthBytes div num denom (k * 16)) = 2 ^ (k % 8) := by
  rw [multisynthBytes_of_ne hd, decodeRdiv_bytes, show k * 4 / 4 = k by omega]

theorem ratioFits_integer (h : 4 ≤ mult) (h' : mult < 2052) : RatioFits mult 0 1 :=
  ⟨h, Nat.zero_le 1, Nat.one_pos, by decide, by omega⟩

theorem integer_encoded (h : div = 4 ∨ div = 6 ∨ div = 8) :
    Encoded (.setupMultisynth channel div 0 1 0 chctrl) := by
  obtain rfl | rfl | rfl := h
  · exact multisynth_byFour
  · exact multisynth_encoded (k := 0) (by decide) (ratioFits_integer (by decide) (by decide))
  · exact multisynth_encoded (k := 0) (by decide) (ratioFits_integer (by decide) (by decide))

theorem quotient_wrap (h : QuotientFits pllfreq freq) (hw : ∀ n < 2 ^ 32, wrap n = n) :
    wrap (pllfreq / freq) = pllfreq / freq := by
  apply hw
  have hlt : pllfreq / freq < 2052 := (Nat.div_lt_iff_lt_mul h.pos).mpr h.upper
  omega

theorem fixedpll_encoded (h : QuotientFits pllfreq freq) (h5 : 5 * freq ≤ pllfreq) :
    Encoded (si5351SetFrequencyFixedpll u32 channel pllfreq freq (k * 16) chctrl) := by
  have hfits := h.ratioFits
  have hq : 5 ≤ pllfreq / freq := (Nat.le_div_iff_mul_le h.pos).mpr h5
  simp only [si5351SetFrequencyFixedpll, quotient_wrap h fun n => u32_of_lt]
  exact multisynth_encoded (by omega) hfits

theorem fixedpll_wrap (h : QuotientFits pllfreq freq) (hw : ∀ n < 2 ^ 32, wrap n = n) :
    si5351SetFrequencyFixedpll wrap channel pllfreq freq rdiv chctrl =
      si5351SetFrequencyFixedpll u32 channel pllfreq freq rdiv chctrl := by
  simp only [si5351SetFrequencyFixedpll, quotient_wrap h hw, quotient_wrap h fun n => u32_of_lt,
    approximateFraction_wrap hw (Nat.mod_lt pllfreq h.pos) h.lt]

theorem setupPllFreq_encoded (h : QuotientFits pllfreq (s.xtalFreq * div)) :
    Encoded (si5351SetupPllFreq u32 s pllSource pllfreq div) := by
  have hfits := h.ratioFits
  simp only [si5351SetupPllFreq, u32_of_lt h.lt, quotient_wrap h fun n => u32_of_lt]
  exact pll_encoded hfits

theorem setupPllFreq_wrap (h : QuotientFits pllfreq (s.xtalFreq * div))
    (hw : ∀ n < 2 ^ 32, wrap n = n) :
    si5351SetupPllFreq wrap s pllSource pllfreq div =
      si5351SetupPllFreq u32 s pllSource pllfreq div := by
  simp only [si5351SetupPllFreq, u32_of_lt h.lt, hw _ h.lt, quotient_wrap h hw,
    quotient_wrap h fun n => u32_of_lt,
    approximateFraction_wrap hw (Nat.mod_lt pllfreq h.pos) h.lt]

def RatioInRange (s : Setup) (p : Prepared) : Prop :=
  (s.bandS.row p.band).mode = .fixedPll →
    s.xtalFreq * (s.bandS.row p.band).div < 2052 * p.freq

section FixedPll

variable (hb : FixedPllBounds s p)
include hb

theorem xtal_mul_le : s.xtalFreq * (s.bandS.row p.band).div ≤ 1120000000 := by
  have hdiv := hb.div_upper
  have hx := (xtal_mul_bounds s (s.bandS.row p.band).div).2
  omega

theorem quotient_ofreq : QuotientFits (s.xtalFreq * (s.bandS.row p.band).div) p.ofreq := by
  have hx := xtal_mul_le hb
  obtain ⟨_, _, hfreq, hle, hlo, hup⟩ := hb
  refine ⟨by omega, hup, by omega, ?_⟩
  omega

theorem quotient_freq (hf : s.xtalFreq * (s.bandS.row p.band).div < 2052 * p.freq) :
    QuotientFits (s.xtalFreq * (s.bandS.row p.band).div) p.freq := by
  have hx := xtal_mul_le hb
  obtain ⟨_, _, hfreq, hle, hlo, hup⟩ := hb
  refine ⟨by omega, hf, by omega, ?_⟩
  omega

end FixedPll

theorem quotient_codec (s : Setup) : QuotientFits (s.xtalFreq * pllN2) clk2Frequency := by
  have hlo := s.xtalFreq.2.1
  have hhi := s.xtalFreq.2.2
  constructor <;> simp only [pllN2, clk2Frequency] <;> omega

theorem xtal_codec_lt (s : Setup) : s.xtalFreq * pllN2 < 2 ^ 32 := by
  have hhi := s.xtalFreq.2.2
  simp only [pllN2]
  omega

section FixedMult

variable (hb : FixedMultBounds s p)
include hb

theorem quotient_pllA :
    QuotientFits (p.ofreq * (s.bandS.row p.band).div) (s.xtalFreq * (s.bandS.row p.band).omul) := by
  obtain ⟨hx, hx'⟩ := xtal_mul_bounds s (s.bandS.row p.band).omul
  obtain ⟨_, _, _, hpos, hle, _, _, hup, _, _, hlo⟩ := hb
  constructor <;> omega

theorem quotient_pllB :
    QuotientFits (p.freq * (s.bandS.row p.band).div) (s.xtalFreq * (s.bandS.row p.band).mul) := by
  obtain ⟨hx, hx'⟩ := xtal_mul_bounds s (s.bandS.row p.band).mul
  obtain ⟨_, hpos, hle, _, _, _, hof, hup, _, hlo, _⟩ := hb
  have hmul := Nat.mul_le_mul_right (s.bandS.row p.band).div hof
  constructor <;> omega

theorem quotient_mult_codec :
    QuotientFits (p.freq * (s.bandS.row p.band).div) (clk2Frequency * (s.bandS.row p.band).mul) := by
  obtain ⟨_, hpos, hle, _, _, _, _, _, hup, hlo, _⟩ := hb
  simp only [clk2Frequency] at *
  constructor <;> omega

end FixedMult

end NanoVNA.Si5351Range
