import NanoVNA.Si5351Format

namespace NanoVNA.Si5351Encoding

open NanoVNA.Word32 NanoVNA.DeviceState NanoVNA.BandStrategy NanoVNA.BandSelection
  NanoVNA.Si5351Registers NanoVNA.Si5351 NanoVNA.Si5351Chip NanoVNA.Si5351Groups
  NanoVNA.Si5351Ratios NanoVNA.Si5351Range NanoVNA.Si5351Format

variable {s : Setup} {f : Frequency} {driveStrength : Nat} {p : Prepared}
  {n d div channel chctrl k pllSource : Nat}

def ClkOn (clk : Nat) : Prop := clk / 128 % 2 = 0 ∧ clk / 4 % 4 = 3

def selectedPll (pll : PllGroup) (clk : Nat) : ℚ :=
  decodeRatio (if clk / 32 % 2 = 0 then pll.pllA else pll.pllB)

def outputFrequency (xtal : Nat) (pll : PllGroup) (ms : List Nat) (clk : Nat) : ℚ :=
  xtal * selectedPll pll clk / (decodeRatio ms * decodeRdiv ms)

def Near (x : ℚ) (freq : Nat) : Prop := |x - freq| * 2 ^ 22 ≤ freq

/-- The registers make the frequency on CLK1 and the offset one on CLK0, each divided by its
harmonic number in the row. -/
structure Encodes (s : Setup) (b : Band) (pll : PllGroup) (out : OutGroup) (freq : Nat) : Prop where
  clk0_on : ClkOn out.clk0
  clk1_on : ClkOn out.clk1
  clk0 : Near (b.omul * outputFrequency s.xtalFreq pll out.ms0 out.clk0) (freq + s.ifOffset)
  clk1 : Near (b.mul * outputFrequency s.xtalFreq pll out.ms1 out.clk1) freq

def EncodesFrequency (s : Setup) (r : Registers) (freq : Nat) : Prop :=
  ∃ p, prepare s freq 0 = some p ∧
    Encodes s (s.bandS.row p.band) (pllGroup r) (outGroup r) freq

theorem near_unique {x : ℚ} {freq freq' : Nat} (h : Near x freq) (h' : Near x freq') :
    4194303 * freq ≤ 4194305 * freq' := by
  obtain ⟨_, h2⟩ := abs_le.mp ((le_div_iff₀ (by norm_num)).mpr h)
  obtain ⟨h3, h4⟩ := abs_le.mp ((le_div_iff₀ (by norm_num)).mpr h')
  have hq : (4194303 * freq : ℚ) ≤ 4194305 * freq' := by
    norm_num at *
    linarith
  exact_mod_cast hq

def setRatio (n d : Nat) : ℚ :=
  (n / d : Nat) + (approximateFraction u32 (n % d) d).1 / (approximateFraction u32 (n % d) d).2

theorem setRatio_error (h : QuotientFits n d) : |(n : ℚ) / d - setRatio n d| ≤ 1 / 2 ^ 20 := by
  have hpos : (0 : ℚ) < d := by exact_mod_cast h.pos
  have herr := (approximateFraction_spec (Nat.mod_lt n h.pos) h.lt).error
  have hdm : (d * (n / d : Nat) + (n % d : Nat) : ℚ) = n := by exact_mod_cast Nat.div_add_mod n d
  have hsplit : (n : ℚ) / d = (n / d : Nat) + (n % d : Nat) / d := by
    rw [← hdm]
    field_simp
  rw [hsplit, setRatio, add_sub_add_left_eq_sub]
  exact herr

theorem four_le_setRatio (h : QuotientFits n d) : 4 ≤ setRatio n d := by
  have hq : (4 : ℚ) ≤ (n / d : Nat) := by exact_mod_cast (Nat.le_div_iff_mul_le h.pos).mpr h.lower
  have hfrac : (0 : ℚ) ≤ (approximateFraction u32 (n % d) d).1 /
      (approximateFraction u32 (n % d) d).2 := by positivity
  rw [setRatio]
  linarith

theorem near_of_ratio {a b : ℚ} (freq : Nat) (hb : 4 ≤ b) (h : |a - b| ≤ 1 / 2 ^ 20) :
    Near (freq * (a / b)) freq := by
  have hpos : 0 < b := by linarith
  have hf : (0 : ℚ) ≤ freq := Nat.cast_nonneg freq
  have hdiff : freq * (a / b) - freq = freq * ((a - b) / b) := by
    field_simp
  have hquot : |a - b| / b ≤ 1 / 2 ^ 22 := by
    rw [div_le_iff₀ hpos]
    linarith
  rw [Near, hdiff, abs_mul, abs_div, abs_of_pos hpos, Nat.abs_cast]
  have hle := mul_le_mul_of_nonneg_left hquot hf
  linarith

theorem selectedPll_ratio (h : QuotientFits n (s.xtalFreq * div)) :
    decodeRatio (bytesOf (si5351SetupPllFreq u32 s pllSource n div)) =
      setRatio n (s.xtalFreq * div) := by
  rw [(setupPllFreq_encoded h).ratio]
  simp only [si5351SetupPllFreq, handedRatio, u32_of_lt h.lt, quotient_wrap h fun n => u32_of_lt]
  rfl

theorem fixedpll_ratio (h : QuotientFits n d) (h5 : 5 * d ≤ n) :
    decodeRatio (bytesOf (si5351SetFrequencyFixedpll u32 channel n d (k * 16) chctrl)) =
        setRatio n d ∧
      decodeRdiv (bytesOf (si5351SetFrequencyFixedpll u32 channel n d (k * 16) chctrl)) =
        2 ^ (k % 8) := by
  have hq : 5 ≤ n / d := (Nat.le_div_iff_mul_le h.pos).mpr h5
  have henc : Encoded (si5351SetFrequencyFixedpll u32 channel n d (k * 16) chctrl) :=
    fixedpll_encoded h h5
  rw [henc.ratio]
  simp only [si5351SetFrequencyFixedpll, handedRatio, bytesOf, quotient_wrap h fun n => u32_of_lt]
  exact ⟨rfl, decodeRdiv_multisynthBytes (by omega)⟩

theorem near_fixedPll {xtal freq j : Nat} (hq : QuotientFits (xtal * div) (freq * 2 ^ j)) :
    Near (xtal * div / (setRatio (xtal * div) (freq * 2 ^ j) * 2 ^ j)) freq := by
  have hpos : (0 : ℚ) < freq * 2 ^ j := by exact_mod_cast hq.pos
  have hratio := four_le_setRatio hq
  have hne : setRatio (xtal * div) (freq * 2 ^ j) ≠ 0 := by linarith
  have hx : (xtal * div : ℚ) / (setRatio (xtal * div) (freq * 2 ^ j) * 2 ^ j) =
      freq * (((xtal * div : Nat) : ℚ) / ((freq * 2 ^ j : Nat) : ℚ) /
        setRatio (xtal * div) (freq * 2 ^ j)) := by
    push_cast
    have hf : (freq : ℚ) ≠ 0 := fun h => by simp [h] at hpos
    field_simp
  rw [hx]
  exact near_of_ratio freq hratio (setRatio_error hq)

theorem near_fixedMult {xtal mul freq : Nat} (hx : 0 < xtal)
    (hq : QuotientFits (freq * div) (xtal * mul)) :
    Near (mul * (xtal * setRatio (freq * div) (xtal * mul) / div)) freq := by
  have hpos : (0 : ℚ) < xtal * mul := by exact_mod_cast hq.pos
  have hnum : (0 : ℚ) < freq * div := by
    have := hq.lower
    have := hq.pos
    exact_mod_cast (show 0 < freq * div by omega)
  have hfour : (4 : ℚ) ≤ ((freq * div : Nat) : ℚ) / ((xtal * mul : Nat) : ℚ) := by
    rw [le_div_iff₀ (by exact_mod_cast hq.pos)]
    exact_mod_cast hq.lower
  have hmul : (mul : ℚ) * (xtal * setRatio (freq * div) (xtal * mul) / div) =
      freq * (setRatio (freq * div) (xtal * mul) /
        (((freq * div : Nat) : ℚ) / ((xtal * mul : Nat) : ℚ))) := by
    push_cast
    have hf : (freq : ℚ) ≠ 0 := fun h => by simp [h] at hnum
    have hd : (div : ℚ) ≠ 0 := fun h => by simp [h] at hnum
    field_simp
  rw [hmul]
  apply near_of_ratio freq hfour
  rw [abs_sub_comm]
  exact setRatio_error hq

end NanoVNA.Si5351Encoding
