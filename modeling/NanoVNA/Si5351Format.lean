import NanoVNA.Si5351Range

namespace NanoVNA.Si5351Format

open NanoVNA.Word32 NanoVNA.DeviceState NanoVNA.BandStrategy NanoVNA.BandSelection
  NanoVNA.Si5351Registers NanoVNA.Si5351 NanoVNA.Si5351Chip NanoVNA.Si5351Ratios
  NanoVNA.Si5351Range

variable {s : Setup} {f : Frequency} {driveStrength current : Nat} {p : Prepared}
  {wrap : Nat → Nat} {c : Call}

section FixedPll

variable (h : Selected s f driveStrength p) (hband : p.band = 1 ∨ p.band = 2)
include h hband

theorem fixedPllCalls_eq (hf : s.xtalFreq * (s.bandS.row p.band).div < 2052 * p.freq)
    (hw : ∀ n < 2 ^ 32, wrap n = n) :
    fixedPllCalls wrap s current p = fixedPllCalls u32 s current p := by
  obtain ⟨_, hmul, homul⟩ := row_fixedPll s.bandS hband
  have hb := fixedPll_bounds h hband
  simp only [fixedPllCalls, hmul, homul, Nat.one_mul, hw _ (xtal_codec_lt s),
    u32_of_lt (xtal_codec_lt s), fixedpll_wrap (quotient_codec s) hw,
    fixedpll_wrap (quotient_ofreq hb) hw, fixedpll_wrap (quotient_freq hb hf) hw]

theorem fixedPllCalls_encoded (hf : s.xtalFreq * (s.bandS.row p.band).div < 2052 * p.freq)
    (hc : c ∈ fixedPllCalls u32 s current p) : Encoded c := by
  obtain ⟨_, hmul, homul⟩ := row_fixedPll s.bandS hband
  have hb := fixedPll_bounds h hband
  obtain ⟨k, _, hk, _⟩ := h.scale
  have hdiv := hb.div_lower
  have hdiv' := hb.div_upper
  have hlo := hb.lower
  have hle := hb.freq_le
  have hx := s.xtalFreq.2.1
  have hcodec : Encoded (si5351SetFrequencyFixedpll u32 audioCodecChannel (s.xtalFreq * pllN2)
      clk2Frequency 0 (driveStrength2ma ||| clkPllSelectB)) :=
    fixedpll_encoded (k := 0) (quotient_codec s) (by simp only [pllN2, clk2Frequency]; omega)
  simp only [fixedPllCalls, hmul, homul, Nat.one_mul, u32_of_lt (xtal_codec_lt s), hk,
    List.mem_append, List.mem_ite_nil_right, List.mem_cons, List.not_mem_nil, or_false] at hc
  obtain ⟨_, rfl | rfl | rfl⟩ | rfl | rfl := hc
  · exact pll_encoded (ratioFits_integer (by omega) (by omega))
  · exact pll_encoded (ratioFits_integer (by decide) (by decide))
  · exact hcodec
  · exact fixedpll_encoded (quotient_ofreq hb) (by omega)
  · exact fixedpll_encoded (quotient_freq hb hf) (by omega)

end FixedPll

section FixedMult

variable (h : Selected s f driveStrength p) (hband : 3 ≤ p.band)
include h hband

theorem fixedMultCalls_eq (hw : ∀ n < 2 ^ 32, wrap n = n) :
    fixedMultCalls wrap s current p = fixedMultCalls u32 s current p := by
  have hb := fixedMult_bounds h hband
  have hc := quotient_mult_codec hb
  simp only [fixedMultCalls, setupPllFreq_wrap (quotient_pllA hb) hw,
    setupPllFreq_wrap (quotient_pllB hb) hw, hw _ hc.lt, u32_of_lt hc.lt, fixedpll_wrap hc hw]

theorem fixedMultCalls_encoded (hc : c ∈ fixedMultCalls u32 s current p) : Encoded c := by
  have hb := fixedMult_bounds h hband
  have hq := quotient_mult_codec hb
  have hlo := hb.lower
  have hcodec : Encoded (si5351SetFrequencyFixedpll u32 audioCodecChannel
      (p.freq * (s.bandS.row p.band).div) (clk2Frequency * (s.bandS.row p.band).mul) 0
      (driveStrength2ma ||| clkPllSelectB)) :=
    fixedpll_encoded (k := 0) hq (by simp only [clk2Frequency]; omega)
  simp only [fixedMultCalls, u32_of_lt hq.lt, List.mem_append, List.mem_ite_nil_right,
    List.mem_cons, List.not_mem_nil, or_false] at hc
  obtain ((rfl | rfl) | ⟨_, rfl | rfl⟩) | rfl := hc
  · exact setupPllFreq_encoded (quotient_pllA hb)
  · exact setupPllFreq_encoded (quotient_pllB hb)
  · exact integer_encoded hb.div_eq
  · exact integer_encoded hb.div_eq
  · exact hcodec

end FixedMult

theorem le_dividerOf_p1 {mult num denom : Nat} (hlo : 2052 ≤ mult) (hhi : mult < 2 ^ 20)
    (hnum : num ≤ denom) (hdenom : denom < 2 ^ 20) :
    2 ^ 18 ≤ (dividerOf u32 mult num denom).p1 := by
  have hq : num * 128 / denom ≤ 128 := by
    apply Nat.div_le_of_le_mul
    rw [Nat.mul_comm denom]
    omega
  have hm : u32 (mult * 128) = mult * 128 := u32_of_lt (by omega)
  have hn : u32 (num * 128) = num * 128 := u32_of_lt (by omega)
  have hs : sub32 (mult * 128) 512 = mult * 128 - 512 := sub32_of_le (by omega) (by omega)
  have hu : u32 (mult * 128 - 512 + num * 128 / denom) = mult * 128 - 512 + num * 128 / denom :=
    u32_of_lt (by omega)
  simp only [dividerOf, hm, hn, hs]
  split
  · rw [hu]
    exact Nat.le_trans (by omega) (Nat.le_add_right _ _)
  · dsimp only
    omega

theorem fixedpll_not_encoded {channel pllfreq freq rdiv chctrl : Nat} (hlo : 2052 * freq ≤ pllfreq)
    (hhi : pllfreq ≤ 1120000000) (hfreq : 76800 ≤ freq) :
    ¬ Encoded (si5351SetFrequencyFixedpll u32 channel pllfreq freq rdiv chctrl) := by
  intro henc
  have hpos : 0 < freq := Nat.lt_of_lt_of_le (by decide) hfreq
  have hq : 2052 ≤ pllfreq / freq := (Nat.le_div_iff_mul_le hpos).mpr hlo
  have hq' : pllfreq / freq < 2 ^ 20 := by
    rw [Nat.div_lt_iff_lt_mul hpos]
    omega
  have happrox := approximateFraction_spec (Nat.mod_lt pllfreq hpos) (by omega)
  have hp1 := henc.inFormat.p1_lt
  have hne : pllfreq / freq ≠ 4 := by omega
  simp only [si5351SetFrequencyFixedpll, u32_of_lt (show pllfreq / freq < 2 ^ 32 by omega),
    usedDivider, if_neg hne] at hp1
  have hge := le_dividerOf_p1 hq hq' happrox.num_le happrox.denom_lt
  omega

/-- Whatever band the chip comes from, every divider a request programs is in the format, decodes
to the ratio it was handed, and was computed without a 32-bit overflow. -/
def Formats (s : Setup) (p : Prepared) : Prop :=
  ∀ current, (∀ wrap : Nat → Nat, (∀ n < 2 ^ 32, wrap n = n) →
      programCalls wrap s current p = programCalls u32 s current p) ∧
    ∀ c ∈ programCalls u32 s current p, Encoded c

theorem formats_of_ratioInRange (h : Selected s f driveStrength p) (hr : RatioInRange s p) :
    Formats s p := by
  intro current
  cases h.band_range with
  | inl hband =>
    have hmode := (row_fixedPll s.bandS hband).1
    simp only [programCalls, hmode]
    exact ⟨fun wrap hw => fixedPllCalls_eq h hband (hr hmode) hw,
      fun c hc => fixedPllCalls_encoded h hband (hr hmode) hc⟩
  | inr hband =>
    have hmode := (row_fixedMult s.bandS p.band hband.2 hband.1).1
    simp only [programCalls, hmode]
    exact ⟨fun wrap hw => fixedMultCalls_eq h hband.1 hw,
      fun c hc => fixedMultCalls_encoded h hband.1 hc⟩

theorem ratioInRange_of_formats (h : Selected s f driveStrength p) (hform : Formats s p) :
    RatioInRange s p := by
  intro hmode
  apply Nat.lt_of_not_le
  intro hlo
  have hband := h.band_fixedPll hmode
  have hb := fixedPll_bounds h hband
  have hmul := (row_fixedPll s.bandS hband).2.1
  have henc := (hform p.band).2 (si5351SetFrequencyFixedpll u32 freqChannel
    ((s.bandS.row p.band).mul * s.xtalFreq * (s.bandS.row p.band).div) p.freq p.rdiv
    (driveOf p.driveStrength (s.bandS.row p.band).pow ||| clkPllSelectA)) (by
      simp [programCalls, hmode, fixedPllCalls])
  rw [hmul, Nat.one_mul] at henc
  exact fixedpll_not_encoded hlo (xtal_mul_le hb) hb.freq_lower henc

/-- Some row reaches the frequency, and below 1 MHz the fixed PLL is less than 2052 times the
scaled frequency. -/
def LowEndFits (s : Setup) (freq : Nat) : Prop :=
  Reached s freq ∧
    (freq < (s.bandS.row 1).freq → s.xtalFreq * (s.bandS.row 1).div < 2052 * (freq * 128)) ∧
    ((s.bandS.row 1).freq ≤ freq → freq ≤ 1000000 →
      s.xtalFreq * (s.bandS.row 2).div < 2052 * (freq * 16))

instance (s : Setup) (freq : Nat) : Decidable (LowEndFits s freq) :=
  inferInstanceAs (Decidable (_ ∧ _ ∧ _))

theorem lowEndFits_of_high {freq : Nat} (hr : Reached s freq) (hhigh : 1000000 < freq) :
    LowEndFits s freq := by
  have hrow := row_one_le s.bandS
  exact ⟨hr, fun hlt => by omega, fun _ hle => by omega⟩

theorem ratioInRange_iff (h : Selected s f driveStrength p) (hr : Reached s f) :
    RatioInRange s p ↔ LowEndFits s f := by
  have hrow := row_one_le s.bandS
  cases h with
  | lowest hlt =>
    have hmode := (row_fixedPll s.bandS (.inl rfl)).1
    exact ⟨fun hin => ⟨hr, fun _ => hin hmode, fun hge => absurd hlt (by omega)⟩,
      fun hlow _ => hlow.2.1 hlt⟩
  | low hge hle =>
    have hmode := (row_fixedPll s.bandS (.inr rfl)).1
    exact ⟨fun hin => ⟨hr, fun hlt => absurd hge (by omega), fun _ _ => hin hmode⟩,
      fun hlow _ => hlow.2.2 hge hle⟩
  | direct hgt hband =>
    refine iff_of_true (fun hmode => ?_) (lowEndFits_of_high hr hgt)
    have hsel : Selected s f driveStrength _ := .direct hgt hband
    have hx := xtal_mul_le (fixedPll_bounds hsel (hsel.band_fixedPll hmode))
    dsimp only at hx ⊢
    omega

/-- A request is programmed within the format exactly when its low end fits. -/
theorem prepared_formats_iff (s : Setup) (f : Frequency) (driveStrength : Nat) :
    (∃ p, prepare s f driveStrength = some p ∧ Selected s f driveStrength p ∧ Formats s p) ↔
      LowEndFits s f := by
  constructor
  · rintro ⟨p, hp, hsel, hform⟩
    have hr : Reached s f := by
      rw [← prepare_isSome_iff s f driveStrength, hp]
      rfl
    exact (ratioInRange_iff hsel hr).mp (ratioInRange_of_formats hsel hform)
  · intro hlow
    have hsome := (prepare_isSome_iff s f driveStrength).mpr hlow.1
    obtain ⟨p, hp⟩ := Option.isSome_iff_exists.mp hsome
    have hsel := selected_of_prepare f hp
    exact ⟨p, hp, hsel, formats_of_ratioInRange hsel ((ratioInRange_iff hsel hlow.1).mpr hlow)⟩

/-- At the lowest frequency the ratio of CLK1 is 2708. -/
theorem lowest_frequency_not_formatted :
    ¬ ∃ p, prepare factorySetup 600 3 = some p ∧ Selected factorySetup 600 3 p ∧
      Formats factorySetup p := by
  rintro ⟨p, hp, hsel, hform⟩
  have hin : RatioInRange factorySetup p :=
    ratioInRange_of_formats (f := ⟨600, by decide, by decide⟩) hsel hform
  obtain rfl : ⟨1, 76800, 1612800, 112, 0⟩ = p := Option.some.inj hp
  exact absurd (hin rfl) (by decide)

end NanoVNA.Si5351Format
