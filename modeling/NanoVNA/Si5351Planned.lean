import NanoVNA.Si5351Encoding

namespace NanoVNA.Si5351Planned

open NanoVNA.Word32 NanoVNA.DeviceState NanoVNA.BandStrategy NanoVNA.BandSelection
  NanoVNA.Si5351Registers NanoVNA.Si5351 NanoVNA.Si5351Chip NanoVNA.Si5351Groups
  NanoVNA.Si5351Ratios NanoVNA.Si5351Range NanoVNA.Si5351Format NanoVNA.Si5351Encoding

variable {s t : Setup} {f : Frequency} {driveStrength : Nat} {p q : Prepared} {b : Band}

theorem row_div_ne {t : BandTable} {band : Nat} (h : (t.row band).mode ≠ .none) :
    band ≠ 0 ∧ (t.row band).div ≠ 0 ∧ (t.row band).pow ≤ 3 ∧ (t.row band).opow ≤ 3 := by
  have hall : ∀ t : BandTable, ∀ band < t.rows.length, (t.row band).mode ≠ .none →
      band ≠ 0 ∧ (t.row band).div ≠ 0 ∧ (t.row band).pow ≤ 3 ∧ (t.row band).opow ≤ 3 := by
    intro t
    cases t <;> decide
  by_cases hlt : band < t.rows.length
  · exact hall t band hlt h
  · exact absurd (by rw [BandTable.row, List.getD_eq_default _ _ (Nat.not_lt.mp hlt)]) h

theorem usable_of_mode (h : (s.bandS.row p.band).mode ≠ .none) : Usable s p :=
  ⟨(row_div_ne h).1, h, (row_div_ne h).2.1⟩

theorem driveOf_le {driveStrength automatic : Nat} (h : automatic ≤ 3) :
    driveOf driveStrength automatic ≤ 3 := by
  unfold driveOf driveStrength8ma
  split
  · exact h
  · omega

theorem clkControl_bits {drive : Nat} (hdrive : drive ≤ 3) (div num : Nat) {pllSelect : Nat}
    (hpll : pllSelect = clkPllSelectA ∨ pllSelect = clkPllSelectB) :
    ClkOn (clkControl div num (drive ||| pllSelect)) ∧
      clkControl div num (drive ||| pllSelect) / 32 % 2 = pllSelect / 32 ∧
      clkControl div num (drive ||| pllSelect) % 4 = drive := by
  have hall : ∀ drive < 4, ∀ pllSelect ∈ [clkPllSelectA, clkPllSelectB],
      ∀ byte ∈ [drive ||| pllSelect ||| clkInputMultisynthN,
        drive ||| pllSelect ||| clkInputMultisynthN ||| clkIntegerMode],
      (byte / 128 % 2 = 0 ∧ byte / 4 % 4 = 3) ∧ byte / 32 % 2 = pllSelect / 32 ∧
        byte % 4 = drive := by decide
  refine hall drive (by omega) pllSelect (by simpa using hpll) _ ?_
  unfold clkControl
  dsimp only
  generalize (if div = 4 then num else u32 (num * 128)) = fraction
  by_cases hz : fraction = 0
  · simp [hz]
  · simp [hz]

def dividedCall (s : Setup) (p : Prepared) (channel mul freq automatic : Nat) : Call :=
  si5351SetFrequencyFixedpll u32 channel (mul * s.xtalFreq * (s.bandS.row p.band).div) freq p.rdiv
    (driveOf p.driveStrength automatic ||| clkPllSelectA)

theorem control_divided {automatic : Nat} (h : automatic ≤ 3) (channel mul freq : Nat) :
    ClkOn (controlOf channel 0 (dividedCall s p channel mul freq automatic)) ∧
      controlOf channel 0 (dividedCall s p channel mul freq automatic) / 32 % 2 = 0 := by
  rw [dividedCall, si5351SetFrequencyFixedpll, controlOf_setupMultisynth, if_pos rfl]
  obtain ⟨hon, hpll, _⟩ := clkControl_bits (driveOf_le h) _ _ (.inl rfl)
  exact ⟨hon, hpll⟩

theorem selectedPll_of_A {pll : PllGroup} {clk : Nat} (h : clk / 32 % 2 = clkPllSelectA / 32) :
    selectedPll pll clk = decodeRatio pll.pllA := by
  have heq : clk / 32 % 2 = 0 := h
  rw [selectedPll, if_pos heq]

theorem selectedPll_of_B {pll : PllGroup} {clk : Nat} (h : clk / 32 % 2 = clkPllSelectB / 32) :
    selectedPll pll clk = decodeRatio pll.pllB := by
  have hne : clk / 32 % 2 ≠ 0 := by
    rw [h]
    decide
  rw [selectedPll, if_neg hne]

section FixedPll

variable (hmode : (s.bandS.row p.band).mode = .fixedPll)
include hmode

theorem plannedPll_fixedPll :
    (plannedPll s p).pllA = bytesOf (.setupPll regPllA (s.bandS.row p.band).div 0 1) := by
  have hband := (row_div_ne (hmode ▸ (by decide) : (s.bandS.row p.band).mode ≠ .none)).1.symm
  simp [plannedPll, PllGroup.after, fullCalls, programCalls, hmode, fixedPllCalls, hband, lastBytes,
    si5351SetFrequencyFixedpll, msregBase, regPllA, regPllB, ofreqChannel, freqChannel,
    audioCodecChannel]

theorem plannedPll_of_band (hband : q.band = p.band) : plannedPll s q = plannedPll s p := by
  have hne := (row_div_ne (hmode ▸ (by decide) : (s.bandS.row p.band).mode ≠ .none)).1.symm
  simp [plannedPll, PllGroup.after, fullCalls, programCalls, hband, hmode, fixedPllCalls, hne,
    lastBytes, lastControl, si5351SetFrequencyFixedpll, msregBase, regPllA, regPllB, ofreqChannel,
    freqChannel, audioCodecChannel]

theorem plannedOut_fixedPll :
    let c0 := dividedCall s p ofreqChannel (s.bandS.row p.band).omul p.ofreq (s.bandS.row p.band).opow
    let c1 := dividedCall s p freqChannel (s.bandS.row p.band).mul p.freq (s.bandS.row p.band).pow
    plannedOut s p = ⟨bytesOf c0, bytesOf c1, controlOf ofreqChannel 0 c0,
      controlOf freqChannel 0 c1⟩ := by
  have hband := (row_div_ne (hmode ▸ (by decide) : (s.bandS.row p.band).mode ≠ .none)).1.symm
  simp [plannedOut, OutGroup.after, fullCalls, programCalls, hmode, fixedPllCalls, hband, lastBytes,
    lastControl, si5351SetFrequencyFixedpll, msregBase, regPllA, regPllB, ofreqChannel,
    freqChannel, audioCodecChannel, dividedCall]

end FixedPll

section FixedMult

variable (hmode : (s.bandS.row p.band).mode = .fixedMult)
include hmode

theorem plannedPll_fixedMult :
    (plannedPll s p).pllA = bytesOf (si5351SetupPllFreq u32 s regPllA
        (p.ofreq * (s.bandS.row p.band).div) (s.bandS.row p.band).omul) ∧
      (plannedPll s p).pllB = bytesOf (si5351SetupPllFreq u32 s regPllB
        (p.freq * (s.bandS.row p.band).div) (s.bandS.row p.band).mul) := by
  have hdiv := (row_div_ne (hmode ▸ (by decide) : (s.bandS.row p.band).mode ≠ .none)).2.1.symm
  simp [plannedPll, PllGroup.after, fullCalls, programCalls, hmode, fixedMultCalls, row_zero_div,
    hdiv, lastBytes, si5351SetFrequencyFixedpll, msregBase, regPllA, regPllB, ofreqChannel,
    freqChannel, audioCodecChannel]

theorem plannedOut_fixedMult :
    plannedOut s p = ⟨multisynthBytes (s.bandS.row p.band).div 0 1 0,
      multisynthBytes (s.bandS.row p.band).div 0 1 0,
      clkControl (s.bandS.row p.band).div 0
        (driveOf p.driveStrength (s.bandS.row p.band).opow ||| clkPllSelectA),
      clkControl (s.bandS.row p.band).div 0
        (driveOf p.driveStrength (s.bandS.row p.band).pow ||| clkPllSelectB)⟩ := by
  have hdiv := (row_div_ne (hmode ▸ (by decide) : (s.bandS.row p.band).mode ≠ .none)).2.1.symm
  simp [plannedOut, OutGroup.after, fullCalls, programCalls, hmode, fixedMultCalls, row_zero_div,
    hdiv, lastBytes, lastControl, si5351SetFrequencyFixedpll, msregBase, regPllA, regPllB,
    ofreqChannel, freqChannel, audioCodecChannel, bytesOf]

end FixedMult

theorem pll_ratio {div : Nat} (hlo : 6 ≤ div) (hhi : div ≤ 40) :
    decodeRatio (bytesOf (.setupPll regPllA div 0 1)) = div := by
  rw [(pll_encoded (ratioFits_integer (by omega) (by omega))).ratio, handedRatio]
  simp

theorem multisynth_ratio {div : Nat} (h : div = 4 ∨ div = 6 ∨ div = 8) :
    decodeRatio (multisynthBytes div 0 1 0) = div ∧ decodeRdiv (multisynthBytes div 0 1 0) = 1 := by
  have henc : Encoded (.setupMultisynth ofreqChannel div 0 1 0 0) := integer_encoded h
  have hratio := henc.ratio
  simp only [bytesOf, handedRatio, Nat.cast_zero, zero_div, add_zero] at hratio
  refine ⟨hratio, ?_⟩
  obtain rfl | rfl | rfl := h <;> rfl

theorem near_divided {channel mul scaled freq j automatic clk : Nat} {pll : PllGroup}
    {ms : List Nat} (hms : ms = bytesOf (dividedCall s p channel mul scaled automatic))
    (hmul : mul = 1) (hrdiv : p.rdiv = j * 16) (hj : j < 8) (hscaled : scaled = freq * 2 ^ j)
    (hq : QuotientFits (s.xtalFreq * (s.bandS.row p.band).div) scaled)
    (h5 : 5 * scaled ≤ s.xtalFreq * (s.bandS.row p.band).div)
    (hclk : clk / 32 % 2 = 0) (hpll : decodeRatio pll.pllA = (s.bandS.row p.band).div) :
    Near (outputFrequency s.xtalFreq pll ms clk) freq := by
  have hcall : dividedCall s p channel mul scaled automatic =
      si5351SetFrequencyFixedpll u32 channel (s.xtalFreq * (s.bandS.row p.band).div) scaled
        (j * 16) (driveOf p.driveStrength automatic ||| clkPllSelectA) := by
    rw [dividedCall, hmul, Nat.one_mul, hrdiv]
  obtain ⟨hratio, hdecode⟩ := fixedpll_ratio hq h5
  rw [outputFrequency, hms, hcall, hratio, hdecode, selectedPll_of_A hclk, hpll,
    Nat.mod_eq_of_lt hj]
  subst hscaled
  exact_mod_cast near_fixedPll hq

theorem near_followed {mul freq div clk : Nat} {pll : PllGroup} {ms : List Nat}
    (hx : 0 < s.xtalFreq.val) (hq : QuotientFits (freq * div) (s.xtalFreq * mul))
    (hratio : decodeRatio ms = div) (hdecode : decodeRdiv ms = 1)
    (hpll : selectedPll pll clk = setRatio (freq * div) (s.xtalFreq * mul)) :
    Near (mul * outputFrequency s.xtalFreq pll ms clk) freq := by
  rw [outputFrequency, hpll, hratio, hdecode, Nat.cast_one, mul_one]
  exact near_fixedMult hx hq

section Encodes

variable (hsel : Selected t f driveStrength p)
  (hx : t.xtalFreq = s.xtalFreq) (hoffset : t.ifOffset = s.ifOffset)
include hsel hx hoffset

theorem encodes_fixedPll {t' : Setup} (hmode : (t.bandS.row p.band).mode = .fixedPll)
    (hr : RatioInRange t p) (hmul : b.mul = 1) (homul : b.omul = 1)
    (hmode' : (t'.bandS.row q.band).mode = .fixedPll)
    (hdiv : (t'.bandS.row q.band).div = (t.bandS.row p.band).div) :
    Encodes s b (plannedPll t' q) (plannedOut t p) f := by
  obtain ⟨j, hj, hrdiv, hfreq, hofreq⟩ := hsel.scale
  have hband := hsel.band_fixedPll hmode
  obtain ⟨_, hrow, hrowo⟩ := row_fixedPll t.bandS hband
  have hb := fixedPll_bounds hsel hband
  obtain ⟨_, _, hpow, hopow⟩ := row_div_ne (hmode ▸ (by decide) : (t.bandS.row p.band).mode ≠ .none)
  have hpll : decodeRatio (plannedPll t' q).pllA = (t.bandS.row p.band).div := by
    rw [plannedPll_fixedPll hmode', hdiv]
    exact pll_ratio hb.div_lower hb.div_upper
  have hqf := quotient_freq hb (hr hmode)
  have hqo := quotient_ofreq hb
  have hlo := hb.lower
  have hle := hb.freq_le
  obtain ⟨hon0, hpll0⟩ := control_divided (s := t) (p := p) hopow ofreqChannel
    (t.bandS.row p.band).omul p.ofreq
  obtain ⟨hon1, hpll1⟩ := control_divided (s := t) (p := p) hpow freqChannel
    (t.bandS.row p.band).mul p.freq
  rw [plannedOut_fixedPll hmode]
  refine ⟨hon0, hon1, ?_, ?_⟩ <;> dsimp only
  · rw [homul, Nat.cast_one, one_mul, ← hx, ← hoffset]
    exact near_divided rfl hrowo hrdiv hj hofreq hqo (by omega) hpll0 hpll
  · rw [hmul, Nat.cast_one, one_mul, ← hx]
    exact near_divided rfl hrow hrdiv hj hfreq hqf (by omega) hpll1 hpll

theorem encodes_fixedMult {t' : Setup} (hmode : (t.bandS.row p.band).mode = .fixedMult)
    (hmul : b.mul = (t.bandS.row p.band).mul) (homul : b.omul = (t.bandS.row p.band).omul)
    (hmode' : (t'.bandS.row q.band).mode = .fixedMult)
    (hdiv : (t'.bandS.row q.band).div = (t.bandS.row p.band).div) :
    Encodes s b (plannedPll t p) (plannedOut t' q) f := by
  have hband : 3 ≤ p.band := hsel.band_fixedMult hmode
  have hb := fixedMult_bounds hsel hband
  have hxpos : 0 < t.xtalFreq.val := Nat.lt_of_lt_of_le (by decide) t.xtalFreq.2.1
  obtain ⟨hfreq, hofreq⟩ := hsel.unscaled hband
  obtain ⟨hpllA, hpllB⟩ := plannedPll_fixedMult hmode
  obtain ⟨_, _, hpow, hopow⟩ :=
    row_div_ne (hmode' ▸ (by decide) : (t'.bandS.row q.band).mode ≠ .none)
  obtain ⟨hon0, hpll0, _⟩ :=
    clkControl_bits (driveOf_le hopow) (t'.bandS.row q.band).div 0 (.inl rfl)
  obtain ⟨hon1, hpll1, _⟩ :=
    clkControl_bits (driveOf_le hpow) (t'.bandS.row q.band).div 0 (.inr rfl)
  obtain ⟨hratio, hdecode⟩ := multisynth_ratio hb.div_eq
  rw [plannedOut_fixedMult hmode', hdiv]
  rw [hdiv] at hon0 hon1 hpll0 hpll1
  refine ⟨hon0, hon1, ?_, ?_⟩ <;> dsimp only
  · rw [homul, ← hx, ← hoffset, ← hofreq]
    refine near_followed hxpos (quotient_pllA hb) hratio hdecode ?_
    rw [selectedPll_of_A hpll0, hpllA]
    exact selectedPll_ratio (quotient_pllA hb)
  · rw [hmul, ← hx, ← hfreq]
    refine near_followed hxpos (quotient_pllB hb) hratio hdecode ?_
    rw [selectedPll_of_B hpll1, hpllB]
    exact selectedPll_ratio (quotient_pllB hb)

end Encodes

end NanoVNA.Si5351Planned
