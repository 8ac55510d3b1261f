import NanoVNA.Si5351

namespace NanoVNA.Si5351Ratios

open NanoVNA.Word32 NanoVNA.DeviceState NanoVNA.BandStrategy NanoVNA.BandSelection
  NanoVNA.Si5351Registers NanoVNA.Si5351 NanoVNA.Convergents

variable {wrap : Nat → Nat} {n d : Nat} {s : Setup} {f : Frequency} {driveStrength : Nat}
  {p : Prepared}

theorem approximateLoop_eq (hw : ∀ n < 2 ^ 32, wrap n = n) (hn : n < 2 ^ 32) (hd : d < 2 ^ 32)
    (fuel : Nat) {t : State} (h : Expands n d t) :
    approximateLoop wrap fuel t =
      ((truncate maxDenominator fuel t).p1, (truncate maxDenominator fuel t).q1) := by
  induction fuel generalizing t with
  | zero => rfl
  | succ fuel ih =>
    by_cases hden : t.den = 0
    · rw [approximateLoop, truncate, if_pos hden, if_pos (Or.inl hden)]
    · have hone : 1 ≤ t.den := Nat.pos_of_ne_zero hden
      have hq : t.q0 + t.num / t.den * t.q1 ≤ d :=
        Nat.le_trans (Nat.le_mul_of_pos_right _ hone) h.next_q1_mul_le
      have hp : t.p0 + t.num / t.den * t.p1 ≤ n :=
        Nat.le_trans (Nat.le_mul_of_pos_right _ hone) h.next_p1_mul_le
      have hwq : wrap (t.q0 + wrap (t.num / t.den * t.q1)) = t.next.q1 := by
        rw [hw (t.num / t.den * t.q1) (by omega), hw _ (by omega)]
        rfl
      have hwp : wrap (t.p0 + wrap (t.num / t.den * t.p1)) = t.next.p1 := by
        rw [hw (t.num / t.den * t.p1) (by omega), hw _ (by omega)]
        rfl
      rw [approximateLoop, truncate, if_neg hden]
      simp only [hwq, hwp]
      by_cases hlim : maxDenominator < t.next.q1
      · rw [if_pos hlim, if_pos (Or.inr hlim)]
      · rw [if_neg hlim, if_neg (not_or.mpr ⟨hden, hlim⟩)]
        exact ih (h.next hden)

/-- What the divider gets for the fraction `n / d`. -/
structure Approximates (n d : Nat) (a : Nat × Nat) : Prop where
  num_le : a.1 ≤ a.2
  denom_pos : 0 < a.2
  denom_lt : a.2 < 2 ^ 20
  error : |(n : ℚ) / d - a.1 / a.2| ≤ 1 / 2 ^ 20
  exact_of_lt : d < 2 ^ 20 → a = (n, d)

theorem approximateFraction_spec (hn : n < d) (hd : d < 2 ^ 32) :
    Approximates n d (approximateFraction u32 n d) := by
  have hpos : 0 < d := by omega
  unfold approximateFraction
  by_cases hlim : maxDenominator < d
  · rw [if_pos hlim, approximateLoop_eq (fun n => u32_of_lt) (by omega) hd d (start_expands n d)]
    have hl : 0 < maxDenominator := by decide
    have herr := truncate_error (n := n) hpos hl
    have hden := (truncate_expands d (start_expands n d) (Nat.zero_le maxDenominator)).2
    refine ⟨truncate_p1_le hpos hl hn, truncate_q1_pos hpos hl, Nat.lt_succ_of_le hden, ?_, ?_⟩
    · norm_num [maxDenominator] at herr ⊢
      exact herr
    · intro hlt
      simp only [maxDenominator] at hlim
      omega
  · rw [if_neg hlim]
    simp only [maxDenominator] at hlim
    refine ⟨hn.le, hpos, by omega, ?_, fun _ => rfl⟩
    simp

theorem approximateFraction_wrap (hw : ∀ n < 2 ^ 32, wrap n = n) (hn : n < d) (hd : d < 2 ^ 32) :
    approximateFraction wrap n d = approximateFraction u32 n d := by
  have he := start_expands n d
  simp only [approximateFraction]
  rw [approximateLoop_eq hw (hn.trans hd) hd d he,
    approximateLoop_eq (fun n => u32_of_lt) (hn.trans hd) hd d he]

/-- A quotient the divider can be set to, however its fraction is approximated. -/
structure QuotientFits (n d : Nat) : Prop where
  lower : 4 * d ≤ n
  upper : n < 2052 * d
  lt : d < 2 ^ 32
  fraction : n < 2051 * d ∨ d < 2 ^ 20

theorem QuotientFits.pos (h : QuotientFits n d) : 0 < d := by
  obtain ⟨_, hup, _, _⟩ := h
  omega

theorem QuotientFits.ratioFits (h : QuotientFits n d) :
    RatioFits (n / d) (approximateFraction u32 (n % d) d).1
      (approximateFraction u32 (n % d) d).2 := by
  have hpos := h.pos
  obtain ⟨hlo, hup, hlt, hfrac⟩ := h
  have hmod := Nat.mod_lt n hpos
  obtain ⟨hle, hden, hdlt, _, hexact⟩ := approximateFraction_spec hmod hlt
  have hq : 4 ≤ n / d := (Nat.le_div_iff_mul_le hpos).mpr hlo
  refine ⟨hq, hle, hden, hdlt, ?_⟩
  cases hfrac with
  | inl hsmall =>
    have hqs : n / d < 2051 := (Nat.div_lt_iff_lt_mul hpos).mpr hsmall
    have hp : (approximateFraction u32 (n % d) d).1 * 128 /
        (approximateFraction u32 (n % d) d).2 ≤ 128 := by
      apply Nat.div_le_of_le_mul
      rw [Nat.mul_comm (approximateFraction u32 (n % d) d).2]
      omega
    omega
  | inr hsmall =>
    have hqs : n / d < 2052 := (Nat.div_lt_iff_lt_mul hpos).mpr hup
    have hp : n % d * 128 / d < 128 := by
      rw [Nat.div_lt_iff_lt_mul hpos]
      omega
    rw [hexact hsmall]
    dsimp only
    omega

theorem row_one_fits (t : BandTable) :
    6 ≤ (t.row 1).div ∧ (t.row 1).div ≤ 16 ∧ 26000 ≤ (t.row 1).freq := by
  cases t <;> decide

theorem row_two_fits (t : BandTable) :
    32 ≤ (t.row 2).div ∧ (t.row 2).div ≤ 40 ∧ 20 ≤ (t.row 2).freq ∧
      6 * ((t.row 2).freq + 96000) ≤ 24000000 * (t.row 2).div ∧
      28000000 * (t.row 2).div < 2052 * (((t.row 1).freq + 4000) * 16) := by
  cases t <;> decide

theorem xtal_mul_bounds (s : Setup) (n : Nat) :
    24000000 * n ≤ s.xtalFreq * n ∧ s.xtalFreq * n ≤ 28000000 * n :=
  ⟨Nat.mul_le_mul_right n s.xtalFreq.2.1, Nat.mul_le_mul_right n s.xtalFreq.2.2⟩

/-- What a fixed-PLL band asks of the output dividers. No bound keeps the ratio of CLK1 in the
format. -/
structure FixedPllBounds (s : Setup) (p : Prepared) : Prop where
  div_lower : 6 ≤ (s.bandS.row p.band).div
  div_upper : (s.bandS.row p.band).div ≤ 40
  freq_lower : 76800 ≤ p.freq
  freq_le : p.freq ≤ p.ofreq
  lower : 6 * p.ofreq ≤ s.xtalFreq * (s.bandS.row p.band).div
  upper : s.xtalFreq * (s.bandS.row p.band).div < 2052 * p.ofreq

theorem fixedPll_bounds (h : Selected s f driveStrength p) (hb : p.band = 1 ∨ p.band = 2) :
    FixedPllBounds s p := by
  obtain ⟨hone, hone', hrow'⟩ := row_one_fits s.bandS
  obtain ⟨htwo, htwo', hfreq, hdirect, hlow⟩ := row_two_fits s.bandS
  obtain ⟨hx1, hx1'⟩ := xtal_mul_bounds s (s.bandS.row 1).div
  obtain ⟨hx2, hx2'⟩ := xtal_mul_bounds s (s.bandS.row 2).div
  have hrow := row_one_le s.bandS
  have hmin : 600 ≤ f.val := f.2.1
  obtain ⟨hoff, hoff'⟩ := s.ifOffset.2
  cases h with
  | lowest hlt =>
    have hlower : 76800 ≤ f.val * 128 := Nat.mul_le_mul_right 128 hmin
    refine ⟨hone, ?_, hlower, ?_, ?_, ?_⟩ <;> dsimp only <;> omega
  | low hge hle =>
    have hlower : 76800 ≤ f.val * 16 :=
      Nat.le_trans (by decide) (Nat.mul_le_mul_right 16 (hrow'.trans hge))
    refine ⟨?_, htwo', hlower, ?_, ?_, ?_⟩ <;> dsimp only <;> omega
  | @direct hgt band hband =>
    have hle := (harmonicLvl_spec hband).2.1
    dsimp only at hb
    cases hb with
    | inl hb =>
      subst hb
      have := bandLimit_below_two s Nat.one_lt_two
      omega
    | inr hb =>
      subst hb
      rw [bandLimit_of_le hfreq] at hle
      have hlower : 76800 ≤ f.val := Nat.le_trans (by decide) hgt.le
      refine ⟨?_, htwo', hlower, ?_, ?_, ?_⟩ <;> dsimp only <;> omega

/-- What a fixed-multisynth band asks of the feedback dividers and of the codec clock. -/
structure FixedMultBounds (s : Setup) (p : Prepared) : Prop where
  div_eq : (s.bandS.row p.band).div = 4 ∨ (s.bandS.row p.band).div = 6 ∨
    (s.bandS.row p.band).div = 8
  mul_pos : 0 < (s.bandS.row p.band).mul
  mul_le : (s.bandS.row p.band).mul ≤ 15
  omul_pos : 0 < (s.bandS.row p.band).omul
  omul_le : (s.bandS.row p.band).omul ≤ 15
  freq_lt : p.freq < 2 ^ 32
  freq_le : p.freq ≤ p.ofreq
  upper : p.ofreq * (s.bandS.row p.band).div ≤ 900 * 24000000
  codec : p.freq * (s.bandS.row p.band).div ≤ 2025 * clk2Frequency
  lower : 4 * (28000000 * (s.bandS.row p.band).mul) ≤ p.freq * (s.bandS.row p.band).div
  lower_o : 4 * (28000000 * (s.bandS.row p.band).omul) ≤ p.ofreq * (s.bandS.row p.band).div

theorem fixedMult_bounds (h : Selected s f driveStrength p) (hb : 3 ≤ p.band) :
    FixedMultBounds s p := by
  have hmax : f.val ≤ 2700000000 := f.2.2
  obtain ⟨hoff, hoff'⟩ := s.ifOffset.2
  cases h with
  | lowest => simp at hb
  | low => simp at hb
  | @direct hgt band hband =>
    dsimp only at hb ⊢
    obtain ⟨hlt, hle, hpassed⟩ := harmonicLvl_spec hband
    obtain ⟨hmode, hmul, hmulle, homulle, hdiv, j, hj, hj20, hjfreq⟩ :=
      row_fixedMult s.bandS band hlt hb
    have hjf := hpassed j hj
    rw [bandLimit_of_le hj20] at hjf
    have hlow : ((s.bandS.row j).freq + 1) * (s.bandS.row band).div ≤
        f.val * (s.bandS.row band).div := Nat.mul_le_mul_right _ hjf
    have hlow' : f.val * (s.bandS.row band).div ≤
        (f.val + s.ifOffset) * (s.bandS.row band).div :=
      Nat.mul_le_mul_right _ (Nat.le_add_right ..)
    have hcases : (s.bandS.row band).div = 4 ∨ (s.bandS.row band).div = 6 ∨
        (s.bandS.row band).div = 8 ∧ f.val ≤ 400000000 := by
      obtain h4 | h6 | ⟨h8, h20, h400⟩ := hdiv
      · exact .inl h4
      · exact .inr (.inl h6)
      · rw [bandLimit_of_le h20] at hle
        exact .inr (.inr ⟨h8, by omega⟩)
    constructor <;> dsimp only [clk2Frequency]
    · exact hcases.imp_right (Or.imp_right And.left)
    · exact hmul
    · omega
    · omega
    · exact homulle
    · omega
    · omega
    · obtain h | h | ⟨h, _⟩ := hcases <;> rw [h] <;> omega
    · obtain h | h | ⟨h, _⟩ := hcases <;> rw [h] <;> omega
    · omega
    · omega

end NanoVNA.Si5351Ratios
