import NanoVNA.Si5351History

namespace NanoVNA.Si5351Independence

open NanoVNA.Word32 NanoVNA.DeviceState NanoVNA.BandStrategy NanoVNA.BandSelection
  NanoVNA.Si5351Registers NanoVNA.Si5351 NanoVNA.Si5351Groups NanoVNA.Si5351Planned
  NanoVNA.Si5351Requests NanoVNA.Si5351History

variable {s : Setup} {f : Frequency} {freq driveStrength : Nat} {strength : UInt8}
  {p g q : Prepared} {d : Driver}

def HistoryIndependent (d : Driver) (f : Frequency) (driveStrength : UInt8) : Prop :=
  ∀ calls₁ calls₂ : List DriverCall, calls₁ ≠ [] → calls₂ ≠ [] → ∀ d₁ d₂ r₁ r₂,
    calls₁.foldlM driverCall d = some d₁ → calls₂.foldlM driverCall d = some d₂ →
    ¬ ShortCut d₁ f driveStrength.toNat → ¬ ShortCut d₂ f driveStrength.toNat →
    si5351SetFrequency f driveStrength.toNat d₁ = some r₁ →
    si5351SetFrequency f driveStrength.toNat d₂ = some r₂ →
    pllGroup r₁.1.regs = pllGroup r₂.1.regs ∧ outGroup r₁.1.regs = outGroup r₂.1.regs

def bandOf (s : Setup) (freq : Nat) : Option Nat := (prepare s freq 0).map Prepared.band

/-- Row `c`, left at an unchanged drive strength, does no harm to row `b`: its divider is another
one, or its clocks are set up as those of row `b` are. -/
def Spares (b c : Band) (driveStrength : UInt8) : Prop :=
  c.div = b.div →
    (c.mode = .fixedPll → driveStrength ≠ 0) ∧
    (c.mode = .fixedMult → driveStrength.toNat ≤ driveStrength8ma ∨ c.pow = b.pow ∧ c.opow = b.opow)

def HistoryFree (s : Setup) (f : Frequency) (driveStrength : UInt8) : Prop :=
  ∀ b, bandOf s f = some b → (s.bandS.row b).mode = .fixedMult →
    ∀ freq, freq ≠ 0 → freq < 2 ^ 32 → ∀ c, bandOf s freq = some c →
      Spares (s.bandS.row b) (s.bandS.row c) driveStrength

theorem bandOf_of_prepare (h : prepare s freq driveStrength = some p) :
    bandOf s freq = some p.band := by
  obtain ⟨drive, hp⟩ := prepare_drive h 0
  rw [bandOf, hp]
  rfl

theorem prepare_of_bandOf {b : Nat} (h : bandOf s freq = some b) (driveStrength : Nat) :
    ∃ p, prepare s freq driveStrength = some p ∧ p.band = b := by
  obtain ⟨p, hp, rfl⟩ := Option.map_eq_some_iff.mp h
  obtain ⟨drive, hp'⟩ := prepare_drive hp driveStrength
  exact ⟨_, hp', rfl⟩

theorem driveOf_congr {a b drive : Nat} (h : drive ≤ driveStrength8ma ∨ a = b) :
    driveOf drive a = driveOf drive b := by
  cases h with
  | inl hle => rw [driveOf, driveOf, if_neg (Nat.not_lt.mpr hle), if_neg (Nat.not_lt.mpr hle)]
  | inr heq => rw [heq]

theorem plannedOut_of_spares (hf : freq ≠ 0)
    (hq : prepare s freq strength.toNat = some q) (hg : Requested s g)
    (hmode : (s.bandS.row q.band).mode = .fixedMult)
    (hdiv : (s.bandS.row g.band).div = (s.bandS.row q.band).div)
    (hdrive : g.driveStrength = q.driveStrength)
    (hspares : Spares (s.bandS.row q.band) (s.bandS.row g.band) strength) :
    plannedOut s g = plannedOut s q := by
  have hadm := prepare_admissible hf hq
  have hhigh := three_le_band hadm hmode
  have hstrength : q.driveStrength = strength.toNat := hadm.drive (by omega)
  obtain ⟨hpll, hmult⟩ := hspares hdiv
  cases hg.mode with
  | inl hlow =>
    have hzero : strength.toNat = 0 := by
      obtain ⟨_, _, hadm'⟩ := hg.admissible
      rw [← hstrength, ← hdrive]
      exact hadm'.drive_one (band_one_of_div hadm' hlow.2 hadm hmode hdiv)
    exact absurd (UInt8.toNat_inj.mp hzero) (hpll hlow.2)
  | inr hhigh =>
    rw [plannedOut_fixedMult hhigh.2, plannedOut_fixedMult hmode, hdiv, hdrive, hstrength]
    rw [driveOf_congr ((hmult hhigh.2).imp_right And.left),
      driveOf_congr ((hmult hhigh.2).imp_right And.right)]

theorem follows_first (h : Initialized d) (hf : freq ≠ 0)
    (hlt : freq < 2 ^ 32) (hp : prepare d.setup freq strength.toNat = some p)
    (hfreq : p.freq ≠ xtalfreq) :
    ∃ d₁, [DriverCall.setFrequency (UInt32.ofNat freq) strength].foldlM driverCall d = some d₁ ∧
      Follows d.setup p p d₁ := by
  have hadm := prepare_admissible hf hp
  have hrequested : Requested d.setup p := ⟨freq, hf, hlt, _, hp⟩
  have hinit := follows_initialized h
  obtain ⟨r, hset, _, ⟨g', hg'⟩, hprog⟩ := follows_other hinit hf hlt hp hfreq.symm
  have hk : ¬ KeepsOut d.setup 2 p := fun hk => div_two_ne hadm hk.1 hk.2
  have hout := outGroup_renewed hinit hprog hadm.usable hk
  refine ⟨r.1, ?_, hg'.setup, hrequested, hrequested, hg'.currentBand, hg'.currentPower,
    hg'.currentFreq, ⟨hg'.written.coherent, hg'.written.pll, hout⟩, rfl, rfl, fun _ => rfl⟩
  rw [List.foldlM_cons, driverCall, UInt32.toNat_ofNat_of_lt' hlt, hset]
  rfl

theorem frequency_lt (f : Frequency) : f.val < 2 ^ 32 := Nat.lt_of_le_of_lt f.2.2 (by decide)

theorem prepare_midband (s : Setup) (driveStrength : Nat) :
    prepare s 50000000 driveStrength =
      some ⟨2, 50000000, 50000000 + s.ifOffset, 0, driveStrength⟩ := by
  have hrow := row_one_le s.bandS
  have hoff := s.ifOffset.2.2
  have hlvl : si5351GetHarmonicLvl s 50000000 = some 2 := harmonicLvl_two (by decide) (by decide)
  have ho : u32 (50000000 + s.ifOffset) = 50000000 + s.ifOffset := u32_of_lt (by omega)
  rw [prepare, if_neg (by omega), if_neg (by decide), hlvl, ho]
  rfl

/-- Two histories of one request: through the row that is left behind, and through 50 MHz. -/
theorem plannedOut_of_independent (h : Initialized d)
    (hind : HistoryIndependent d f strength) (hq : prepare d.setup f strength.toNat = some q)
    (hmode : (d.setup.bandS.row q.band).mode = .fixedMult) (hf : freq ≠ 0) (hlt : freq < 2 ^ 32)
    (hp : prepare d.setup freq strength.toNat = some p)
    (hdiv : (d.setup.bandS.row p.band).div = (d.setup.bandS.row q.band).div)
    (hdrive : p.driveStrength = q.driveStrength) (hxtal : p.freq ≠ xtalfreq)
    (hne : p.freq ≠ q.freq) : plannedOut d.setup p = plannedOut d.setup q := by
  have hlast := frequency_lt f
  have hlast0 := frequency_ne_zero f
  have hadm := prepare_admissible hlast0 hq
  have hk : ¬ KeepsOut d.setup 2 q := fun hk => div_two_ne hadm hmode hk.2
  have hmid : 50000000 ≠ q.freq := by
    obtain ⟨heq, hgt⟩ := hadm.freq_high (three_le_band hadm hmode)
    omega
  have hmid1 : 50000000 ≠ xtalfreq := by decide
  obtain ⟨d₁, hd₁, hfollows₁⟩ := follows_first h hf hlt hp hxtal
  obtain ⟨d₂, hd₂, hfollows₂⟩ := follows_first h (by decide) (by decide)
    (prepare_midband d.setup strength.toNat) hmid1
  obtain ⟨r₁, hset₁, hmiss₁, _, hprog₁⟩ := follows_other hfollows₁ hlast0 hlast hq hne
  obtain ⟨r₂, hset₂, hmiss₂, _, hprog₂⟩ := follows_other hfollows₂ hlast0 hlast hq hmid
  have hout := (hind _ _ (List.cons_ne_nil _ _) (List.cons_ne_nil _ _) d₁ d₂ r₁ r₂ hd₁ hd₂ hmiss₁
    hmiss₂ hset₁ hset₂).2
  rw [outGroup_kept hfollows₁ hprog₁ hdrive ⟨hmode, hdiv⟩,
    outGroup_renewed hfollows₂ hprog₂ hadm.usable hk] at hout
  exact hout

theorem groups_of_historyFree {r : Driver × Delay} (h : Following s d)
    (hfree : HistoryFree s f strength) (hmiss : ¬ ShortCut d f strength.toNat)
    (hset : si5351SetFrequency f strength.toNat d = some r) :
    ∃ q, prepare s f strength.toNat = some q ∧ pllGroup r.1.regs = plannedPll s q ∧
      outGroup r.1.regs = plannedOut s q := by
  obtain ⟨p, g, hfollows⟩ := h
  have hlast0 := frequency_ne_zero f
  have hbind := hset
  rw [si5351SetFrequency, if_neg hlast0, hfollows.setup] at hbind
  obtain ⟨q, hq, _⟩ := Option.bind_eq_some_iff.mp hbind
  obtain ⟨r', hr', hcases⟩ := follows_setFrequency hfollows hlast0 (frequency_lt f) hq
  obtain rfl := Option.some.inj (hr'.symm.trans hset)
  have hmiss' : ¬ CacheHit d q := fun hit => hmiss ⟨q, hfollows.setup ▸ hq, hit⟩
  obtain ⟨_, ⟨g', hg'⟩, _⟩ := hcases.resolve_left fun hit => hmiss' hit.1
  refine ⟨q, hq, hg'.written.pll, hg'.written.out.trans ?_⟩
  cases hg'.requested.mode with
  | inl hlow => rw [hg'.own hlow.2]
  | inr hhigh =>
    obtain ⟨freq, hf, hlt, _, hg⟩ := hg'.source
    exact plannedOut_of_spares hlast0 hq hg'.source hhigh.2 hg'.div_eq hg'.drive_eq
      (hfree _ (bandOf_of_prepare hq) hhigh.2 freq hf hlt _ (bandOf_of_prepare hg))

/-- The clock of CLK1 comes from another PLL in a fixed-PLL band. -/
theorem plannedOut_fixedPll_ne (hp : (s.bandS.row p.band).mode = .fixedPll)
    (hq : (s.bandS.row q.band).mode = .fixedMult) : plannedOut s p ≠ plannedOut s q := by
  intro heq
  obtain ⟨_, _, hpow, _⟩ := row_div_ne (hp ▸ (by decide) : (s.bandS.row p.band).mode ≠ .none)
  obtain ⟨_, _, hpow', _⟩ := row_div_ne (hq ▸ (by decide) : (s.bandS.row q.band).mode ≠ .none)
  have hclk := congrArg OutGroup.clk1 heq
  rw [plannedOut_fixedPll hp, plannedOut_fixedMult hq] at hclk
  have hA := (control_divided (s := s) (p := p) hpow freqChannel (s.bandS.row p.band).mul p.freq).2
  have hB := (clkControl_bits (driveOf_le hpow' : driveOf q.driveStrength _ ≤ 3)
    (s.bandS.row q.band).div 0 (.inr rfl)).2.1
  dsimp only at hclk
  rw [hclk, hB] at hA
  exact absurd hA (by decide)

theorem drive_of_plannedOut_eq (hp : (s.bandS.row p.band).mode = .fixedMult)
    (hq : (s.bandS.row q.band).mode = .fixedMult) (heq : plannedOut s p = plannedOut s q) :
    driveOf p.driveStrength (s.bandS.row p.band).pow =
        driveOf q.driveStrength (s.bandS.row q.band).pow ∧
      driveOf p.driveStrength (s.bandS.row p.band).opow =
        driveOf q.driveStrength (s.bandS.row q.band).opow := by
  obtain ⟨_, _, hpow, hopow⟩ := row_div_ne (hp ▸ (by decide) : (s.bandS.row p.band).mode ≠ .none)
  obtain ⟨_, _, hpow', hopow'⟩ := row_div_ne (hq ▸ (by decide) : (s.bandS.row q.band).mode ≠ .none)
  rw [plannedOut_fixedMult hp, plannedOut_fixedMult hq] at heq
  have hclk0 := congrArg (fun out => out.clk0 % 4) heq
  have hclk1 := congrArg (fun out => out.clk1 % 4) heq
  dsimp only at hclk0 hclk1
  rw [(clkControl_bits (driveOf_le hopow) _ 0 (.inl rfl)).2.2,
    (clkControl_bits (driveOf_le hopow') _ 0 (.inl rfl)).2.2] at hclk0
  rw [(clkControl_bits (driveOf_le hpow) _ 0 (.inr rfl)).2.2,
    (clkControl_bits (driveOf_le hpow') _ 0 (.inr rfl)).2.2] at hclk1
  exact ⟨hclk1, hclk0⟩

theorem historyFree_of_independent (h : Initialized d)
    (hind : HistoryIndependent d f strength) : HistoryFree d.setup f strength := by
  intro b hb hmode freq hf hlt c hc hdiv
  obtain ⟨q, hq, rfl⟩ := prepare_of_bandOf hb strength.toNat
  obtain ⟨p, hp, rfl⟩ := prepare_of_bandOf hc strength.toNat
  have hadmq := prepare_admissible (frequency_ne_zero f) hq
  have hadmp := prepare_admissible hf hp
  have hhigh : 3 ≤ q.band := three_le_band hadmq hmode
  obtain ⟨hqfreq, hgt⟩ := hadmq.freq_high hhigh
  have hqdrive : q.driveStrength = strength.toNat := hadmq.drive (by omega)
  refine ⟨fun hpll hzero => ?_, fun hmult => ?_⟩
  · -- a scaled frequency of the lowest row, at the drive strength that row always takes
    have hone : p.band = 1 := band_one_of_div hadmp hpll hadmq hmode hdiv
    have hsmall := hadmp.freq_one hone
    have hdrive : p.driveStrength = q.driveStrength := by
      rw [hadmp.drive_one hone, hqdrive, hzero]
      rfl
    have heq := plannedOut_of_independent h hind hq hmode hf hlt hp hdiv hdrive 
      (Nat.ne_of_lt hsmall) (by omega)
    exact plannedOut_fixedPll_ne hpll hmode heq
  · have hthree : 3 ≤ p.band := three_le_band hadmp hmult
    obtain ⟨hpfreq, hpgt⟩ := hadmp.freq_high hthree
    have hpdrive : p.driveStrength = strength.toNat := hadmp.drive (by omega)
    by_cases hle : strength.toNat ≤ driveStrength8ma
    · exact .inl hle
    · right
      by_cases hsame : freq = f
      · rw [hsame] at hp
        obtain rfl := Option.some.inj (hp.symm.trans hq)
        exact ⟨rfl, rfl⟩
      · have hxtal : p.freq ≠ xtalfreq := by
          simp only [xtalfreq]
          omega
        have heq := plannedOut_of_independent h hind hq hmode hf hlt hp hdiv
          (hpdrive.trans hqdrive.symm) hxtal (by omega)
        have hdrives := drive_of_plannedOut_eq hmult hmode heq
        have hauto : driveStrength8ma < strength.toNat := Nat.lt_of_not_le hle
        simp only [hpdrive, hqdrive, driveOf, if_pos hauto] at hdrives
        exact hdrives

/-- The registers after a request do not depend on what was called before exactly when every row
that can be left behind spares the row of the request. -/
theorem historyIndependent_iff {board : Board} {mode : Nat} {setup : Setup} {regs : Registers}
    (hinit : si5351Init board mode (powerUp setup regs) = some d) (f : Frequency)
    (driveStrength : UInt8) :
    HistoryIndependent d f driveStrength ↔ HistoryFree d.setup f driveStrength := by
  have h := init_initialized hinit
  constructor
  · exact historyFree_of_independent h
  · intro hfree calls₁ calls₂ _ _ d₁ d₂ r₁ r₂ hd₁ hd₂ hmiss₁ hmiss₂ hset₁ hset₂
    have hstart : Following d.setup d := ⟨_, _, follows_initialized h⟩
    obtain ⟨q, hq, hpll₁, hout₁⟩ :=
      groups_of_historyFree (following_history hstart hd₁) hfree hmiss₁ hset₁
    obtain ⟨q', hq', hpll₂, hout₂⟩ :=
      groups_of_historyFree (following_history hstart hd₂) hfree hmiss₂ hset₂
    obtain rfl := Option.some.inj (hq.symm.trans hq')
    exact ⟨hpll₁.trans hpll₂.symm, hout₁.trans hout₂.symm⟩

theorem historyIndependent_at_4ma :
    ∃ d, si5351Init .f303 0 (powerUp factorySetup fun _ => 0) = some d ∧
      HistoryIndependent d ⟨150000000, by decide, by decide⟩ 1 := by
  obtain ⟨d, hd, _⟩ := factory_init
  refine ⟨d, hd, (historyIndependent_iff hd _ 1).mpr fun b _ _ freq _ _ c _ _ => ?_⟩
  exact ⟨fun _ => by decide, fun _ => .inl (by decide)⟩

/-- 110 MHz at 2 mA after 10 kHz keeps the output dividers of 10 kHz, after 50 MHz it does not. -/
theorem history_shows_at_2ma :
    ∃ d, si5351Init .f303 0 (powerUp factorySetup fun _ => 0) = some d ∧
      ¬ HistoryIndependent d ⟨110000000, by decide, by decide⟩ 0 := by
  obtain ⟨d, hd, hinit, hsetup⟩ := factory_init
  refine ⟨d, hd, fun hind => ?_⟩
  have hfree := historyFree_of_independent hinit hind
  rw [hsetup] at hfree
  exact (hfree 3 rfl rfl 10000 (by decide) (by decide) 1 rfl rfl).1 rfl rfl

end NanoVNA.Si5351Independence
