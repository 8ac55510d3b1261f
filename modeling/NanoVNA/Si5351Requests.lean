import NanoVNA.Si5351Planned

namespace NanoVNA.Si5351Requests

open NanoVNA.Word32 NanoVNA.DeviceState NanoVNA.BandStrategy NanoVNA.BandSelection
  NanoVNA.Si5351Registers NanoVNA.Si5351 NanoVNA.Si5351Chip NanoVNA.Si5351Groups
  NanoVNA.Si5351Ratios NanoVNA.Si5351Planned

variable {s : Setup} {freq driveStrength : Nat} {q : Prepared} {d d' : Driver}

structure Admissible (s : Setup) (freq driveStrength : Nat) (q : Prepared) : Prop where
  band : (q.band = 1 ∨ q.band = 2) ∨ 3 ≤ q.band ∧ q.band < s.bandS.rows.length
  freq_ne : q.freq ≠ 0
  drive_one : q.band = 1 → q.driveStrength = 0
  drive : q.band ≠ 1 → q.driveStrength = driveStrength
  freq_one : q.band = 1 → q.freq < 26000000
  freq_high : 3 ≤ q.band → q.freq = freq ∧ 100000000 < freq

theorem prepare_admissible (hf : freq ≠ 0) (h : prepare s freq driveStrength = some q) :
    Admissible s freq driveStrength q := by
  have hrow := row_one_le s.bandS
  unfold prepare at h
  by_cases hlt : freq < (s.bandS.row 1).freq
  · rw [if_pos hlt] at h
    obtain rfl := Option.some.inj h
    rw [u32_of_lt (by omega)]
    exact ⟨.inl (.inl rfl), Nat.mul_ne_zero hf (by decide), fun _ => rfl, fun hne => absurd rfl hne,
      fun _ => by dsimp only; omega, fun hge => absurd hge (Nat.lt_irrefl 1 ∘ Nat.le_of_succ_le)⟩
  · rw [if_neg hlt] at h
    by_cases hle : freq ≤ 1000000
    · rw [if_pos hle] at h
      obtain rfl := Option.some.inj h
      rw [u32_of_lt (by omega)]
      exact ⟨.inl (.inr rfl), Nat.mul_ne_zero hf (by decide), fun h1 => absurd h1 (by simp),
        fun _ => rfl, fun h1 => absurd h1 (by simp), fun hge => absurd hge (by simp)⟩
    · rw [if_neg hle] at h
      obtain ⟨band, hband, rfl⟩ := Option.map_eq_some_iff.mp h
      have hgt := Nat.not_le.mp hle
      have hrange := harmonicLvl_range hgt hband
      refine ⟨hrange.imp_left .inr, hf, fun h1 => ?_, fun _ => rfl, fun h1 => ?_,
        fun hge => ⟨rfl, ?_⟩⟩
      · dsimp only at h1
        omega
      · dsimp only at h1
        omega
      · apply Nat.lt_of_not_le
        intro hhi
        have htwo := Option.some.inj (hband.symm.trans (harmonicLvl_two hgt hhi))
        dsimp only at hge
        omega

theorem frequency_ne_zero (f : Frequency) : f.val ≠ 0 :=
  Nat.ne_of_gt (Nat.lt_of_lt_of_le (by decide) f.2.1)

theorem Admissible.mode (h : Admissible s freq driveStrength q) :
    (q.band = 1 ∨ q.band = 2) ∧ (s.bandS.row q.band).mode = .fixedPll ∨
      3 ≤ q.band ∧ (s.bandS.row q.band).mode = .fixedMult := by
  cases h.band with
  | inl hband => exact .inl ⟨hband, (row_fixedPll s.bandS hband).1⟩
  | inr hband => exact .inr ⟨hband.1, (row_fixedMult s.bandS q.band hband.2 hband.1).1⟩

theorem Admissible.usable (h : Admissible s freq driveStrength q) : Usable s q := by
  apply usable_of_mode
  cases h.mode with
  | inl hm => rw [hm.2]; decide
  | inr hm => rw [hm.2]; decide

theorem three_le_length (t : BandTable) : 3 ≤ t.rows.length := by
  cases t <;> decide

theorem Admissible.band_lt (h : Admissible s freq driveStrength q) :
    q.band < s.bandS.rows.length := by
  have hlen := three_le_length s.bandS
  obtain (h1 | h2) | h3 := h.band
  · omega
  · omega
  · exact h3.2

theorem three_le_band (h : Admissible s freq driveStrength q)
    (hmode : (s.bandS.row q.band).mode = .fixedMult) : 3 ≤ q.band := by
  obtain hlow | hhigh := h.mode
  · rw [hlow.2] at hmode
    cases hmode
  · exact hhigh.1

theorem div_two_ne (h : Admissible s freq driveStrength q)
    (hmode : (s.bandS.row q.band).mode = .fixedMult) :
    (s.bandS.row 2).div ≠ (s.bandS.row q.band).div := by
  obtain ⟨_, _, _, _, hdiv, _⟩ := row_fixedMult s.bandS q.band h.band_lt (three_le_band h hmode)
  have htwo := row_two_fits s.bandS
  omega

/-- The only fixed-PLL row that shares its byte with a fixed-multisynth row is the first. -/
theorem band_one_of_div {freq' driveStrength' : Nat} {p : Prepared}
    (hp : Admissible s freq driveStrength p)
    (hpll : (s.bandS.row p.band).mode = .fixedPll) (hq : Admissible s freq' driveStrength' q)
    (hmult : (s.bandS.row q.band).mode = .fixedMult)
    (hdiv : (s.bandS.row p.band).div = (s.bandS.row q.band).div) : p.band = 1 := by
  obtain hlow | hhigh := hp.mode
  · refine hlow.1.resolve_right fun htwo => ?_
    rw [htwo] at hdiv
    exact div_two_ne hq hmult hdiv
  · rw [hhigh.2] at hpll
    cases hpll

section SelectPower

variable (power : Nat) (d : Driver)

theorem selectPower_same (h : d.currentPower = power) : selectPower power d = d :=
  if_neg (not_not.mpr h)

theorem selectPower_changed (h : d.currentPower ≠ power) :
    selectPower power d = { si5351ResetCache d with currentPower := power } := if_pos h

@[simp] theorem selectPower_setup : (selectPower power d).setup = d.setup := by
  unfold selectPower
  split <;> rfl

@[simp] theorem selectPower_regs : (selectPower power d).regs = d.regs := by
  unfold selectPower
  split <;> rfl

@[simp] theorem selectPower_clkCache : (selectPower power d).clkCache = d.clkCache := by
  unfold selectPower
  split <;> rfl

@[simp] theorem selectPower_currentPower : (selectPower power d).currentPower = power := by
  by_cases h : d.currentPower = power
  · rw [selectPower_same power d h, h]
  · rw [selectPower_changed power d h]

theorem selectPower_currentBand :
    (selectPower power d).currentBand = if d.currentPower = power then d.currentBand else 0 := by
  by_cases h : d.currentPower = power
  · rw [selectPower_same power d h, if_pos h]
  · rw [selectPower_changed power d h, if_neg h]
    rfl

end SelectPower

def CacheHit (d : Driver) (q : Prepared) : Prop :=
  d.currentPower = q.driveStrength ∧ d.currentFreq = q.freq

instance (d : Driver) (q : Prepared) : Decidable (CacheHit d q) := inferInstanceAs (Decidable (_ ∧ _))

theorem setFrequency_of_hit (hf : freq ≠ 0) (hq : prepare d.setup freq driveStrength = some q)
    (h : CacheHit d q) :
    si5351SetFrequency freq driveStrength d = some (d, .channelChange) := by
  simp only [si5351SetFrequency, if_neg hf, hq, Option.bind_some]
  rw [selectPower_same _ d h.1, if_pos h.2.symm]

theorem setFrequency_of_miss (hf : freq ≠ 0) (hq : prepare d.setup freq driveStrength = some q)
    (hq0 : q.freq ≠ 0) (h : ¬ CacheHit d q) :
    si5351SetFrequency freq driveStrength d =
      if (selectPower q.driveStrength d).currentBand < d.setup.bandS.rows.length then
        some (program q (selectPower q.driveStrength d))
      else none := by
  have hmiss : q.freq ≠ (selectPower q.driveStrength d).currentFreq := by
    by_cases hp : d.currentPower = q.driveStrength
    · rw [selectPower_same _ d hp]
      exact fun hfreq => h ⟨hp, hfreq.symm⟩
    · rw [selectPower_changed _ d hp]
      exact hq0
  simp only [si5351SetFrequency, if_neg hf, hq, Option.bind_some, if_neg hmiss, selectPower_setup]

/-- A request that gets past the early return looks at the current band of the table. -/
def InTable (d : Driver) (q : Prepared) : Prop :=
  CacheHit d q ∨ (selectPower q.driveStrength d).currentBand < d.setup.bandS.rows.length

theorem inTable_of_lt (h : d.currentBand < d.setup.bandS.rows.length) : InTable d q := by
  right
  rw [selectPower_currentBand]
  split
  · exact h
  · exact Nat.lt_of_lt_of_le (by decide) (three_le_length d.setup.bandS)

/-- A request inside the table either finds everything in place or programs the chip. -/
theorem setFrequency_spec (hf : freq ≠ 0) (hq : prepare d.setup freq driveStrength = some q)
    (hrow : InTable d q) (hcoh : Coherent d) :
    ∃ r, si5351SetFrequency freq driveStrength d = some r ∧
      (CacheHit d q ∧ r.1 = d ∨
        ¬ CacheHit d q ∧ Programmed q (selectPower q.driveStrength d) r.1) := by
  have ha := prepare_admissible hf hq
  by_cases h : CacheHit d q
  · exact ⟨_, setFrequency_of_hit hf hq h, .inl ⟨h, rfl⟩⟩
  · have hset := setFrequency_of_miss hf hq ha.freq_ne h
    rw [if_pos (hrow.resolve_left h)] at hset
    have husable : Usable (selectPower q.driveStrength d).setup q := by
      rw [selectPower_setup]
      exact ha.usable
    refine ⟨_, hset, .inr ⟨h, program_spec husable ?_⟩⟩
    exact coherent_of_sameChip hcoh (selectPower_clkCache ..)
      ⟨fun _ _ => by rw [selectPower_regs], fun _ _ => by rw [selectPower_regs]⟩

/-- The setup and the request that each group of registers was last written for. -/
structure Written (d : Driver) (sp : Setup) (p : Prepared) (so : Setup) (g : Prepared) : Prop where
  coherent : Coherent d
  pll : pllGroup d.regs = plannedPll sp p
  out : outGroup d.regs = plannedOut so g

theorem written_of_dropped (h : Programmed q d d') (hu : Usable d.setup q)
    (hd : d.currentBand = 0) : Written d' d.setup q d.setup q := by
  have hp : ¬ KeepsPll d.setup d.currentBand q := fun hk => hu.band_ne (hk.2.symm.trans hd)
  have ho : ¬ KeepsOut d.setup d.currentBand q := fun hk => by
    have hdiv := hk.2
    rw [hd, row_zero_div] at hdiv
    exact hu.div_ne hdiv.symm
  exact ⟨h.coherent, by rw [h.pll, if_neg hp], by rw [h.out, if_neg ho]⟩

theorem written_of_programmed {p g : Prepared} (hu : Usable d.setup q)
    (hw : Written d d.setup p d.setup g) (hband : d.currentBand = p.band)
    (hpower : d.currentPower = p.driveStrength)
    (h : Programmed q (selectPower q.driveStrength d) d') :
    ∃ g', Written d' d.setup q d.setup g' ∧
      (g' = q ∨ g' = g ∧ p.driveStrength = q.driveStrength ∧
        (d.setup.bandS.row q.band).mode = .fixedMult ∧
        (d.setup.bandS.row p.band).div = (d.setup.bandS.row q.band).div) := by
  by_cases hp : d.currentPower = q.driveStrength
  · rw [selectPower_same _ d hp] at h
    have hpll : pllGroup d'.regs = plannedPll d.setup q := by
      rw [h.pll]
      by_cases hk : KeepsPll d.setup d.currentBand q
      · rw [if_pos hk, hw.pll]
        exact plannedPll_of_band hk.1 (hband.symm.trans hk.2)
      · rw [if_neg hk]
    by_cases hk : KeepsOut d.setup d.currentBand q
    · have hout := h.out
      rw [if_pos hk, hw.out] at hout
      rw [hband] at hk
      exact ⟨g, ⟨h.coherent, hpll, hout⟩, .inr ⟨rfl, hpower.symm.trans hp, hk.1, hk.2⟩⟩
    · have hout := h.out
      rw [if_neg hk] at hout
      exact ⟨q, ⟨h.coherent, hpll, hout⟩, .inl rfl⟩
  · have hdrop : (selectPower q.driveStrength d).currentBand = 0 := by
      rw [selectPower_currentBand, if_neg hp]
    have hwritten := written_of_dropped h (by rw [selectPower_setup]; exact hu) hdrop
    rw [selectPower_setup] at hwritten
    exact ⟨q, hwritten, .inl rfl⟩

/-- The frequency `si5351_init` ends with. -/
def initialFrequency : Frequency := ⟨xtalfreq, by decide, by decide⟩

/-- The request `si5351_init` ends with. -/
def initPrepared (s : Setup) : Prepared := ⟨2, xtalfreq, xtalfreq + s.ifOffset, 0, 0⟩

theorem prepare_xtalfreq (s : Setup) : prepare s xtalfreq 0 = some (initPrepared s) := by
  have hrow := row_one_le s.bandS
  have hoff := s.ifOffset.2.2
  have hlvl : si5351GetHarmonicLvl s xtalfreq = some 2 := harmonicLvl_two (by decide) (by decide)
  have ho : u32 (xtalfreq + s.ifOffset) = xtalfreq + s.ifOffset := by
    apply u32_of_lt
    simp only [xtalfreq]
    omega
  have hlt : ¬ xtalfreq < (s.bandS.row 1).freq := by
    simp only [xtalfreq]
    omega
  rw [prepare, if_neg hlt, if_neg (by decide), hlvl, ho]
  rfl

def Filled (d : Driver) : Prop := ∀ ch < 3, (d.clkCache ch).testBit 2 = true

theorem filled_of_dropped (h : Programmed q d d') (hmode : (d.setup.bandS.row q.band).mode = .fixedPll)
    (hd : d.currentBand ≠ q.band) : Filled d' := by
  intro ch hch
  rw [h.clkCache ch]
  simp only [programCalls, hmode, fixedPllCalls, if_pos hd, lastControl, List.foldl_append,
    List.foldl_cons, List.foldl_nil, controlOf_setupPll, si5351SetFrequencyFixedpll,
    controlOf_setupMultisynth, ofreqChannel, freqChannel, audioCodecChannel]
  obtain rfl | rfl | rfl : ch = 0 ∨ ch = 1 ∨ ch = 2 := by omega
  · exact clkControl_testBit ..
  · exact clkControl_testBit ..
  · exact clkControl_testBit ..

/-- Where `si5351_init` leaves the driver. -/
structure Initialized (d : Driver) : Prop where
  filled : Filled d
  currentBand : d.currentBand = 2
  currentPower : d.currentPower = 0
  currentFreq : d.currentFreq = xtalfreq
  written : Written d d.setup (initPrepared d.setup) d.setup (initPrepared d.setup)

theorem initialized_of_request {r : Driver × Delay} (hcoh : Coherent d) (hband : d.currentBand = 0)
    (hpower : d.currentPower = 0) (hfreq : d.currentFreq = 0)
    (h : si5351SetFrequency xtalfreq 0 d = some r) : Initialized r.1 ∧ r.1.setup = d.setup := by
  have hp := prepare_xtalfreq d.setup
  have hlen := three_le_length d.setup.bandS
  obtain ⟨r', hr', hcases⟩ := setFrequency_spec (by decide) hp
    (inTable_of_lt (by omega)) hcoh
  obtain rfl := Option.some.inj (h.symm.trans hr')
  have hu := (prepare_admissible (by decide) hp).usable
  cases hcases with
  | inl hit =>
    have hzero : 0 = xtalfreq := hfreq.symm.trans hit.1.2
    exact absurd hzero (by decide)
  | inr miss =>
    have hprog := miss.2
    rw [selectPower_same (initPrepared d.setup).driveStrength d hpower] at hprog
    have hwritten := written_of_dropped hprog hu hband
    have htwo : (initPrepared d.setup).band = 2 := rfl
    have hfilled := filled_of_dropped hprog (row_fixedPll d.setup.bandS (.inr htwo)).1
      (by rw [hband, htwo]; decide)
    refine ⟨⟨hfilled, hprog.currentBand, hprog.currentPower.trans hpower, hprog.currentFreq, ?_⟩,
      hprog.setup⟩
    rw [hprog.setup]
    exact hwritten

theorem init_setup {board : DeviceState.Board} {mode : Nat} {setup : Setup} {regs : Registers}
    (h : si5351Init board mode (powerUp setup regs) = some d) :
    ∃ t, (bandTables board)[mode]? = some t ∧ d.setup = { setup with bandS := t } := by
  obtain ⟨d1, hmode, hset⟩ := Option.bind_eq_some_iff.mp h
  obtain ⟨t, ht, rfl⟩ := Option.map_eq_some_iff.mp hmode
  obtain ⟨r, hr, rfl⟩ := Option.map_eq_some_iff.mp hset
  exact ⟨t, ht, (initialized_of_request (fun ch _ => .inl rfl) rfl rfl rfl hr).2⟩

theorem init_initialized {board : DeviceState.Board} {mode : Nat} {setup : Setup}
    {regs : Registers} (h : si5351Init board mode (powerUp setup regs) = some d) :
    Initialized d := by
  obtain ⟨d1, hmode, hset⟩ := Option.bind_eq_some_iff.mp h
  obtain ⟨t, ht, rfl⟩ := Option.map_eq_some_iff.mp hmode
  obtain ⟨r, hr, rfl⟩ := Option.map_eq_some_iff.mp hset
  exact (initialized_of_request (fun ch _ => .inl rfl) rfl rfl rfl hr).1

theorem factory_init : ∃ d, si5351Init .f303 0 (powerUp factorySetup fun _ => 0) = some d ∧
    Initialized d ∧ d.setup = factorySetup := by
  have hsome : (si5351Init .f303 0 (powerUp factorySetup fun _ => 0)).isSome = true := rfl
  obtain ⟨d, hd⟩ := Option.isSome_iff_exists.mp hsome
  obtain ⟨t, ht, hsetup⟩ := init_setup hd
  obtain rfl : .h4Si5351 = t := Option.some.inj ht
  exact ⟨d, hd, init_initialized hd, hsetup⟩

end NanoVNA.Si5351Requests
