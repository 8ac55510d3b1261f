import NanoVNA.Si5351Chip

namespace NanoVNA.Si5351Groups

open NanoVNA.Word32 NanoVNA.BandStrategy NanoVNA.BandSelection NanoVNA.Si5351Registers
  NanoVNA.Si5351 NanoVNA.Si5351Chip

variable {calls : List Call} {d : Driver} {s : Setup} {p q : Prepared} {current : Nat}

/-- The registers that a request in a fixed-PLL band may skip: both PLLs and the codec clock. -/
structure PllGroup where
  pllA : List Nat
  pllB : List Nat
  ms2 : List Nat
  clk2 : Nat
  deriving DecidableEq

/-- The registers that a request in a fixed-multisynth band may skip. -/
structure OutGroup where
  ms0 : List Nat
  ms1 : List Nat
  clk0 : Nat
  clk1 : Nat
  deriving DecidableEq

def pllGroup (r : Registers) : PllGroup :=
  ⟨block r regPllA, block r regPllB, block r (msregBase audioCodecChannel),
    r (regClk0Control + audioCodecChannel)⟩

def outGroup (r : Registers) : OutGroup :=
  ⟨block r (msregBase ofreqChannel), block r (msregBase freqChannel),
    r (regClk0Control + ofreqChannel), r (regClk0Control + freqChannel)⟩

def PllGroup.after (calls : List Call) (g : PllGroup) : PllGroup :=
  ⟨lastBytes calls regPllA g.pllA, lastBytes calls regPllB g.pllB,
    lastBytes calls (msregBase audioCodecChannel) g.ms2, lastControl calls audioCodecChannel g.clk2⟩

def OutGroup.after (calls : List Call) (g : OutGroup) : OutGroup :=
  ⟨lastBytes calls (msregBase ofreqChannel) g.ms0, lastBytes calls (msregBase freqChannel) g.ms1,
    lastControl calls ofreqChannel g.clk0, lastControl calls freqChannel g.clk1⟩

def fullCalls (s : Setup) (p : Prepared) : List Call := programCalls u32 s 0 p

def plannedPll (s : Setup) (p : Prepared) : PllGroup := PllGroup.after (fullCalls s p) ⟨[], [], [], 0⟩

def plannedOut (s : Setup) (p : Prepared) : OutGroup := OutGroup.after (fullCalls s p) ⟨[], [], 0, 0⟩

structure Usable (s : Setup) (p : Prepared) : Prop where
  band_ne : p.band ≠ 0
  mode_ne : (s.bandS.row p.band).mode ≠ .none
  div_ne : (s.bandS.row p.band).div ≠ 0

def KeepsPll (s : Setup) (current : Nat) (p : Prepared) : Prop :=
  (s.bandS.row p.band).mode = .fixedPll ∧ current = p.band

def KeepsOut (s : Setup) (current : Nat) (p : Prepared) : Prop :=
  (s.bandS.row p.band).mode = .fixedMult ∧ (s.bandS.row current).div = (s.bandS.row p.band).div

instance : Decidable (KeepsPll s current p) := inferInstanceAs (Decidable (_ ∧ _))

instance : Decidable (KeepsOut s current p) := inferInstanceAs (Decidable (_ ∧ _))

theorem row_zero_div (t : BandTable) : (t.row 0).div = 0 := by
  cases t <;> rfl

@[simp] theorem blockOf_setupPll (pllSource mult num denom : Nat) :
    blockOf (.setupPll pllSource mult num denom) = pllSource := rfl

@[simp] theorem blockOf_setupMultisynth (channel div num denom rdiv chctrl : Nat) :
    blockOf (.setupMultisynth channel div num denom rdiv chctrl) = msregBase channel := rfl

@[simp] theorem blockOf_fixedpll (wrap : Nat → Nat) (channel pllfreq freq rdiv chctrl : Nat) :
    blockOf (si5351SetFrequencyFixedpll wrap channel pllfreq freq rdiv chctrl) =
      msregBase channel := rfl

@[simp] theorem blockOf_setupPllFreq (wrap : Nat → Nat) (pllSource pllfreq div : Nat) :
    blockOf (si5351SetupPllFreq wrap s pllSource pllfreq div) = pllSource := rfl

@[simp] theorem controlOf_setupPll (pllSource mult num denom ch old : Nat) :
    controlOf ch old (.setupPll pllSource mult num denom) = old := rfl

@[simp] theorem controlOf_setupPllFreq (wrap : Nat → Nat) (pllSource pllfreq div ch old : Nat) :
    controlOf ch old (si5351SetupPllFreq wrap s pllSource pllfreq div) = old := rfl

@[simp] theorem controlOf_setupMultisynth (channel div num denom rdiv chctrl ch old : Nat) :
    controlOf ch old (.setupMultisynth channel div num denom rdiv chctrl) =
      if channel = ch then clkControl div num chctrl else old := rfl

theorem blockOf_programCalls (s : Setup) (p : Prepared) (current : Nat) :
    ∀ c ∈ programCalls u32 s current p, blockOf c ∈ dividerBases := by
  unfold programCalls
  cases (s.bandS.row p.band).mode with
  | none => simp
  | fixedPll =>
    unfold fixedPllCalls
    dsimp only
    split <;> simp [dividerBases, ofreqChannel, freqChannel, audioCodecChannel]
  | fixedMult =>
    unfold fixedMultCalls
    dsimp only
    split <;> simp [dividerBases, ofreqChannel, freqChannel, audioCodecChannel]

section Skips

variable (hp : Usable s p)
include hp

theorem pllGroup_after (g : PllGroup) :
    g.after (programCalls u32 s current p) =
      if KeepsPll s current p then g else plannedPll s p := by
  have hz : 0 ≠ p.band := hp.band_ne.symm
  have hdiv : (0 : Nat) ≠ (s.bandS.row p.band).div := hp.div_ne.symm
  cases hm : (s.bandS.row p.band).mode with
  | none => exact absurd hm hp.mode_ne
  | fixedPll =>
    by_cases hc : current = p.band
    · simp [PllGroup.after, programCalls, hm, fixedPllCalls, hc, KeepsPll, lastBytes, lastControl,
        si5351SetFrequencyFixedpll, msregBase, regPllA, regPllB, ofreqChannel, freqChannel,
        audioCodecChannel]
    · simp [PllGroup.after, programCalls, hm, fixedPllCalls, hc, KeepsPll, plannedPll, fullCalls,
        hz, lastBytes, lastControl, si5351SetFrequencyFixedpll, msregBase,
        regPllA, regPllB, ofreqChannel, freqChannel, audioCodecChannel]
  | fixedMult =>
    by_cases hc : (s.bandS.row current).div = (s.bandS.row p.band).div
    · simp [PllGroup.after, programCalls, hm, fixedMultCalls, hc, KeepsPll, plannedPll, fullCalls,
        row_zero_div, hdiv, lastBytes, lastControl, si5351SetFrequencyFixedpll, msregBase,
        regPllA, regPllB, ofreqChannel, freqChannel, audioCodecChannel]
    · simp [PllGroup.after, programCalls, hm, fixedMultCalls, hc, KeepsPll, plannedPll, fullCalls,
        row_zero_div, hdiv, lastBytes, lastControl, si5351SetFrequencyFixedpll, msregBase,
        regPllA, regPllB, ofreqChannel, freqChannel, audioCodecChannel]

theorem outGroup_after (g : OutGroup) :
    g.after (programCalls u32 s current p) =
      if KeepsOut s current p then g else plannedOut s p := by
  have hz : 0 ≠ p.band := hp.band_ne.symm
  have hdiv : (0 : Nat) ≠ (s.bandS.row p.band).div := hp.div_ne.symm
  cases hm : (s.bandS.row p.band).mode with
  | none => exact absurd hm hp.mode_ne
  | fixedPll =>
    by_cases hc : current = p.band
    · simp [OutGroup.after, programCalls, hm, fixedPllCalls, hc, KeepsOut, plannedOut, fullCalls,
        hz, lastBytes, lastControl, si5351SetFrequencyFixedpll, msregBase,
        regPllA, regPllB, ofreqChannel, freqChannel, audioCodecChannel]
    · simp [OutGroup.after, programCalls, hm, fixedPllCalls, hc, KeepsOut, plannedOut, fullCalls,
        hz, lastBytes, lastControl, si5351SetFrequencyFixedpll, msregBase,
        regPllA, regPllB, ofreqChannel, freqChannel, audioCodecChannel]
  | fixedMult =>
    by_cases hc : (s.bandS.row current).div = (s.bandS.row p.band).div
    · simp [OutGroup.after, programCalls, hm, fixedMultCalls, hc, KeepsOut, lastBytes, lastControl,
        si5351SetFrequencyFixedpll, msregBase, regPllA, regPllB, ofreqChannel, freqChannel,
        audioCodecChannel]
    · simp [OutGroup.after, programCalls, hm, fixedMultCalls, hc, KeepsOut, plannedOut, fullCalls,
        row_zero_div, hdiv, lastBytes, lastControl, si5351SetFrequencyFixedpll, msregBase,
        regPllA, regPllB, ofreqChannel, freqChannel, audioCodecChannel]

end Skips

theorem runCalls_frame (calls : List Call) (d : Driver) :
    ∃ regs cache, runCalls calls d = { d with regs := regs, clkCache := cache } := by
  induction calls generalizing d with
  | nil => exact ⟨d.regs, d.clkCache, rfl⟩
  | cons c calls ih =>
    have hc : ∃ regs cache, c.run d = { d with regs := regs, clkCache := cache } := by
      cases c with
      | setupPll pllSource mult num denom => exact ⟨_, d.clkCache, rfl⟩
      | setupMultisynth channel div num denom rdiv chctrl =>
        simp only [Call.run, si5351SetupMultisynth, writeClkControl]
        split
        · exact ⟨_, _, rfl⟩
        · exact ⟨_, d.clkCache, rfl⟩
    obtain ⟨regs, cache, hrun⟩ := hc
    obtain ⟨regs', cache', hrest⟩ := ih (c.run d)
    refine ⟨regs', cache', hrest.trans ?_⟩
    rw [hrun]

theorem setGain_frame (band : Nat) (d : Driver) :
    ∃ gain, setGain band d = { d with gain := gain } := by
  unfold setGain
  dsimp only
  split
  · exact ⟨_, rfl⟩
  · exact ⟨d.gain, rfl⟩

theorem pllGroup_runCalls (hc : ∀ c ∈ calls, blockOf c ∈ dividerBases) (h : Coherent d) :
    pllGroup (runCalls calls d).regs = (pllGroup d.regs).after calls := by
  have hblock : ∀ base ∈ dividerBases,
      block (runCalls calls d).regs base = lastBytes calls base (block d.regs base) :=
    fun base hb => block_runCalls hc hb
  have hclk := (control_runCalls hc (Nat.lt_succ_self audioCodecChannel) h).2
  simp only [pllGroup, PllGroup.after, hclk]
  rw [hblock regPllA (by decide), hblock regPllB (by decide),
    hblock (msregBase audioCodecChannel) (by decide)]

theorem outGroup_runCalls (hc : ∀ c ∈ calls, blockOf c ∈ dividerBases) (h : Coherent d) :
    outGroup (runCalls calls d).regs = (outGroup d.regs).after calls := by
  have hblock : ∀ base ∈ dividerBases,
      block (runCalls calls d).regs base = lastBytes calls base (block d.regs base) :=
    fun base hb => block_runCalls hc hb
  have hclk : ∀ ch < 3, (runCalls calls d).regs (regClk0Control + ch) =
      lastControl calls ch (d.regs (regClk0Control + ch)) :=
    fun ch hch => (control_runCalls hc hch h).2
  simp only [outGroup, OutGroup.after]
  rw [hblock (msregBase ofreqChannel) (by decide), hblock (msregBase freqChannel) (by decide),
    hclk ofreqChannel (by decide), hclk freqChannel (by decide)]

structure SameChip (r r' : Registers) : Prop where
  block : ∀ base ∈ dividerBases, block r' base = block r base
  clk : ∀ ch < 3, r' (regClk0Control + ch) = r (regClk0Control + ch)

theorem SameChip.pll {r r' : Registers} (h : SameChip r r') : pllGroup r' = pllGroup r := by
  simp only [pllGroup]
  rw [h.block regPllA (by decide), h.block regPllB (by decide),
    h.block (msregBase audioCodecChannel) (by decide), h.clk audioCodecChannel (by decide)]

theorem SameChip.out {r r' : Registers} (h : SameChip r r') : outGroup r' = outGroup r := by
  simp only [outGroup]
  rw [h.block (msregBase ofreqChannel) (by decide), h.block (msregBase freqChannel) (by decide),
    h.clk ofreqChannel (by decide), h.clk freqChannel (by decide)]

theorem sameChip_reset (dat : Nat) (r : Registers) : SameChip r (write regPllReset dat r) where
  block base hb := by
    have hall : ∀ x ∈ dividerBases, x + 8 ≤ regPllReset := by decide
    exact block_bulkWrite_apart regPllReset [dat] r (.inl (hall base hb))
  clk ch hch := by
    apply write_apart
    simp only [regClk0Control, regPllReset]
    omega

/-- What `program` leaves of the driver, with the registers seen as the two groups. -/
structure Programmed (p : Prepared) (d d' : Driver) : Prop where
  setup : d'.setup = d.setup
  currentBand : d'.currentBand = p.band
  currentPower : d'.currentPower = d.currentPower
  currentFreq : d'.currentFreq = p.freq
  coherent : Coherent d'
  clkCache : ∀ ch, d'.clkCache ch =
    lastControl (programCalls u32 d.setup d.currentBand p) ch (d.clkCache ch)
  pll : pllGroup d'.regs =
    if KeepsPll d.setup d.currentBand p then pllGroup d.regs else plannedPll d.setup p
  out : outGroup d'.regs =
    if KeepsOut d.setup d.currentBand p then outGroup d.regs else plannedOut d.setup p

theorem calls_spec (hp : Usable s p) (current : Nat) (d : Driver) (h : Coherent d) :
    Coherent (runCalls (programCalls u32 s current p) d) ∧
      pllGroup (runCalls (programCalls u32 s current p) d).regs =
        (if KeepsPll s current p then pllGroup d.regs else plannedPll s p) ∧
      outGroup (runCalls (programCalls u32 s current p) d).regs =
        (if KeepsOut s current p then outGroup d.regs else plannedOut s p) := by
  have hc := blockOf_programCalls s p current
  rw [← pllGroup_after hp, ← outGroup_after hp]
  exact ⟨(control_runCalls hc (Nat.zero_lt_succ 2) h).1, pllGroup_runCalls hc h,
    outGroup_runCalls hc h⟩

theorem coherent_of_sameChip {d' : Driver} (h : Coherent d) (hcache : d'.clkCache = d.clkCache)
    (hregs : SameChip d.regs d'.regs) : Coherent d' :=
  coherent_of_control h hcache hregs.clk

theorem program_spec (hp : Usable d.setup p) (h : Coherent d) :
    Programmed p d (program p d).1 := by
  have hgain : ∃ gain, (if d.currentBand ≠ p.band then setGain p.band d else d) =
      { d with gain := gain } := by
    by_cases hb : d.currentBand ≠ p.band
    · rw [if_pos hb]
      exact setGain_frame p.band d
    · rw [if_neg hb]
      exact ⟨d.gain, rfl⟩
  obtain ⟨gain, hgain⟩ := hgain
  obtain ⟨hcoh, hpll, hout⟩ := calls_spec hp d.currentBand { d with gain := gain } h
  have hcache :=
    clkCache_runCalls (programCalls u32 d.setup d.currentBand p) { d with gain := gain }
  obtain ⟨regs, cache, hrun⟩ := runCalls_frame (programCalls u32 d.setup d.currentBand p)
    { d with gain := gain }
  rw [hrun] at hcoh hpll hout hcache
  have hreset := sameChip_reset ((32 ||| 128) ||| 0x0C) regs
  by_cases hb : d.currentBand = p.band
  · have hprog : (program p d).1 =
        { d with gain := gain, regs := regs, clkCache := cache, currentFreq := p.freq } := by
      simp only [program, hgain, hrun]
      rw [if_neg (not_not.mpr hb)]
    rw [hprog]
    exact ⟨rfl, hb, rfl, rfl, coherent_of_sameChip hcoh rfl ⟨fun _ _ => rfl, fun _ _ => rfl⟩,
      hcache, hpll, hout⟩
  · have hprog : (program p d).1 =
        { d with gain := gain, regs := write regPllReset ((32 ||| 128) ||| 0x0C) regs,
                 clkCache := cache, pendingSettlingCycles := 1, currentBand := p.band,
                 currentFreq := p.freq } := by
      simp only [program, hgain, hrun]
      rw [if_pos hb]
      rfl
    rw [hprog]
    exact ⟨rfl, rfl, rfl, rfl, coherent_of_sameChip hcoh rfl hreset, hcache,
      hreset.pll.trans hpll, hreset.out.trans hout⟩

end NanoVNA.Si5351Groups
