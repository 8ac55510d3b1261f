import NanoVNA.GuardedRun
import NanoVNA.Si5351Origins

namespace NanoVNA.Si5351Configuration

open NanoVNA.GuardedRun NanoVNA.DeviceState NanoVNA.BandStrategy NanoVNA.BandSelection
  NanoVNA.Si5351Registers NanoVNA.Si5351 NanoVNA.Si5351Groups NanoVNA.Si5351Range
  NanoVNA.Si5351Format NanoVNA.Si5351Encoding NanoVNA.Si5351Planned NanoVNA.Si5351Requests
  NanoVNA.Si5351Origins

variable {f : Frequency} {driveStrength : Nat} {strength : UInt8} {board : Board} {q : Prepared}
  {d : Driver} {σ : Session}

theorem held_configured (hheld : Held σ) (hregs : d.regs = σ.driver.regs)
    (hcache : d.clkCache = σ.driver.clkCache) : Held (σ.configured d) := by
  have hsame : SameChip σ.driver.regs d.regs := by
    rw [hregs]
    exact ⟨fun _ _ => rfl, fun _ _ => rfl⟩
  exact ⟨coherent_of_sameChip hheld.coherent hcache hsame, hsame.pll.trans hheld.pll,
    hsame.out.trans hheld.out⟩

theorem configCall_setFrequency
    (hq : prepare σ.driver.setup f strength.toNat = some q) {r : Driver × Delay}
    (hset : si5351SetFrequency f strength.toNat σ.driver = some r) :
    configCall board σ (.setFrequency f strength) =
      some (σ.request ⟨σ.driver.setup, f, strength.toNat, q, hq⟩ r.1) := by
  simp only [configCall]
  split
  · rename_i hnone
    rw [hq] at hnone
    cases hnone
  · rename_i q' hq'
    obtain rfl := Option.some.inj (hq.symm.trans hq')
    rw [hset]
    rfl

theorem held_setFrequency (hheld : Held σ)
    (hconf : Configurable board σ (.setFrequency f strength)) :
    ∃ τ, configCall board σ (.setFrequency f strength) = some τ ∧ Held τ ∧ FirstEncodes τ := by
  obtain ⟨hreached, hall⟩ := hconf
  obtain ⟨q, hq⟩ :=
    Option.isSome_iff_exists.mp ((prepare_isSome_iff _ _ strength.toNat).mpr hreached)
  obtain ⟨hrow, hreaches⟩ := hall q hq
  obtain ⟨r, hset, hcases⟩ := setFrequency_spec (frequency_ne_zero f) hq hrow hheld.coherent
  refine ⟨_, configCall_setFrequency hq hset, ?_⟩
  let o : Origin := ⟨σ.driver.setup, f, strength.toNat, q, hq⟩
  have hserved : ∀ f', (σ.request o r.1).served = some f' → σ.changed = true ∧ f = f' := by
    intro f' hf'
    cases hchanged : σ.changed with
    | false => simp [Session.request, hchanged] at hf'
    | true =>
      simp only [Session.request, hchanged, if_true, Option.some.injEq] at hf'
      exact ⟨rfl, hf'⟩
  cases hcases with
  | inl hit =>
    obtain ⟨hhit, hsame⟩ := hit
    have hkept : σ.request o r.1 =
        { σ with changed := false, served := if σ.changed then some f else none } := by
      simp only [Session.request, o, hsame, if_pos (Or.inl hhit)]
    refine ⟨?_, fun f' hf' => ?_⟩
    · rw [hkept]
      exact hheld
    · obtain ⟨hchanged, rfl⟩ := hserved f' hf'
      rw [hkept]
      exact encodesFrequency_of (d := σ.driver) hq (((hreaches hchanged).hit hhit).encodes hheld)
  | inr miss =>
    obtain ⟨hmiss, hprog⟩ := miss
    have hheld' := held_request hheld o rfl hmiss hprog
    refine ⟨hheld', fun f' hf' => ?_⟩
    obtain ⟨hchanged, rfl⟩ := hserved f' hf'
    have hsetup : r.1.setup = σ.driver.setup := hprog.setup.trans (selectPower_setup ..)
    have hencodes := encodes_request (o := o) rfl hmiss (hreaches hchanged) hheld'
    have hfreq := encodesFrequency_of hq hencodes
    rw [← hsetup] at hfreq
    exact hfreq

theorem held_configCall (σ : Session) (c : ConfigCall) (hheld : Held σ)
    (hconf : Configurable board σ c) :
    ∃ τ, configCall board σ c = some τ ∧ Held τ ∧ FirstEncodes τ := by
  have hnone : ∀ d, FirstEncodes (σ.configured d) := fun d f hf => by cases hf
  cases c with
  | setBandMode mode =>
    have hmode : (bandTables board)[mode.toNat]? = some (bandTables board)[mode.toNat] :=
      List.getElem?_eq_getElem hconf
    obtain ⟨d, hset, hregs, hcache⟩ : ∃ d, si5351SetBandMode board mode.toNat σ.driver = some d ∧
        d.regs = σ.driver.regs ∧ d.clkCache = σ.driver.clkCache := by
      rw [si5351SetBandMode, hmode]
      exact ⟨_, rfl, rfl, rfl⟩
    exact ⟨σ.configured d, by rw [configCall, hset, Option.map_some],
      held_configured hheld hregs hcache, hnone d⟩
  | setTcxo xtal => exact ⟨_, rfl, held_configured hheld rfl rfl, hnone _⟩
  | setFrequencyOffset offset => exact ⟨_, rfl, held_configured hheld rfl rfl, hnone _⟩
  | setFrequency freq driveStrength => exact held_setFrequency hheld hconf

/-- The setters that drop the caches leave nothing for the next request to skip. -/
theorem reaches_of_dropped (hband : σ.driver.currentBand = 0)
    (hfreq : σ.driver.currentFreq = 0) (hq : prepare σ.driver.setup f driveStrength = some q)
    (hfits : LowEndFits σ.driver.setup f) : InTable σ.driver q ∧ Reaches σ f q := by
  have hadm := prepare_admissible (frequency_ne_zero f) hq
  have hmiss : ¬ CacheHit σ.driver q := fun hit => hadm.freq_ne (hit.2.symm.trans hfreq)
  have hlen := three_le_length σ.driver.setup.bandS
  have hzero : (selectPower q.driveStrength σ.driver).currentBand = 0 := by
    rw [selectPower_currentBand, hband]
    exact ite_self 0
  refine ⟨inTable_of_lt (by omega), fun hit => absurd hit hmiss, fun _ => hfits, fun _ hk => ?_,
    fun _ hk => ?_⟩
  · exact absurd (hk.2.symm.trans hzero) hadm.usable.band_ne
  · have hdiv := hk.2
    rw [hzero, row_zero_div] at hdiv
    exact absurd hdiv.symm hadm.usable.div_ne

def initialOrigin (s : Setup) : Origin := ⟨s, initialFrequency, 0, initPrepared s, prepare_xtalfreq s⟩

/-- The session that `si5351_init` starts. -/
def start (d : Driver) : Session := ⟨d, initialOrigin d.setup, initialOrigin d.setup, false, none⟩

/-- The first request after a change of the configuration reaches the generator, in every run of
calls that skip nothing stale. -/
theorem configuration_reaches {mode : Nat} {setup : Setup} {regs : Registers}
    (hinit : si5351Init board mode (powerUp setup regs) = some d) {calls : List ConfigCall}
    (h : Along (configCall board) (Configurable board) (start d) calls) :
    Throughout (configCall board) FirstEncodes (start d) calls := by
  have hstart : Held (start d) ∧ FirstEncodes (start d) :=
    ⟨(init_initialized hinit).written, fun f hf => by cases hf⟩
  have hrun : Throughout (configCall board) (fun σ => Held σ ∧ FirstEncodes σ) (start d) calls :=
    throughout_of_along (fun σ c hi hc => held_configCall σ c hi.1 hc) hstart h
  exact hrun.mono fun σ hσ => hσ.2

def swcSetup : Setup := { factorySetup with bandS := .swc5351 }

theorem configuration_reaches_swc :
    ∃ d, si5351Init .f303 0 (powerUp factorySetup fun _ => 0) = some d ∧
      Throughout (configCall .f303) FirstEncodes (start d)
        [.setBandMode 2, .setFrequency ⟨150000000, by decide, by decide⟩ 0] := by
  obtain ⟨d, hd, hinit, hsetup⟩ := factory_init
  refine ⟨d, hd,
    configuration_reaches hd ⟨(by decide : 2 < 3), fun σ hσ => ⟨?_, fun _ _ => trivial⟩⟩⟩
  obtain rfl : (start d).configured { d with setup := { d.setup with bandS := .swc5351 } } = σ :=
    Option.some.inj hσ
  have hswc : { d.setup with bandS := .swc5351 } = swcSetup := by rw [hsetup, swcSetup]
  have hreached : Reached swcSetup 150000000 := by decide
  have hq' : prepare swcSetup 150000000 0 = some ⟨3, 150000000, 150012000, 0, 0⟩ := rfl
  have hfits : LowEndFits swcSetup 150000000 := by decide
  rw [Session.configured, hswc]
  refine ⟨hreached, fun q hq => ?_⟩
  obtain rfl := Option.some.inj (hq'.symm.trans hq)
  have hband : (selectPower 0 { d with setup := swcSetup }).currentBand = 2 := by
    rw [selectPower_currentBand, hinit.currentPower, hinit.currentBand]
    rfl
  have hmiss : 26000000 ≠ 150000000 := by decide
  have hpll : ¬ KeepsPll swcSetup 2 ⟨3, 150000000, 150012000, 0, 0⟩ := by decide
  have hout : ¬ KeepsOut swcSetup 2 ⟨3, 150000000, 150012000, 0, 0⟩ := by decide
  refine ⟨.inr ?_, fun _ => ⟨fun hit => ?_, fun _ => hfits, fun _ hk => ?_, fun _ hk => ?_⟩⟩
  · rw [hband]
    exact (by decide : 2 < 10)
  · exact absurd (hinit.currentFreq.symm.trans hit.2) hmiss
  · rw [hband] at hk
    exact absurd hk hpll
  · rw [hband] at hk
    exact absurd hk hout

/-- Band 2 of both tables keeps the PLL, which SWC5351 wants at 40 times the crystal. -/
theorem band_mode_keeps_pll :
    ∃ d, si5351Init .f303 0 (powerUp factorySetup fun _ => 0) = some d ∧
      ¬ Throughout (configCall .f303) FirstEncodes (start d)
        [.setBandMode 2, .setFrequency ⟨60000000, by decide, by decide⟩ 0] := by
  have hrun : (si5351Init .f303 0 (powerUp factorySetup fun _ => 0)).bind (fun d =>
      (configCall .f303 (start d) (.setBandMode 2)).bind fun σ =>
        (configCall .f303 σ (.setFrequency ⟨60000000, by decide, by decide⟩ 0)).map fun σ =>
          (σ.driver.setup, σ.served, pllGroup σ.driver.regs, outGroup σ.driver.regs)) =
      some (swcSetup, some ⟨60000000, by decide, by decide⟩, plannedPll factorySetup (initPrepared factorySetup),
        plannedOut swcSetup ⟨2, 60000000, 60012000, 0, 0⟩) := rfl
  obtain ⟨d, hd, _⟩ := factory_init
  rw [hd, Option.bind_some] at hrun
  refine ⟨d, hd, ?_⟩
  rintro ⟨σ, hσ, _, τ, hτ, hfirst, _⟩
  rw [hσ, Option.bind_some, hτ, Option.map_some, Option.some.injEq] at hrun
  simp only [Prod.mk.injEq] at hrun
  obtain ⟨hsetup, hserved, hpll, hout⟩ := hrun
  obtain ⟨p, hp, hencodes⟩ := hfirst _ hserved
  rw [hsetup] at hp hencodes
  rw [hpll, hout] at hencodes
  have hp' : prepare swcSetup 60000000 0 = some ⟨2, 60000000, 60012000, 0, 0⟩ := rfl
  obtain rfl := Option.some.inj (hp'.symm.trans hp)
  -- the same dividers behind the kept PLL are those of 48 MHz
  have hq : prepare factorySetup 48000000 0 = some ⟨2, 48000000, 48012000, 0, 0⟩ := rfl
  have hsel := selected_of_prepare ⟨48000000, by decide, by decide⟩ hq
  have hr : RatioInRange factorySetup ⟨2, 48000000, 48012000, 0, 0⟩ := fun _ => by decide
  have hsame : Encodes factorySetup (factorySetup.bandS.row 2)
      (plannedPll factorySetup (initPrepared factorySetup))
      (plannedOut factorySetup ⟨2, 48000000, 48012000, 0, 0⟩) 48000000 :=
    encodes_fixedPll hsel rfl rfl rfl hr rfl rfl rfl rfl
  have hms1 : (plannedOut swcSetup ⟨2, 60000000, 60012000, 0, 0⟩).ms1 =
      (plannedOut factorySetup ⟨2, 48000000, 48012000, 0, 0⟩).ms1 := by decide +kernel
  have hclk1 : (plannedOut swcSetup ⟨2, 60000000, 60012000, 0, 0⟩).clk1 =
      (plannedOut factorySetup ⟨2, 48000000, 48012000, 0, 0⟩).clk1 := by decide +kernel
  have hnear := hencodes.clk1
  rw [hms1, hclk1] at hnear
  have hle : 4194303 * 60000000 ≤ 4194305 * 48000000 := near_unique hnear hsame.clk1
  exact absurd hle (by decide)

end NanoVNA.Si5351Configuration
