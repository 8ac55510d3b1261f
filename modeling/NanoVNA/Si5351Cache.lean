import NanoVNA.GuardedRun
import NanoVNA.Si5351Requests

namespace NanoVNA.Si5351Cache

open NanoVNA.GuardedRun NanoVNA.DeviceState NanoVNA.BandStrategy NanoVNA.BandSelection
  NanoVNA.Si5351Registers NanoVNA.Si5351 NanoVNA.Si5351Groups NanoVNA.Si5351Range
  NanoVNA.Si5351Format NanoVNA.Si5351Encoding NanoVNA.Si5351Planned NanoVNA.Si5351Requests

variable {s : Setup} {f : Frequency} {driveStrength : Nat} {p q g : Prepared} {d d' : Driver}

structure Session where
  driver : Driver
  last : Frequency

inductive Request
  | setFrequency (freq : Frequency) (driveStrength : UInt8)
  | setPower (driveStrength : UInt8)

def request (σ : Session) : Request → Option Session
  | .setFrequency freq driveStrength =>
    (si5351SetFrequency freq driveStrength.toNat σ.driver).map fun r => ⟨r.1, freq⟩
  | .setPower driveStrength =>
    (si5351SetPower driveStrength.toNat σ.driver).map fun d => ⟨d, σ.last⟩

/-- A fixed-PLL band whose `pll_n` is the `div` of a fixed-multisynth band. -/
def SharesByte (s : Setup) (current band : Nat) : Prop :=
  (s.bandS.row current).mode = .fixedPll ∧ (s.bandS.row band).mode = .fixedMult ∧
    (s.bandS.row current).div = (s.bandS.row band).div

instance (s : Setup) (current band : Nat) : Decidable (SharesByte s current band) :=
  inferInstanceAs (Decidable (_ ∧ _ ∧ _))

/-- A request the caches serve: its low end fits; at an unchanged power it neither meets a scaled
frequency of another request in the cache nor skips the multisynths of a fixed-PLL band; a power
is set after a frequency that was not scaled. -/
def Served (σ : Session) : Request → Prop
  | .setFrequency freq driveStrength =>
    LowEndFits σ.driver.setup freq ∧
      ∀ q, prepare σ.driver.setup freq driveStrength.toNat = some q →
        σ.driver.currentPower = q.driveStrength →
          (σ.driver.currentFreq = q.freq → freq = σ.last) ∧
            ¬ SharesByte σ.driver.setup σ.driver.currentBand q.band
  | .setPower driveStrength =>
    driveStrength.toNat = σ.driver.currentPower ∨ 1000000 < σ.last.val

/-- The groups of the chip serve a request: its own dividers, or multisynths it may share. -/
structure Tracks (s : Setup) (f : Frequency) (driveStrength : Nat) (p g : Prepared) (d : Driver) :
    Prop where
  setup : d.setup = s
  prepared : prepare s f driveStrength = some p
  inRange : RatioInRange s p
  currentBand : d.currentBand = p.band
  currentPower : d.currentPower = p.driveStrength
  currentFreq : d.currentFreq = p.freq
  written : Written d s p s g
  mode_eq : (s.bandS.row g.band).mode = (s.bandS.row p.band).mode
  div_eq : (s.bandS.row g.band).div = (s.bandS.row p.band).div
  own : (s.bandS.row p.band).mode = .fixedPll → g = p

theorem Tracks.selected (h : Tracks s f driveStrength p g d) : Selected s f driveStrength p :=
  selected_of_prepare f h.prepared

theorem Tracks.mode (h : Tracks s f driveStrength p g d) :
    (p.band = 1 ∨ p.band = 2) ∧ (s.bandS.row p.band).mode = .fixedPll ∨
      3 ≤ p.band ∧ (s.bandS.row p.band).mode = .fixedMult :=
  (prepare_admissible (frequency_ne_zero f) h.prepared).mode

theorem Tracks.encodes (h : Tracks s f driveStrength p g d) : EncodesFrequency s d.regs f := by
  obtain ⟨drive, hp'⟩ := prepare_drive h.prepared 0
  have hsel := h.selected
  refine ⟨_, hp', ?_⟩
  rw [h.written.pll, h.written.out]
  cases h.mode with
  | inl hfixed =>
    obtain ⟨hmode, hmul, homul⟩ := row_fixedPll s.bandS hfixed.1
    rw [h.own hmode]
    exact encodes_fixedPll hsel rfl rfl hmode h.inRange hmul homul hmode rfl
  | inr hfixed =>
    exact encodes_fixedMult hsel rfl rfl hfixed.2 rfl rfl (h.mode_eq.trans hfixed.2) h.div_eq

section Steps

variable {last : Frequency} {strength : Nat} (h : Tracks s last strength p g d)
include h

theorem tracks_setFrequency (hq : prepare s f driveStrength = some q) (hr : RatioInRange s q)
    (hserved : d.currentPower = q.driveStrength →
      (d.currentFreq = q.freq → f = last) ∧ ¬ SharesByte s d.currentBand q.band) :
    ∃ r, si5351SetFrequency f driveStrength d = some r ∧
      ∃ p g, Tracks s f driveStrength p g r.1 := by
  have hadm := prepare_admissible (frequency_ne_zero last) h.prepared
  have hadm' := prepare_admissible (frequency_ne_zero f) hq
  obtain ⟨hs, hprep, hin, hband, hpower, hfreq, hwritten, hmode, hdiv, hown⟩ := h
  subst hs
  have hrow : d.currentBand < d.setup.bandS.rows.length := by
    rw [hband]
    exact hadm.band_lt
  obtain ⟨r, hset, hcases⟩ := setFrequency_spec (frequency_ne_zero f) hq
    (inTable_of_lt hrow) hwritten.coherent
  refine ⟨r, hset, ?_⟩
  cases hcases with
  | inl hit =>
    obtain rfl := (hserved hit.1.1).1 hit.1.2
    obtain ⟨drive, hp'⟩ := prepare_drive hprep driveStrength
    obtain rfl : q = { p with driveStrength := drive } := Option.some.inj (hq.symm.trans hp')
    obtain rfl : p.driveStrength = drive := hpower.symm.trans hit.1.1
    rw [hit.2]
    exact ⟨p, g, rfl, hq, hin, hband, hpower, hfreq, hwritten, hmode, hdiv, hown⟩
  | inr miss =>
    have hprog := miss.2
    obtain ⟨g', hw, hg'⟩ := written_of_programmed hadm'.usable hwritten hband hpower hprog
    have hs' : r.1.setup = d.setup := hprog.setup.trans (selectPower_setup ..)
    have hpower' : r.1.currentPower = q.driveStrength :=
      hprog.currentPower.trans (selectPower_currentPower ..)
    obtain rfl | ⟨rfl, hsame, hmult, hdiv'⟩ := hg'
    · exact ⟨g', g', hs', hq, hr, hprog.currentBand, hpower', hprog.currentFreq, hw, rfl, rfl,
        fun _ => rfl⟩
    · have hmult' : (d.setup.bandS.row p.band).mode = .fixedMult := by
        cases hadm.mode with
        | inl hlow =>
          have hshare := (hserved (hpower.trans hsame)).2
          rw [hband] at hshare
          exact absurd ⟨hlow.2, hmult, hdiv'⟩ hshare
        | inr hhigh => exact hhigh.2
      refine ⟨q, g', hs', hq, hr, hprog.currentBand, hpower', hprog.currentFreq, hw,
        (hmode.trans hmult').trans hmult.symm, hdiv.trans hdiv', fun hfixed => ?_⟩
      rw [hmult] at hfixed
      cases hfixed

theorem tracks_setPower (hserved : driveStrength = d.currentPower ∨ 1000000 < last.val) :
    ∃ d', si5351SetPower driveStrength d = some d' ∧
      ∃ strength p g, Tracks s last strength p g d' := by
  by_cases hp : driveStrength = d.currentPower
  · exact ⟨d, if_pos hp, strength, p, g, h⟩
  · have hhigh := hserved.resolve_left hp
    obtain ⟨drive, hq⟩ := prepare_drive h.prepared driveStrength
    have hfreq : d.currentFreq = last := h.currentFreq.trans (h.selected.of_high hhigh).1
    have hdrive : d.currentPower ≠ drive := by
      have he : drive = driveStrength := ((selected_of_prepare last hq).of_high hhigh).2
      rw [he]
      exact fun he => hp he.symm
    obtain ⟨r, hset, hr'⟩ := tracks_setFrequency h hq h.inRange fun he => absurd he hdrive
    refine ⟨r.1, ?_, driveStrength, hr'⟩
    rw [si5351SetPower, if_neg hp, hfreq, hset]
    rfl

end Steps

def Tracked (s : Setup) (σ : Session) : Prop :=
  ∃ strength p g, Tracks s σ.last strength p g σ.driver

theorem tracked_request (σ : Session) (r : Request) (h : Tracked s σ) (hserved : Served σ r) :
    ∃ τ, request σ r = some τ ∧ Tracked s τ := by
  obtain ⟨strength, p, g, htracks⟩ := h
  have hs := htracks.setup
  cases r with
  | setFrequency freq driveStrength =>
    obtain ⟨hlow, hcache⟩ := hserved
    rw [hs] at hlow hcache
    have hsome := (prepare_isSome_iff s freq driveStrength.toNat).mpr hlow.1
    obtain ⟨q, hq⟩ := Option.isSome_iff_exists.mp hsome
    have hr := (ratioInRange_iff (selected_of_prepare freq hq) hlow.1).mpr hlow
    obtain ⟨r, hset, hr'⟩ := tracks_setFrequency htracks hq hr (hcache q hq)
    exact ⟨⟨r.1, freq⟩, by rw [request, hset, Option.map_some], _, hr'⟩
  | setPower driveStrength =>
    obtain ⟨d', hset, hd'⟩ := tracks_setPower htracks hserved
    exact ⟨⟨d', σ.last⟩, by rw [request, hset, Option.map_some], hd'⟩

theorem tracked_initialized (h : Initialized d) : Tracked d.setup ⟨d, initialFrequency⟩ := by
  have hsel : Selected d.setup xtalfreq 0 (initPrepared d.setup) :=
    .direct (by decide) (harmonicLvl_two (by decide) (by decide))
  have hreached : Reached d.setup initialFrequency := by
    rw [← prepare_isSome_iff d.setup initialFrequency 0]
    exact Option.isSome_iff_exists.mpr ⟨_, prepare_xtalfreq d.setup⟩
  have hr := (ratioInRange_iff (f := initialFrequency) hsel hreached).mpr
    (lowEndFits_of_high hreached (by decide))
  exact ⟨0, _, _, rfl, prepare_xtalfreq d.setup, hr, h.currentBand, h.currentPower, h.currentFreq,
    h.written, rfl, rfl, fun _ => rfl⟩

/-- Along requests that the caches serve, the generator makes the frequency last asked for. -/
theorem requests_encode {board : Board} {mode : Nat} {setup : Setup} {regs : Registers}
    (hinit : si5351Init board mode (powerUp setup regs) = some d) {requests : List Request}
    (h : Along request Served ⟨d, initialFrequency⟩ requests) :
    Throughout request (fun σ => EncodesFrequency d.setup σ.driver.regs σ.last)
      ⟨d, initialFrequency⟩ requests := by
  have hrun := throughout_of_along (tracked_request (s := d.setup))
    (tracked_initialized (init_initialized hinit)) h
  exact hrun.mono fun σ ⟨_, _, _, htracks⟩ => htracks.encodes

theorem requests_encode_across_bands :
    ∃ d, si5351Init .f303 0 (powerUp factorySetup fun _ => 0) = some d ∧
      Throughout request (fun σ => EncodesFrequency d.setup σ.driver.regs σ.last)
        ⟨d, initialFrequency⟩ [.setFrequency ⟨50000000, by decide, by decide⟩ 0,
          .setFrequency ⟨150000000, by decide, by decide⟩ 3, .setPower 1] := by
  obtain ⟨d, hd, hinit, hsetup⟩ := factory_init
  refine ⟨d, hd, requests_encode hd ?_⟩
  have htracked := tracked_initialized hinit
  rw [hsetup] at htracked
  have hfirst : Served ⟨d, initialFrequency⟩
      (.setFrequency ⟨50000000, by decide, by decide⟩ 0) := by
    refine ⟨by rw [hsetup]; decide, fun q hq _ => ?_⟩
    rw [hsetup] at hq ⊢
    obtain rfl : ⟨2, 50000000, 50012000, 0, 0⟩ = q := Option.some.inj hq
    rw [hinit.currentBand, hinit.currentFreq]
    exact ⟨fun hf => absurd hf (by decide), by decide⟩
  refine ⟨hfirst, fun σ hσ => ⟨?_, fun τ hτ => ⟨.inr ?_, fun _ _ => trivial⟩⟩⟩
  · obtain ⟨σ', hσ', strength, p, g, htr⟩ := tracked_request _ _ htracked hfirst
    obtain rfl := Option.some.inj (hσ'.symm.trans hσ)
    obtain ⟨r, _, rfl⟩ := Option.map_eq_some_iff.mp hσ
    have hq0 : prepare factorySetup 50000000 0 = some ⟨2, 50000000, 50012000, 0, 0⟩ := rfl
    obtain ⟨drive, hdrive⟩ := prepare_drive hq0 strength
    obtain rfl := Option.some.inj (hdrive.symm.trans htr.prepared)
    refine ⟨by rw [htr.setup]; decide, fun q hq _ => ?_⟩
    rw [htr.setup] at hq ⊢
    obtain rfl : ⟨4, 150000000, 150012000, 0, 3⟩ = q := Option.some.inj hq
    rw [htr.currentBand, htr.currentFreq]
    have hfreq : 50000000 ≠ 150000000 := by decide
    have hshare : ¬ SharesByte factorySetup 2 4 := by decide
    exact ⟨fun hf => absurd hf hfreq, hshare⟩
  · obtain ⟨r, _, rfl⟩ := Option.map_eq_some_iff.mp hτ
    exact (by decide : 1000000 < 150000000)

/-- 76800 Hz is cached as 1228800 Hz, and the request for 1228800 Hz returns early. -/
theorem scaled_frequency_is_cached :
    ∃ d, si5351Init .f303 0 (powerUp factorySetup fun _ => 0) = some d ∧
      ¬ Throughout request (fun σ => EncodesFrequency d.setup σ.driver.regs σ.last)
        ⟨d, initialFrequency⟩ [.setFrequency ⟨76800, by decide, by decide⟩ 0,
          .setFrequency ⟨1228800, by decide, by decide⟩ 0] := by
  obtain ⟨d, hd, hinit, hsetup⟩ := factory_init
  refine ⟨d, hd, ?_⟩
  obtain ⟨_, p0, g0, htracks⟩ := tracked_initialized hinit
  rw [hsetup] at htracks ⊢
  have hlow : LowEndFits factorySetup 76800 := by decide
  have hq : prepare factorySetup 76800 0 = some ⟨2, 1228800, 1420800, 64, 0⟩ := rfl
  have hq' : prepare factorySetup 1228800 0 = some ⟨2, 1228800, 1240800, 0, 0⟩ := rfl
  have hr : RatioInRange factorySetup ⟨2, 1228800, 1420800, 64, 0⟩ := fun _ => by decide
  have hserved : d.currentPower = 0 → (d.currentFreq = 1228800 → ⟨76800, by decide, by decide⟩ =
      initialFrequency) ∧ ¬ SharesByte factorySetup d.currentBand 2 := by
    rw [hinit.currentBand, hinit.currentFreq]
    exact fun _ => ⟨by decide, by decide⟩
  obtain ⟨r, hset, p, g, htr⟩ := tracks_setFrequency htracks hq hr hserved
  obtain rfl := Option.some.inj (hq.symm.trans htr.prepared)
  have hit : CacheHit r.1 ⟨2, 1228800, 1240800, 0, 0⟩ := ⟨htr.currentPower, htr.currentFreq⟩
  have hset' : si5351SetFrequency 1228800 0 r.1 = some (r.1, .channelChange) :=
    setFrequency_of_hit (by decide) (htr.setup ▸ hq') hit
  rintro ⟨σ, hσ, _, τ, hτ, ⟨p', hp', hencodes⟩, _⟩
  obtain rfl := Option.some.inj (hσ.symm.trans (congrArg (Option.map _) hset))
  obtain rfl := Option.some.inj (hτ.symm.trans (congrArg (Option.map _) hset'))
  obtain rfl := Option.some.inj (hq'.symm.trans hp')
  obtain ⟨p'', hp'', hencodes'⟩ := htr.encodes
  obtain rfl := Option.some.inj (hq.symm.trans hp'')
  have hnear : 4194303 * 1228800 ≤ 4194305 * 76800 := near_unique hencodes.clk1 hencodes'.clk1
  exact absurd hnear (by decide)

end NanoVNA.Si5351Cache
