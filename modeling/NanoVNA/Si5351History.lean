import NanoVNA.GuardedRun
import NanoVNA.Si5351Requests

namespace NanoVNA.Si5351History

open NanoVNA.Word32 NanoVNA.GuardedRun NanoVNA.DeviceState NanoVNA.BandStrategy
  NanoVNA.BandSelection NanoVNA.Si5351Registers NanoVNA.Si5351 NanoVNA.Si5351Groups
  NanoVNA.Si5351Ratios NanoVNA.Si5351Planned NanoVNA.Si5351Requests

variable {s : Setup} {f : Frequency} {freq driveStrength : Nat} {p g q : Prepared} {d d' : Driver}

inductive DriverCall
  | setFrequency (freq : UInt32) (driveStrength : UInt8)
  | setPower (driveStrength : UInt8)

def driverCall (d : Driver) : DriverCall → Option Driver
  | .setFrequency freq driveStrength =>
    (si5351SetFrequency freq.toNat driveStrength.toNat d).map Prod.fst
  | .setPower driveStrength => si5351SetPower driveStrength.toNat d

def ShortCut (d : Driver) (freq driveStrength : Nat) : Prop :=
  ∃ q, prepare d.setup freq driveStrength = some q ∧ CacheHit d q

def Requested (s : Setup) (p : Prepared) : Prop :=
  ∃ freq, freq ≠ 0 ∧ freq < 2 ^ 32 ∧ ∃ driveStrength, prepare s freq driveStrength = some p

theorem Requested.admissible (h : Requested s p) :
    ∃ freq driveStrength, Admissible s freq driveStrength p := by
  obtain ⟨freq, hf, _, driveStrength, hp⟩ := h
  exact ⟨freq, driveStrength, prepare_admissible hf hp⟩

theorem Requested.mode (h : Requested s p) :
    (p.band = 1 ∨ p.band = 2) ∧ (s.bandS.row p.band).mode = .fixedPll ∨
      3 ≤ p.band ∧ (s.bandS.row p.band).mode = .fixedMult := by
  obtain ⟨_, _, ha⟩ := h.admissible
  exact ha.mode

theorem Requested.freq_lt (h : Requested s p) : p.freq < 2 ^ 32 := by
  obtain ⟨freq, _, hfreq, driveStrength, hp⟩ := h
  unfold prepare at hp
  by_cases hlt : freq < (s.bandS.row 1).freq
  · rw [if_pos hlt] at hp
    obtain rfl := Option.some.inj hp
    exact Nat.mod_lt _ (by decide)
  · rw [if_neg hlt] at hp
    by_cases hle : freq ≤ 1000000
    · rw [if_pos hle] at hp
      obtain rfl := Option.some.inj hp
      exact Nat.mod_lt _ (by decide)
    · rw [if_neg hle] at hp
      obtain ⟨band, _, rfl⟩ := Option.map_eq_some_iff.mp hp
      exact hfreq

/-- The groups of the chip stem from the last programmed request and, for the multisynths, from
one before it with the same divider and drive strength. -/
structure Follows (s : Setup) (p g : Prepared) (d : Driver) : Prop where
  setup : d.setup = s
  requested : Requested s p
  source : Requested s g
  currentBand : d.currentBand = p.band
  currentPower : d.currentPower = p.driveStrength
  currentFreq : d.currentFreq = p.freq
  written : Written d s p s g
  div_eq : (s.bandS.row g.band).div = (s.bandS.row p.band).div
  drive_eq : g.driveStrength = p.driveStrength
  own : (s.bandS.row p.band).mode = .fixedPll → g = p

theorem Follows.band_lt (h : Follows s p g d) : d.currentBand < d.setup.bandS.rows.length := by
  obtain ⟨_, _, ha⟩ := h.requested.admissible
  rw [h.setup, h.currentBand]
  exact ha.band_lt

theorem follows_setFrequency (h : Follows s p g d) (hf : freq ≠ 0) (hlt : freq < 2 ^ 32)
    (hq : prepare s freq driveStrength = some q) :
    ∃ r, si5351SetFrequency freq driveStrength d = some r ∧
      (CacheHit d q ∧ r.1 = d ∨ ¬ CacheHit d q ∧
        (∃ g', Follows s q g' r.1) ∧ Programmed q (selectPower q.driveStrength d) r.1) := by
  have hrow := h.band_lt
  have hrequested : Requested s q := ⟨freq, hf, hlt, driveStrength, hq⟩
  have hadm := prepare_admissible hf hq
  obtain ⟨hs, hreq, hsource, hband, hpower, hfreq, hwritten, hdiv, hdrive, hown⟩ := h
  subst hs
  obtain ⟨r, hset, hcases⟩ := setFrequency_spec hf hq (inTable_of_lt hrow) hwritten.coherent
  refine ⟨r, hset, ?_⟩
  cases hcases with
  | inl hit => exact .inl hit
  | inr miss =>
    have hprog := miss.2
    refine .inr ⟨miss.1, ?_, hprog⟩
    obtain ⟨g', hw, hg'⟩ := written_of_programmed hadm.usable hwritten hband hpower hprog
    have hs' : r.1.setup = d.setup := hprog.setup.trans (selectPower_setup ..)
    have hpower' : r.1.currentPower = q.driveStrength :=
      hprog.currentPower.trans (selectPower_currentPower ..)
    obtain rfl | ⟨rfl, hsame, hmult, hdiv'⟩ := hg'
    · exact ⟨g', hs', hrequested, hrequested, hprog.currentBand, hpower', hprog.currentFreq, hw,
        rfl, rfl, fun _ => rfl⟩
    · refine ⟨g', hs', hrequested, hsource, hprog.currentBand, hpower', hprog.currentFreq, hw,
        hdiv.trans hdiv', hdrive.trans hsame, fun hfixed => ?_⟩
      rw [hmult] at hfixed
      cases hfixed

def Following (s : Setup) (d : Driver) : Prop := ∃ p g, Follows s p g d

theorem following_setFrequency (h : Following s d) (hlt : freq < 2 ^ 32) {r : Driver × Delay}
    (hr : si5351SetFrequency freq driveStrength d = some r) : Following s r.1 := by
  obtain ⟨p, g, hfollows⟩ := h
  by_cases hf : freq = 0
  · rw [si5351SetFrequency, if_pos hf] at hr
    obtain rfl := Option.some.inj hr
    exact ⟨p, g, hfollows⟩
  · have hq := hr
    rw [si5351SetFrequency, if_neg hf, hfollows.setup] at hq
    obtain ⟨q, hq, _⟩ := Option.bind_eq_some_iff.mp hq
    obtain ⟨r', hr', hcases⟩ := follows_setFrequency hfollows hf hlt hq
    obtain rfl := Option.some.inj (hr'.symm.trans hr)
    cases hcases with
    | inl hit =>
      rw [hit.2]
      exact ⟨p, g, hfollows⟩
    | inr miss =>
      obtain ⟨g', hg'⟩ := miss.2.1
      exact ⟨q, g', hg'⟩

theorem following_driverCall (h : Following s d) (c : DriverCall) (hd : driverCall d c = some d') :
    Following s d' := by
  cases c with
  | setFrequency freq driveStrength =>
    obtain ⟨r, hr, rfl⟩ := Option.map_eq_some_iff.mp hd
    exact following_setFrequency h freq.toNat_lt hr
  | setPower driveStrength =>
    by_cases hp : driveStrength.toNat = d.currentPower
    · rw [driverCall, si5351SetPower, if_pos hp] at hd
      obtain rfl := Option.some.inj hd
      exact h
    · rw [driverCall, si5351SetPower, if_neg hp] at hd
      obtain ⟨r, hr, rfl⟩ := Option.map_eq_some_iff.mp hd
      obtain ⟨p, g, hfollows⟩ := h
      -- the cached frequency is asked for again
      rw [hfollows.currentFreq] at hr
      exact following_setFrequency ⟨p, g, hfollows⟩ hfollows.requested.freq_lt hr

theorem following_history {calls : List DriverCall} (h : Following s d)
    (hd : calls.foldlM driverCall d = some d') : Following s d' :=
  foldlM_invariant (fun _ c _ hi ht => following_driverCall hi c ht) h hd

theorem follows_initialized (h : Initialized d) :
    Follows d.setup (initPrepared d.setup) (initPrepared d.setup) d := by
  have hrequested : Requested d.setup (initPrepared d.setup) :=
    ⟨xtalfreq, by decide, by decide, 0, prepare_xtalfreq d.setup⟩
  exact ⟨rfl, hrequested, hrequested, h.currentBand, h.currentPower, h.currentFreq, h.written,
    rfl, rfl, fun _ => rfl⟩

section Multisynths

variable (h : Follows s p g d) (hprog : Programmed q (selectPower q.driveStrength d) d')
include h hprog

theorem outGroup_kept (hpower : p.driveStrength = q.driveStrength) (hk : KeepsOut s p.band q) :
    outGroup d'.regs = plannedOut s g := by
  have hsame : d.currentPower = q.driveStrength := h.currentPower.trans hpower
  rw [selectPower_same _ d hsame] at hprog
  have hout := hprog.out
  rw [h.setup, h.currentBand, if_pos hk] at hout
  exact hout.trans h.written.out

theorem outGroup_renewed (hu : Usable s q) (hk : ¬ KeepsOut s p.band q) :
    outGroup d'.regs = plannedOut s q := by
  have hout := hprog.out
  rw [selectPower_setup, selectPower_currentBand, h.setup, h.currentBand] at hout
  by_cases hsame : d.currentPower = q.driveStrength
  · rw [if_pos hsame, if_neg hk] at hout
    exact hout
  · have hzero : ¬ KeepsOut s 0 q := fun hk0 => by
      have hdiv := hk0.2
      rw [row_zero_div] at hdiv
      exact hu.div_ne hdiv.symm
    rw [if_neg hsame, if_neg hzero] at hout
    exact hout

end Multisynths

theorem follows_other (h : Follows s p g d) (hf : freq ≠ 0) (hlt : freq < 2 ^ 32)
    (hq : prepare s freq driveStrength = some q) (hne : p.freq ≠ q.freq) :
    ∃ r, si5351SetFrequency freq driveStrength d = some r ∧
      ¬ ShortCut d freq driveStrength ∧ (∃ g', Follows s q g' r.1) ∧
      Programmed q (selectPower q.driveStrength d) r.1 := by
  obtain ⟨r, hset, hcases⟩ := follows_setFrequency h hf hlt hq
  have hmiss : ¬ CacheHit d q := fun hit => hne (h.currentFreq.symm.trans hit.2)
  refine ⟨r, hset, ?_, (hcases.resolve_left fun hit => hmiss hit.1).2⟩
  rintro ⟨q', hq', hit⟩
  rw [h.setup] at hq'
  obtain rfl := Option.some.inj (hq.symm.trans hq')
  exact hmiss hit

end NanoVNA.Si5351History
