import NanoVNA.GuardedRun
import NanoVNA.Si5351Requests

namespace NanoVNA.Si5351ClkCache

open NanoVNA.GuardedRun NanoVNA.DeviceState NanoVNA.BandStrategy NanoVNA.BandSelection
  NanoVNA.Si5351Registers NanoVNA.Si5351 NanoVNA.Si5351Chip NanoVNA.Si5351Groups
  NanoVNA.Si5351Requests

variable {d d' : Driver} {q : Prepared}

inductive OutputCall
  | disableOutput
  | enableOutput
  | setFrequency (freq : UInt32) (driveStrength : UInt8)

def outputCall (d : Driver) : OutputCall → Option Driver
  | .disableOutput => some (si5351DisableOutput d)
  | .enableOutput => some (si5351EnableOutput d)
  | .setFrequency freq driveStrength =>
    (si5351SetFrequency freq.toNat driveStrength.toNat d).map Prod.fst

def CacheMatches (d : Driver) : Prop :=
  ∀ ch < 3, d.clkCache ch = d.regs (regClk0Control + ch)

/-- A frequency that is 0 or that a row reaches; never a call that disables the outputs. -/
def KeepsCache (d : Driver) : OutputCall → Prop
  | .disableOutput => False
  | .enableOutput => True
  | .setFrequency freq _ => freq.toNat = 0 ∨ Reached d.setup freq.toNat

structure Live (d : Driver) : Prop where
  coherent : Coherent d
  filled : Filled d
  currentBand : d.currentBand < d.setup.bandS.rows.length

theorem Live.matches (h : Live d) : CacheMatches d := by
  intro ch hch
  cases h.coherent ch hch with
  | inl hzero =>
    have hbit := h.filled ch hch
    rw [hzero, Nat.zero_testBit] at hbit
    cases hbit
  | inr heq => exact heq

theorem live_programmed (h : Live d) (hp : Programmed q d d')
    (hband : q.band < d.setup.bandS.rows.length) : Live d' := by
  refine ⟨hp.coherent, fun ch hch => ?_, ?_⟩
  · rw [hp.clkCache ch]
    exact lastControl_testBit _ ch (h.filled ch hch)
  · rw [hp.setup, hp.currentBand]
    exact hband

theorem live_selectPower (h : Live d) (power : Nat) : Live (selectPower power d) := by
  refine ⟨?_, ?_, ?_⟩
  · intro ch hch
    rw [selectPower_clkCache, selectPower_regs]
    exact h.coherent ch hch
  · intro ch hch
    rw [selectPower_clkCache]
    exact h.filled ch hch
  · rw [selectPower_setup, selectPower_currentBand]
    split
    · exact h.currentBand
    · exact Nat.lt_of_lt_of_le (by decide) (three_le_length d.setup.bandS)

theorem live_enableOutput (h : Live d) : Live (si5351EnableOutput d) := by
  refine ⟨fun ch hch => ?_, h.filled, ?_⟩
  · have hreg :
        (si5351EnableOutput d).regs (regClk0Control + ch) = d.regs (regClk0Control + ch) := by
      apply write_apart
      simp only [regClk0Control, regOutputEnableControl]
      omega
    rw [hreg]
    exact h.coherent ch hch
  · exact Nat.lt_of_lt_of_le (Nat.zero_lt_succ 2) (three_le_length d.setup.bandS)

theorem disableOutput_control (d : Driver) :
    (si5351DisableOutput d).regs regClk0Control = clkPowerdown := by
  simp [si5351DisableOutput, si5351ResetCache, bulkWrite]

theorem live_outputCall (h : Live d) (c : OutputCall) (hc : KeepsCache d c) :
    ∃ d', outputCall d c = some d' ∧ Live d' := by
  cases c with
  | disableOutput => exact absurd hc id
  | enableOutput => exact ⟨_, rfl, live_enableOutput h⟩
  | setFrequency freq driveStrength =>
    by_cases hf : freq.toNat = 0
    · refine ⟨d, ?_, h⟩
      rw [outputCall, si5351SetFrequency, if_pos hf]
      rfl
    · have hsome := (prepare_isSome_iff d.setup _ driveStrength.toNat).mpr (hc.resolve_left hf)
      obtain ⟨q, hq⟩ := Option.isSome_iff_exists.mp hsome
      obtain ⟨r, hset, hcases⟩ := setFrequency_spec hf hq (inTable_of_lt h.currentBand) h.coherent
      refine ⟨r.1, by rw [outputCall, hset, Option.map_some], ?_⟩
      cases hcases with
      | inl hit =>
        rw [hit.2]
        exact h
      | inr miss =>
        apply live_programmed (live_selectPower h q.driveStrength) miss.2
        rw [selectPower_setup]
        exact (prepare_admissible hf hq).band_lt

theorem keepsCache_of_matches (h : Live d) (c : OutputCall) (hd : outputCall d c = some d')
    (hm : CacheMatches d') : KeepsCache d c := by
  cases c with
  | disableOutput =>
    obtain rfl := Option.some.inj hd
    have hbit := h.filled 0 (by decide)
    have hzero : d.clkCache 0 = clkPowerdown :=
      (hm 0 (by decide)).trans (disableOutput_control d)
    rw [hzero] at hbit
    exact absurd hbit (by decide)
  | enableOutput => trivial
  | setFrequency freq driveStrength =>
    by_cases hf : freq.toNat = 0
    · exact .inl hf
    · right
      obtain ⟨r, hr, _⟩ := Option.map_eq_some_iff.mp hd
      rw [si5351SetFrequency, if_neg hf] at hr
      obtain ⟨q, hq, _⟩ := Option.bind_eq_some_iff.mp hr
      rw [← prepare_isSome_iff d.setup freq.toNat driveStrength.toNat, hq]
      rfl

theorem live_initialized (h : Initialized d) : Live d := by
  refine ⟨h.written.coherent, h.filled, ?_⟩
  rw [h.currentBand]
  exact three_le_length d.setup.bandS

/-- After `si5351_init` the cache matches the chip through a run of calls exactly when no call
disables the outputs and every frequency can be programmed. -/
theorem outputCalls_match_iff {board : Board} {mode : Nat} {setup : Setup} {regs : Registers}
    (hinit : si5351Init board mode (powerUp setup regs) = some d) (calls : List OutputCall) :
    Throughout outputCall CacheMatches d calls ↔ Along outputCall KeepsCache d calls := by
  exact throughout_post_iff_along (fun _ h => h.matches) (fun _ c h => live_outputCall h c)
    (fun _ c _ h => keepsCache_of_matches h c) (live_initialized (init_initialized hinit))

theorem outputCalls_match_enabled :
    ∃ d, si5351Init .f303 0 (powerUp factorySetup fun _ => 0) = some d ∧
      Throughout outputCall CacheMatches d [.setFrequency 50000000 0, .enableOutput] := by
  obtain ⟨d, hd, _, hsetup⟩ := factory_init
  have hreached : Reached d.setup 50000000 := by
    rw [hsetup]
    decide
  exact ⟨d, hd,
    (outputCalls_match_iff hd _).mpr ⟨.inr hreached, fun _ _ => ⟨trivial, fun _ _ => trivial⟩⟩⟩

/-- The outputs are powered down behind the cache, and stay so on CLK0 when they are enabled
again and a frequency is set. -/
theorem disabled_output_stays_down :
    ∃ d, si5351Init .f303 0 (powerUp factorySetup fun _ => 0) = some d ∧
      ¬ Throughout outputCall CacheMatches d [.disableOutput] ∧
      ∃ d', outputCall (si5351EnableOutput (si5351DisableOutput d)) (.setFrequency 50000000 0) =
        some d' ∧ d'.regs regClk0Control = clkPowerdown := by
  obtain ⟨d, hd, hinit, _⟩ := factory_init
  have hrun : ((si5351Init .f303 0 (powerUp factorySetup fun _ => 0)).bind fun d =>
      (outputCall (si5351EnableOutput (si5351DisableOutput d)) (.setFrequency 50000000 0)).map
        fun d => d.regs regClk0Control) = some clkPowerdown := rfl
  rw [hd, Option.bind_some] at hrun
  refine ⟨d, hd, ?_, Option.map_eq_some_iff.mp hrun⟩
  rintro ⟨t, ht, hm, _⟩
  exact keepsCache_of_matches (live_initialized hinit) _ ht hm

end NanoVNA.Si5351ClkCache
