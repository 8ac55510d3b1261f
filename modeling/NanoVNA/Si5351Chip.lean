import NanoVNA.Si5351

namespace NanoVNA.Si5351Chip

open NanoVNA.Word32 NanoVNA.BandStrategy NanoVNA.BandSelection NanoVNA.Si5351Registers
  NanoVNA.Si5351

variable {calls : List Call} {c : Call} {d : Driver} {base ch : Nat}

def blockOf : Call → Nat
  | .setupPll pllSource .. => pllSource
  | .setupMultisynth channel .. => msregBase channel

def bytesOf : Call → List Nat
  | .setupPll _ mult num denom => dividerBytes (dividerOf u32 mult num denom) 0
  | .setupMultisynth _ div num denom rdiv _ => multisynthBytes div num denom rdiv

def dividerBases : List Nat := [regPllA, regPllB, msregBase 0, msregBase 1, msregBase 2]

/-- What the calls leave in the block at `base`, which held `old`. -/
def lastBytes (calls : List Call) (base : Nat) (old : List Nat) : List Nat :=
  calls.foldl (fun bytes c => if blockOf c = base then bytesOf c else bytes) old

def controlOf (ch old : Nat) : Call → Nat
  | .setupPll .. => old
  | .setupMultisynth channel div num _ _ chctrl =>
    if channel = ch then clkControl div num chctrl else old

/-- What the calls leave in the control register of a channel, which held `old`. -/
def lastControl (calls : List Call) (ch old : Nat) : Nat :=
  calls.foldl (controlOf ch) old

def Coherent (d : Driver) : Prop :=
  ∀ ch < 3, d.clkCache ch = 0 ∨ d.clkCache ch = d.regs (regClk0Control + ch)

/-- Every control byte selects the multisynth, so bit 2 is set. -/
theorem clkControl_testBit (div num chctrl : Nat) : (clkControl div num chctrl).testBit 2 := by
  have h : (chctrl ||| clkInputMultisynthN).testBit 2 = true := by
    rw [Nat.testBit_or, show clkInputMultisynthN.testBit 2 = true by decide, Bool.or_true]
  unfold clkControl
  dsimp only
  generalize (if div = 4 then num else u32 (num * 128)) = fraction
  by_cases hz : fraction = 0
  · rw [if_pos hz, Nat.testBit_or, h, Bool.true_or]
  · rw [if_neg hz, h]

theorem clkControl_ne_of_testBit {n : Nat} (hn : n.testBit 2 = false) (div num chctrl : Nat) :
    clkControl div num chctrl ≠ n := fun h => by
  have hb := clkControl_testBit div num chctrl
  rw [h, hn] at hb
  exact Bool.false_ne_true hb

theorem multisynthBytes_eq (div num denom rdiv : Nat) :
    ∃ v high, multisynthBytes div num denom rdiv = dividerBytes v high := by
  unfold multisynthBytes
  split
  · exact ⟨_, _, rfl⟩
  · exact ⟨_, _, rfl⟩

theorem bytesOf_eq (c : Call) : ∃ v high, bytesOf c = dividerBytes v high := by
  cases c with
  | setupPll pllSource mult num denom => exact ⟨_, _, rfl⟩
  | setupMultisynth channel div num denom rdiv chctrl => exact multisynthBytes_eq ..

theorem block_bulkWrite_dividerBytes (v : Divider) (high : Nat) (r : Registers) :
    block (bulkWrite (base :: dividerBytes v high) r) base = dividerBytes v high :=
  block_bulkWrite base _ _ _ _ _ _ _ _ r

theorem dividerBases_apart (hb : base ∈ dividerBases) {other : Nat} (ho : other ∈ dividerBases)
    (hne : base ≠ other) : other + 8 ≤ base ∨ base + 8 ≤ other := by
  have h : ∀ x ∈ dividerBases, ∀ y ∈ dividerBases, x ≠ y → y + 8 ≤ x ∨ x + 8 ≤ y := by decide
  exact h base hb other ho hne

theorem block_bulkWrite_divider (c : Call) (r : Registers) (hc : blockOf c ∈ dividerBases)
    (hb : base ∈ dividerBases) :
    block (bulkWrite (blockOf c :: bytesOf c) r) base =
      if blockOf c = base then bytesOf c else block r base := by
  obtain ⟨v, high, hv⟩ := bytesOf_eq c
  rw [hv]
  by_cases h : blockOf c = base
  · rw [if_pos h, h, block_bulkWrite_dividerBytes]
  · rw [if_neg h]
    exact block_bulkWrite_apart _ _ r (dividerBases_apart hc hb h)

theorem channel_lt {channel : Nat} (h : msregBase channel ∈ dividerBases) : channel < 3 := by
  simp only [dividerBases, msregBase, regPllA, regPllB, List.mem_cons, List.not_mem_nil,
    or_false] at h
  omega

theorem le_of_mem_dividerBases (h : base ∈ dividerBases) : regPllA ≤ base := by
  have hall : ∀ x ∈ dividerBases, regPllA ≤ x := by decide
  exact hall base h

theorem block_write_control {channel : Nat} (hch : channel < 3) (hb : base ∈ dividerBases)
    (dat : Nat) (r : Registers) :
    block (write (regClk0Control + channel) dat r) base = block r base := by
  have hle := le_of_mem_dividerBases hb
  simp only [regPllA] at hle
  refine block_bulkWrite_apart _ [dat] r (.inr ?_)
  simp only [regClk0Control, List.length_singleton]
  omega

theorem block_writeClkControl {channel : Nat} (hch : channel < 3) (hb : base ∈ dividerBases)
    (chctrl : Nat) (d : Driver) :
    block (writeClkControl channel chctrl d).regs base = block d.regs base := by
  unfold writeClkControl
  by_cases h : d.clkCache channel ≠ chctrl
  · rw [if_pos h]
    exact block_write_control hch hb chctrl d.regs
  · rw [if_neg h]

theorem block_run (hc : blockOf c ∈ dividerBases) (hb : base ∈ dividerBases) :
    block (c.run d).regs base = if blockOf c = base then bytesOf c else block d.regs base := by
  cases c with
  | setupPll pllSource mult num denom => exact block_bulkWrite_divider _ d.regs hc hb
  | setupMultisynth channel div num denom rdiv chctrl =>
    rw [← block_bulkWrite_divider _ d.regs hc hb]
    exact block_writeClkControl (channel_lt hc) hb _ _

theorem block_runCalls (hc : ∀ c ∈ calls, blockOf c ∈ dividerBases) (hb : base ∈ dividerBases) :
    block (runCalls calls d).regs base = lastBytes calls base (block d.regs base) := by
  induction calls generalizing d with
  | nil => rfl
  | cons c calls ih =>
    have hrun := block_run (d := d) (hc c List.mem_cons_self) hb
    have hrest := ih (d := c.run d) fun c' hc' => hc c' (List.mem_cons_of_mem c hc')
    rw [hrun] at hrest
    exact hrest

/-- With a coherent cache the control byte is on the chip after the call, written or not. -/
theorem writeClkControl_spec {channel chctrl : Nat} (hz : chctrl ≠ 0) (hch : channel < 3)
    (h : Coherent d) :
    (writeClkControl channel chctrl d).regs (regClk0Control + channel) = chctrl ∧
      (writeClkControl channel chctrl d).clkCache channel = chctrl := by
  unfold writeClkControl
  by_cases hne : d.clkCache channel ≠ chctrl
  · rw [if_pos hne]
    exact ⟨write_same .., if_pos rfl⟩
  · rw [if_neg hne]
    have heq := not_not.mp hne
    cases h channel hch with
    | inl hzero => exact absurd (heq.symm.trans hzero) hz
    | inr hreg => exact ⟨hreg.symm.trans heq, heq⟩

theorem writeClkControl_apart {channel ch : Nat} (hne : channel ≠ ch) (chctrl : Nat)
    (d : Driver) :
    (writeClkControl channel chctrl d).regs (regClk0Control + ch) = d.regs (regClk0Control + ch) ∧
      (writeClkControl channel chctrl d).clkCache ch = d.clkCache ch := by
  unfold writeClkControl
  by_cases h : d.clkCache channel ≠ chctrl
  · rw [if_pos h]
    exact ⟨write_apart _ _ _ (by omega), if_neg hne.symm⟩
  · rw [if_neg h]
    exact ⟨rfl, rfl⟩

theorem control_bulkWrite_divider (hc : blockOf c ∈ dividerBases) (hch : ch < 3)
    (r : Registers) :
    bulkWrite (blockOf c :: bytesOf c) r (regClk0Control + ch) = r (regClk0Control + ch) := by
  have hle := le_of_mem_dividerBases hc
  simp only [regPllA] at hle
  refine bulkWrite_apart _ _ r (.inl ?_)
  simp only [regClk0Control]
  omega

theorem coherent_of_control {d' : Driver} (h : Coherent d) (hcache : d'.clkCache = d.clkCache)
    (hregs : ∀ ch < 3, d'.regs (regClk0Control + ch) = d.regs (regClk0Control + ch)) :
    Coherent d' := fun ch hch => by
  rw [hcache, hregs ch hch]
  exact h ch hch

theorem coherent_writeClkControl {channel chctrl : Nat} (hz : chctrl ≠ 0) (hch : channel < 3)
    (h : Coherent d) : Coherent (writeClkControl channel chctrl d) := fun ch hlt => by
  by_cases heq : channel = ch
  · subst heq
    obtain ⟨hreg, hcache⟩ := writeClkControl_spec hz hch h
    exact .inr (hcache.trans hreg.symm)
  · obtain ⟨hreg, hcache⟩ := writeClkControl_apart heq chctrl d
    rw [hreg, hcache]
    exact h ch hlt

theorem lastControl_testBit (calls : List Call) (ch : Nat) {old : Nat} (h : old.testBit 2 = true) :
    (lastControl calls ch old).testBit 2 = true := by
  induction calls generalizing old with
  | nil => exact h
  | cons c calls ih =>
    apply ih
    cases c with
    | setupPll pllSource mult num denom => exact h
    | setupMultisynth channel div num denom rdiv chctrl =>
      by_cases hch : channel = ch
      · rw [controlOf, if_pos hch]
        exact clkControl_testBit div num chctrl
      · rw [controlOf, if_neg hch]
        exact h

theorem clkCache_run (c : Call) (d : Driver) (ch : Nat) :
    (c.run d).clkCache ch = controlOf ch (d.clkCache ch) c := by
  cases c with
  | setupPll pllSource mult num denom => rfl
  | setupMultisynth channel div num denom rdiv chctrl =>
    simp only [Call.run, si5351SetupMultisynth, writeClkControl, controlOf]
    by_cases heq : channel = ch
    · subst heq
      by_cases hne : d.clkCache channel ≠ clkControl div num chctrl
      · rw [if_pos hne, if_pos rfl]
        exact if_pos rfl
      · rw [if_neg hne, if_pos rfl]
        exact not_not.mp hne
    · rw [if_neg heq]
      split
      · exact if_neg (Ne.symm heq)
      · rfl

theorem clkCache_runCalls (calls : List Call) (d : Driver) (ch : Nat) :
    (runCalls calls d).clkCache ch = lastControl calls ch (d.clkCache ch) := by
  induction calls generalizing d with
  | nil => rfl
  | cons c calls ih =>
    have hrest := ih (c.run d)
    rw [clkCache_run] at hrest
    exact hrest

theorem control_run (hc : blockOf c ∈ dividerBases) (hch : ch < 3) (h : Coherent d) :
    Coherent (c.run d) ∧
      (c.run d).regs (regClk0Control + ch) = controlOf ch (d.regs (regClk0Control + ch)) c := by
  cases c with
  | setupPll pllSource mult num denom =>
    have hregs : ∀ k < 3, ((Call.setupPll pllSource mult num denom).run d).regs
        (regClk0Control + k) = d.regs (regClk0Control + k) :=
      fun k hk => control_bulkWrite_divider hc hk d.regs
    exact ⟨coherent_of_control h rfl hregs, hregs ch hch⟩
  | setupMultisynth channel div num denom rdiv chctrl =>
    have hz := clkControl_ne_of_testBit (Nat.zero_testBit 2) div num chctrl
    have hchannel := channel_lt hc
    have hregs : ∀ k < 3, (bulkWrite (msregBase channel :: multisynthBytes div num denom rdiv)
        d.regs) (regClk0Control + k) = d.regs (regClk0Control + k) :=
      fun k hk => control_bulkWrite_divider hc hk d.regs
    have hcoh : Coherent
        { d with regs := bulkWrite (msregBase channel :: multisynthBytes div num denom rdiv) d.regs } :=
      coherent_of_control h rfl hregs
    refine ⟨coherent_writeClkControl hz hchannel hcoh, ?_⟩
    by_cases heq : channel = ch
    · subst heq
      exact (writeClkControl_spec hz hchannel hcoh).1.trans (if_pos rfl).symm
    · exact (writeClkControl_apart heq _ _).1.trans ((hregs ch hch).trans (if_neg heq).symm)

theorem control_runCalls (hc : ∀ c ∈ calls, blockOf c ∈ dividerBases) (hch : ch < 3)
    (h : Coherent d) :
    Coherent (runCalls calls d) ∧ (runCalls calls d).regs (regClk0Control + ch) =
      lastControl calls ch (d.regs (regClk0Control + ch)) := by
  induction calls generalizing d with
  | nil => exact ⟨h, rfl⟩
  | cons c calls ih =>
    obtain ⟨hcoh, hrun⟩ := control_run (hc c List.mem_cons_self) hch h
    have hrest := ih (fun c' hc' => hc c' (List.mem_cons_of_mem c hc')) hcoh
    rw [hrun] at hrest
    exact hrest

end NanoVNA.Si5351Chip
