import NanoVNA.DspOverflow

namespace NanoVNA.PackedDsp

open NanoVNA.DspBackend (Accumulators accumulate dspProcessM4)
open NanoVNA.DspOverflow (bufferSums32 partialSums bufferSums32_eq_iff div16 div16_eq)

section Code

def bottom (w : UInt32) : Int16 := w.toUInt16.toInt16

def top (w : UInt32) : Int16 := (w >>> 16).toUInt16.toInt16

def smlalbb (acc : Int64) (x y : UInt32) : Int64 :=
  acc + (bottom x).toInt64 * (bottom y).toInt64

def smlalbt (acc : Int64) (x y : UInt32) : Int64 := acc + (bottom x).toInt64 * (top y).toInt64

def smlaltb (acc : Int64) (x y : UInt32) : Int64 := acc + (top x).toInt64 * (bottom y).toInt64

def smlaltt (acc : Int64) (x y : UInt32) : Int64 := acc + (top x).toInt64 * (top y).toInt64

def dspStep (sincosTbl capture : Nat → UInt32) (acc : Accumulators Int64) (i : Nat) :
    Accumulators Int64 :=
  let sc := sincosTbl i
  let sr := capture i
  { sampS := smlaltb acc.sampS sr sc
    sampC := smlaltt acc.sampC sr sc
    refS := smlalbb acc.refS sr sc
    refC := smlalbt acc.refC sr sc }

/-- `dsp_process` over a buffer of `length` halfwords, which it reads as words; the loop tests its
end after the first word. -/
def dspProcess (sincosTbl : Nat → UInt32) (length : Nat) (acc : Accumulators Int64)
    (capture : Nat → UInt32) : Accumulators Int64 :=
  (List.range (max 1 (length / 2))).foldl (dspStep sincosTbl capture) acc

def pair (p : Int16 × Int16) : UInt32 :=
  p.1.toUInt16.toUInt32 ||| (p.2.toUInt16.toUInt32 <<< 16)

def packedRun (table : Nat → Int16 × Int16) (count : Nat)
    (captures : List (Nat → Int16 × Int16)) : Accumulators Int64 :=
  captures.foldl (fun acc capture =>
    dspProcess (fun i => pair (table i)) (2 * count) acc fun i => pair (capture i)) ⟨0, 0, 0, 0⟩

def toInts (samples : Nat → Int16 × Int16) (i : Nat) : Int × Int :=
  ((samples i).1.toInt, (samples i).2.toInt)

def exactSums (table : Nat → Int16 × Int16) (count : Nat)
    (captures : List (Nat → Int16 × Int16)) : Accumulators Int where
  sampS := (captures.map fun capture =>
    ∑ i ∈ Finset.range count, (capture i).2.toInt * (table i).1.toInt).sum
  sampC := (captures.map fun capture =>
    ∑ i ∈ Finset.range count, (capture i).2.toInt * (table i).2.toInt).sum
  refS := (captures.map fun capture =>
    ∑ i ∈ Finset.range count, (capture i).1.toInt * (table i).1.toInt).sum
  refC := (captures.map fun capture =>
    ∑ i ∈ Finset.range count, (capture i).1.toInt * (table i).2.toInt).sum

/-- The exact totals of the four sums of 32 bits that the plain loop makes of each buffer. The plain
`dsp_process` then adds them to floats, which round. -/
def plainTotals (table : Nat → Int16 × Int16) (count : Nat)
    (captures : List (Nat → Int16 × Int16)) : Option (Accumulators Int) :=
  captures.foldlM (fun acc capture => (bufferSums32 (toInts table) count capture).map fun s =>
    ⟨acc.sampS + s.sampS, acc.sampC + s.sampC, acc.refS + s.refS, acc.refC + s.refC⟩)
    ⟨0, 0, 0, 0⟩

end Code

section Words

theorem pair_toNat (p : Int16 × Int16) :
    (pair p).toNat = p.2.toUInt16.toNat * 2 ^ 16 + p.1.toUInt16.toNat := by
  have hlow := p.1.toUInt16.toNat_lt
  have hhigh := p.2.toUInt16.toNat_lt
  have hroom : p.2.toUInt16.toNat <<< 16 < 2 ^ 32 := by
    rw [Nat.shiftLeft_eq]
    omega
  have hshift : (p.2.toUInt16.toUInt32 <<< 16).toNat = p.2.toUInt16.toNat <<< 16 := by
    rw [UInt32.toNat_shiftLeft, UInt16.toNat_toUInt32]
    exact Nat.mod_eq_of_lt hroom
  rw [pair, UInt32.toNat_or, hshift, UInt16.toNat_toUInt32, Nat.or_comm,
    ← Nat.shiftLeft_add_eq_or_of_lt hlow, Nat.shiftLeft_eq]

theorem bottom_pair (p : Int16 × Int16) : bottom (pair p) = p.1 := by
  have hlow := p.1.toUInt16.toNat_lt
  have hhalf : (pair p).toUInt16 = p.1.toUInt16 := by
    apply UInt16.toNat_inj.mp
    rw [UInt32.toNat_toUInt16, pair_toNat]
    omega
  rw [bottom, hhalf, Int16.toInt16_toUInt16]

theorem top_pair (p : Int16 × Int16) : top (pair p) = p.2 := by
  have hlow := p.1.toUInt16.toNat_lt
  have hhigh := p.2.toUInt16.toNat_lt
  have hshift : (pair p >>> 16).toNat = (pair p).toNat / 2 ^ 16 := by
    rw [UInt32.toNat_shiftRight, Nat.shiftRight_eq_div_pow]
    rfl
  have hhalf : (pair p >>> 16).toUInt16 = p.2.toUInt16 := by
    apply UInt16.toNat_inj.mp
    rw [UInt32.toNat_toUInt16, hshift, pair_toNat]
    omega
  rw [top, hhalf, Int16.toInt16_toUInt16]

end Words

section Sums

/-- An accumulator of 64 bits holds a sum of `k` products. -/
def HoldsSum (k : Nat) (a : Int64) (n : Int) : Prop := a.toInt = n ∧ |n| ≤ k * 2 ^ 30

theorem abs_product_le (x y : Int16) : |x.toInt * y.toInt| ≤ 2 ^ 30 := by
  have hx : |x.toInt| ≤ 2 ^ 15 := abs_le.mpr ⟨x.le_toInt, x.toInt_lt.le⟩
  have hy : |y.toInt| ≤ 2 ^ 15 := abs_le.mpr ⟨y.le_toInt, y.toInt_lt.le⟩
  calc |x.toInt * y.toInt| = |x.toInt| * |y.toInt| := abs_mul _ _
    _ ≤ 2 ^ 15 * 2 ^ 15 := mul_le_mul hx hy (abs_nonneg _) (by norm_num)
    _ = 2 ^ 30 := by norm_num

theorem HoldsSum.step {k : Nat} {a : Int64} {n : Int} (h : HoldsSum k a n) (hk : k + 1 < 2 ^ 33)
    (x y : Int16) : HoldsSum (k + 1) (a + x.toInt64 * y.toInt64) (n + x.toInt * y.toInt) := by
  obtain ⟨rfl, hbound⟩ := h
  have hproduct := abs_le.mp (abs_product_le x y)
  have hsum : |a.toInt + x.toInt * y.toInt| ≤ (k + 1 : Nat) * 2 ^ 30 := by
    have := abs_add_le a.toInt (x.toInt * y.toInt)
    have := abs_product_le x y
    push_cast
    linarith
  have hrange := abs_le.mp hsum
  refine ⟨?_, hsum⟩
  rw [Int64.toInt_add, Int64.toInt_mul, Int16.toInt_toInt64, Int16.toInt_toInt64,
    Int.bmod_eq_of_le (n := x.toInt * y.toInt) (by omega) (by omega)]
  exact Int.bmod_eq_of_le (by omega) (by omega)

/-- The four accumulators after `k` pairs. -/
structure Holds (k : Nat) (acc : Accumulators Int64) (s : Accumulators Int) : Prop where
  sampS : HoldsSum k acc.sampS s.sampS
  sampC : HoldsSum k acc.sampC s.sampC
  refS : HoldsSum k acc.refS s.refS
  refC : HoldsSum k acc.refC s.refC

variable (table capture : Nat → Int16 × Int16)

theorem Holds.step {k : Nat} {acc : Accumulators Int64} {s : Accumulators Int} (h : Holds k acc s)
    (hk : k + 1 < 2 ^ 33) (i : Nat) :
    Holds (k + 1) (dspStep (fun i => pair (table i)) (fun i => pair (capture i)) acc i)
      (accumulate id (toInts table) (toInts capture) s i) where
  sampS := by
    rw [dspStep, smlaltb, top_pair, bottom_pair]
    exact h.sampS.step hk _ _
  sampC := by
    rw [dspStep, smlaltt, top_pair, top_pair]
    exact h.sampC.step hk _ _
  refS := by
    rw [dspStep, smlalbb, bottom_pair, bottom_pair]
    exact h.refS.step hk _ _
  refC := by
    rw [dspStep, smlalbt, bottom_pair, top_pair]
    exact h.refC.step hk _ _

theorem Holds.loop {k n : Nat} {acc : Accumulators Int64} {s : Accumulators Int}
    (h : Holds k acc s) (hk : k + n < 2 ^ 33) :
    Holds (k + n)
      ((List.range n).foldl (dspStep (fun i => pair (table i)) fun i => pair (capture i)) acc)
      ((List.range n).foldl (accumulate id (toInts table) (toInts capture)) s) := by
  induction n with
  | zero => exact h
  | succ n ih =>
    rw [List.range_succ, List.foldl_append, List.foldl_append]
    exact (ih (by omega)).step table capture hk n

theorem foldl_dspProcessM4 (count : Nat) (captures : List (Nat → Int16 × Int16)) :
    captures.foldl (fun acc capture => dspProcessM4 (toInts table) count acc (toInts capture))
      ⟨0, 0, 0, 0⟩ = exactSums table count captures := by
  induction captures using List.reverseRecOn with
  | nil => rfl
  | append_singleton captures capture ih =>
    rw [List.foldl_append, List.foldl_cons, List.foldl_nil, ih, dspProcessM4,
      NanoVNA.DspBackend.foldl_accumulate]
    simp only [exactSums, List.map_append, List.sum_append, List.map_cons, List.map_nil,
      List.sum_singleton]
    rfl

theorem holds_run {count : Nat} (hcount : 0 < count) (captures : List (Nat → Int16 × Int16))
    (hroom : captures.length * count < 2 ^ 33) :
    Holds (captures.length * count) (packedRun table count captures)
      (captures.foldl (fun acc capture => dspProcessM4 (toInts table) count acc (toInts capture))
        ⟨0, 0, 0, 0⟩) := by
  have hpairs : max 1 (2 * count / 2) = count := by omega
  induction captures using List.reverseRecOn with
  | nil =>
    rw [List.length_nil, Nat.zero_mul]
    have hzero : HoldsSum 0 0 0 := ⟨rfl, by norm_num⟩
    exact ⟨hzero, hzero, hzero, hzero⟩
  | append_singleton captures capture ih =>
    have hlength : (captures ++ [capture]).length * count = captures.length * count + count := by
      rw [List.length_append, List.length_singleton, Nat.add_mul, Nat.one_mul]
    rw [hlength] at hroom ⊢
    rw [packedRun, List.foldl_append, List.foldl_append]
    have hloop := (ih (by omega)).loop table capture hroom
    rw [← packedRun]
    simpa only [List.foldl_cons, List.foldl_nil, dspProcess, dspProcessM4, hpairs] using hloop

end Sums

section Plain

theorem div16_near (n : Int) : |n - 16 * div16 n| ≤ 15 := by
  rw [div16_eq, abs_le]
  split_ifs <;> omega

def Near (k : Nat) (s plain : Int) : Prop := |s - 16 * plain| ≤ 15 * k

theorem near_sum (x t : Nat → Int) (count : Nat) :
    Near count (∑ i ∈ Finset.range count, x i * t i)
      (∑ i ∈ Finset.range count, div16 (x i * t i)) := by
  rw [Near, Finset.mul_sum, ← Finset.sum_sub_distrib]
  calc |∑ i ∈ Finset.range count, (x i * t i - 16 * div16 (x i * t i))|
      ≤ ∑ i ∈ Finset.range count, |x i * t i - 16 * div16 (x i * t i)| :=
        Finset.abs_sum_le_sum_abs _ _
    _ ≤ ∑ _i ∈ Finset.range count, 15 := Finset.sum_le_sum fun i _ => div16_near _
    _ = 15 * count := by
        rw [Finset.sum_const, Finset.card_range, nsmul_eq_mul, mul_comm]

theorem Near.add {k l : Nat} {s plain s' plain' : Int} (h : Near k s plain)
    (h' : Near l s' plain') : Near (k + l) (s + s') (plain + plain') := by
  have hsplit : s + s' - 16 * (plain + plain') = s - 16 * plain + (s' - 16 * plain') := by ring
  have hsum := abs_add_le (s - 16 * plain) (s' - 16 * plain')
  rw [Near] at h h' ⊢
  rw [hsplit]
  push_cast
  linarith

structure AllNear (k : Nat) (s plain : Accumulators Int) : Prop where
  sampS : Near k s.sampS plain.sampS
  sampC : Near k s.sampC plain.sampC
  refS : Near k s.refS plain.refS
  refC : Near k s.refC plain.refC

variable (table : Nat → Int16 × Int16) {count : Nat}

theorem AllNear.buffer {k : Nat} {acc plain s : Accumulators Int} (h : AllNear k acc plain)
    {capture : Nat → Int16 × Int16}
    (hs : bufferSums32 (toInts table) count capture = some s) :
    AllNear (k + count) (dspProcessM4 (toInts table) count acc (toInts capture))
      ⟨plain.sampS + s.sampS, plain.sampC + s.sampC, plain.refS + s.refS,
        plain.refC + s.refC⟩ := by
  obtain ⟨rfl, -⟩ := (bufferSums32_eq_iff _ _ _ _).mp hs
  rw [dspProcessM4, NanoVNA.DspBackend.foldl_accumulate]
  exact ⟨h.sampS.add (near_sum _ _ _), h.sampC.add (near_sum _ _ _), h.refS.add (near_sum _ _ _),
    h.refC.add (near_sum _ _ _)⟩

theorem allNear_run (captures : List (Nat → Int16 × Int16)) {plain : Accumulators Int}
    (hplain : plainTotals table count captures = some plain) :
    AllNear (captures.length * count)
      (captures.foldl (fun acc capture => dspProcessM4 (toInts table) count acc (toInts capture))
        ⟨0, 0, 0, 0⟩) plain := by
  induction captures using List.reverseRecOn generalizing plain with
  | nil =>
    obtain rfl := Option.some.inj hplain
    have hzero : Near 0 0 0 := by norm_num [Near]
    rw [List.length_nil, Nat.zero_mul]
    exact ⟨hzero, hzero, hzero, hzero⟩
  | append_singleton captures capture ih =>
    rw [plainTotals, List.foldlM_append, Option.bind_eq_bind, Option.bind_eq_some_iff] at hplain
    obtain ⟨before, hbefore, hlast⟩ := hplain
    simp only [List.foldlM_cons, List.foldlM_nil, bind_pure, Option.map_eq_some_iff] at hlast
    obtain ⟨s, hs, rfl⟩ := hlast
    rw [List.length_append, List.length_singleton, Nat.add_mul, Nat.one_mul, List.foldl_append]
    exact (ih hbefore).buffer table hs

/-- The accumulators of 64 bits never wrap. Where the sums of 32 bits hold too, the two forms of
`dsp_process` add the same products up to what the divisions drop. -/
theorem packedRun_near_plain (hcount : 0 < count) (captures : List (Nat → Int16 × Int16))
    (hroom : captures.length * count < 2 ^ 33) :
    let packed := packedRun table count captures
    let room : Int := 15 * (captures.length * count : Nat)
    Holds (captures.length * count) packed (exactSums table count captures) ∧
      ∀ plain, plainTotals table count captures = some plain →
        |packed.sampS.toInt - 16 * plain.sampS| ≤ room ∧
          |packed.sampC.toInt - 16 * plain.sampC| ≤ room ∧
          |packed.refS.toInt - 16 * plain.refS| ≤ room ∧
          |packed.refC.toInt - 16 * plain.refC| ≤ room := by
  have hpacked := holds_run table hcount captures hroom
  refine ⟨by rwa [foldl_dspProcessM4] at hpacked, fun plain hplain => ?_⟩
  have hnear := allNear_run table captures hplain
  rw [hpacked.sampS.1, hpacked.sampC.1, hpacked.refS.1, hpacked.refC.1]
  exact ⟨hnear.sampS, hnear.sampC, hnear.refS, hnear.refC⟩

theorem packedRun_near_plain_two :
    let packed := packedRun (fun _ => (3, -5)) 2 [fun _ => (7, -11)]
    Holds 2 packed ⟨-66, 110, 42, -70⟩ ∧
      |packed.sampS.toInt - 16 * -4| ≤ 30 ∧ |packed.sampC.toInt - 16 * 6| ≤ 30 ∧
      |packed.refS.toInt - 16 * 2| ≤ 30 ∧ |packed.refC.toInt - 16 * -4| ≤ 30 := by
  obtain ⟨hexact, hnear⟩ := @packedRun_near_plain (fun _ => (3, -5)) 2 (by decide)
    [fun _ => (7, -11)] (by decide)
  exact ⟨hexact, hnear ⟨-4, 6, 2, -4⟩ rfl⟩

end Plain

end NanoVNA.PackedDsp
