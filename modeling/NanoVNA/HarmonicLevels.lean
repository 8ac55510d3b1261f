import NanoVNA.BandSelection

namespace NanoVNA.HarmonicLevels

open NanoVNA.DeviceState NanoVNA.BandStrategy NanoVNA.BandSelection

variable {s : Setup} {freq : Nat}

def topEdge : BandTable → Nat
  | .h33Si5351 => 2400000000
  | .h4Si5351 => 2400000000
  | .h36Ms5351 => 588000000
  | .swc5351 => 588000000

/-- The search ends inside the table, at the band that the generator is programmed to; for the
frequency zero nothing is programmed. -/
def LevelsAgree (s : Setup) (freq : Nat) : Prop :=
  ∃ lvl < s.bandS.rows.length, si5351GetHarmonicLvl s freq = some lvl ∧
    ∀ driveStrength p, freq ≠ 0 → prepare s freq driveStrength = some p → p.band = lvl

theorem harmonicLvl_of_first {lvl : Nat} (hlvl : lvl < s.bandS.rows.length)
    (hreach : freq ≤ s.bandLimit (s.bandS.row lvl))
    (hbelow : ∀ j < lvl, s.bandLimit (s.bandS.row j) < freq) :
    si5351GetHarmonicLvl s freq = some lvl := by
  have hrow : ∀ j (hj : j < s.bandS.rows.length), s.bandS.rows[j] = s.bandS.row j :=
    fun j hj => List.getElem_eq_getD _
  refine List.findIdx?_eq_some_iff_getElem.mpr ⟨hlvl, ?_, fun j hj => ?_⟩
  · rw [hrow lvl hlvl]
    exact decide_eq_true hreach
  · rw [hrow j (Nat.lt_trans hj hlvl), decide_eq_true_eq]
    exact Nat.not_le_of_lt (hbelow j hj)

theorem three_lt_length (t : BandTable) : 3 < t.rows.length := by
  cases t <;> decide

theorem bandLimit_zero (s : Setup) : s.bandLimit (s.bandS.row 0) = 0 := by
  have hzero : (s.bandS.row 0).freq = 0 := by cases s.bandS <;> rfl
  simp [Setup.bandLimit, hzero]

theorem bandLimit_one (s : Setup) : s.bandLimit (s.bandS.row 1) = (s.bandS.row 1).freq :=
  bandLimit_of_le (by cases s.bandS <;> decide)

theorem le_bandLimit_two (s : Setup) : 100000000 ≤ s.bandLimit (s.bandS.row 2) := by
  have hedge : 100000000 ≤ (s.bandS.row 2).freq := by cases s.bandS <;> decide
  rw [bandLimit_of_le (Nat.le_trans (by decide) hedge)]
  exact hedge

theorem harmonicLvl_one (hpos : freq ≠ 0) (hle : freq ≤ (s.bandS.row 1).freq) :
    si5351GetHarmonicLvl s freq = some 1 := by
  refine harmonicLvl_of_first (Nat.lt_trans (by decide) (three_lt_length s.bandS)) ?_ ?_
  · rw [bandLimit_one]
    exact hle
  · intro j hj
    obtain rfl : j = 0 := by omega
    rw [bandLimit_zero]
    exact Nat.pos_of_ne_zero hpos

theorem harmonicLvl_low (hlt : (s.bandS.row 1).freq < freq) (hle : freq ≤ 1000000) :
    si5351GetHarmonicLvl s freq = some 2 := by
  refine harmonicLvl_of_first (Nat.lt_trans (by decide) (three_lt_length s.bandS)) ?_ ?_
  · exact Nat.le_trans hle (Nat.le_trans (by decide) (le_bandLimit_two s))
  · intro j hj
    obtain rfl | rfl : j = 0 ∨ j = 1 := by omega
    · rw [bandLimit_zero]
      exact Nat.zero_lt_of_lt hlt
    · rw [bandLimit_one]
      exact hlt

theorem rows_edges (t : BandTable) :
    (∀ b ∈ t.rows, (b.freq < 20 → b.freq ≤ 11) ∧ (20 ≤ b.freq → b.freq ≤ topEdge t)) ∧
      (∃ b ∈ t.rows, b.freq = 11) ∧ ∃ b ∈ t.rows, b.freq = topEdge t := by
  cases t <;> decide

theorem reached_iff (hmax : freq ≤ frequencyMax) :
    (∃ b ∈ s.bandS.rows, freq ≤ s.bandLimit b) ↔
      freq ≤ topEdge s.bandS ∨ freq ≤ 11 * clampHarmonicThreshold s.harmonicFreqThreshold := by
  obtain ⟨hedges, ⟨last, hlast, heleven⟩, ⟨top, htop, hedge⟩⟩ := rows_edges s.bandS
  have hhigh : 20 ≤ topEdge s.bandS := by cases s.bandS <;> decide
  constructor
  · rintro ⟨b, hb, hle⟩
    obtain ⟨hscaled, hfixed⟩ := hedges b hb
    by_cases hlow : b.freq < 20
    · rw [Setup.bandLimit, if_pos hlow] at hle
      exact .inr (Nat.le_trans hle (Nat.le_trans (Nat.min_le_left _ _)
        (Nat.mul_le_mul_right _ (hscaled hlow))))
    · rw [bandLimit_of_le (Nat.le_of_not_lt hlow)] at hle
      exact .inl (Nat.le_trans hle (hfixed (Nat.le_of_not_lt hlow)))
  · rintro (hle | hle)
    · refine ⟨top, htop, ?_⟩
      rw [bandLimit_of_le (hedge ▸ hhigh), hedge]
      exact hle
    · refine ⟨last, hlast, ?_⟩
      rw [Setup.bandLimit, if_pos (by rw [heleven]; decide), heleven]
      exact Nat.le_min.mpr ⟨hle, Nat.le_trans hmax (by decide)⟩

theorem harmonicLvl_isSome_iff :
    (∃ lvl, si5351GetHarmonicLvl s freq = some lvl) ↔ ∃ b ∈ s.bandS.rows, freq ≤ s.bandLimit b := by
  rw [← Option.isSome_iff_exists]
  simp [si5351GetHarmonicLvl, List.findIdx?_isSome]

theorem prepare_level {lvl driveStrength : Nat} {p : Prepared} (hpos : freq ≠ 0)
    (hlvl : si5351GetHarmonicLvl s freq = some lvl) (hp : prepare s freq driveStrength = some p) :
    p.band = lvl ↔ freq ≠ (s.bandS.row 1).freq := by
  have hedge := row_one_le s.bandS
  unfold prepare at hp
  split at hp
  case isTrue hlt =>
    obtain rfl := Option.some.inj hp
    obtain rfl := Option.some.inj ((harmonicLvl_one hpos (Nat.le_of_lt hlt)).symm.trans hlvl)
    exact iff_of_true rfl (Nat.ne_of_lt hlt)
  case isFalse hge =>
    split at hp
    case isTrue hle =>
      obtain rfl := Option.some.inj hp
      by_cases heq : freq = (s.bandS.row 1).freq
      · obtain rfl := Option.some.inj ((harmonicLvl_one hpos (Nat.le_of_eq heq)).symm.trans hlvl)
        exact iff_of_false nofun fun hne => hne heq
      · have hlt : (s.bandS.row 1).freq < freq := by omega
        obtain rfl := Option.some.inj ((harmonicLvl_low hlt hle).symm.trans hlvl)
        exact iff_of_true rfl heq
    case isFalse hgt =>
      obtain ⟨band, hband, rfl⟩ := Option.map_eq_some_iff.mp hp
      obtain rfl := Option.some.inj (hband.symm.trans hlvl)
      exact iff_of_true rfl (by omega)

/-- The level of a frequency is found in the table, and is the band it is generated in, everywhere
but at the edge of the first band and above the last one. -/
theorem levels_agree_iff (s : Setup) (hmax : freq ≤ frequencyMax) :
    LevelsAgree s freq ↔
      freq ≠ (s.bandS.row 1).freq ∧
        (freq ≤ topEdge s.bandS ∨
          freq ≤ 11 * clampHarmonicThreshold s.harmonicFreqThreshold) := by
  rw [← reached_iff hmax, ← harmonicLvl_isSome_iff]
  constructor
  · rintro ⟨lvl, -, hlvl, hband⟩
    refine ⟨fun heq => ?_, lvl, hlvl⟩
    have hfirst : 20 ≤ (s.bandS.row 1).freq := by cases s.bandS <;> decide
    have hpos : freq ≠ 0 := by omega
    have hlow : freq ≤ 1000000 := by
      have := row_one_le s.bandS
      omega
    obtain ⟨p, hp⟩ := Option.isSome_iff_exists.mp ((prepare_isSome_iff s freq 0).mpr (.inl hlow))
    exact (prepare_level hpos hlvl hp).mp (hband 0 p hpos hp) heq
  · rintro ⟨hne, lvl, hlvl⟩
    exact ⟨lvl, (harmonicLvl_spec hlvl).1, hlvl, fun _ p hpos hp =>
      (prepare_level hpos hlvl hp).mpr hne⟩

theorem levels_agree_at_fm :
    LevelsAgree factorySetup 100000000 ↔
      100000000 ≠ (factorySetup.bandS.row 1).freq ∧
        (100000000 ≤ topEdge factorySetup.bandS ∨
          100000000 ≤ 11 * clampHarmonicThreshold factorySetup.harmonicFreqThreshold) :=
  levels_agree_iff factorySetup (by decide)

/-- The edge of the first band is generated in the second one, and with a threshold of 200 MHz no
band reaches 2.5 GHz. -/
theorem levels_disagree :
    (si5351GetHarmonicLvl factorySetup 26000 = some 1 ∧
        prepare factorySetup 26000 255 = some ⟨2, 416000, 608000, 64, 255⟩) ∧
      si5351GetHarmonicLvl { factorySetup with harmonicFreqThreshold := 200000000 } 2500000000 =
        none := by
  decide

end NanoVNA.HarmonicLevels
