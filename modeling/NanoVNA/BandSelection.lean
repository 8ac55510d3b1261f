import NanoVNA.Word32
import NanoVNA.BandStrategy

namespace NanoVNA.BandSelection

open NanoVNA.Word32 NanoVNA.DeviceState NanoVNA.BandStrategy

/-- The first row that reaches the frequency. Without one the source reads past the table. -/
def si5351GetHarmonicLvl (s : Setup) (freq : Nat) : Option Nat :=
  s.bandS.rows.findIdx? fun b => freq ≤ s.bandLimit b

/-- A request after the choice of the band, scaled where the output divider is used. -/
structure Prepared where
  band : Nat
  freq : Nat
  ofreq : Nat
  rdiv : Nat
  driveStrength : Nat
  deriving DecidableEq, Repr

def prepare (s : Setup) (freq driveStrength : Nat) : Option Prepared :=
  let ofreq := u32 (freq + s.ifOffset)
  if freq < (s.bandS.row 1).freq then
    some ⟨1, u32 (freq * 128), u32 (ofreq * 128), 7 * 16, 0⟩
  else if freq ≤ 1000000 then
    some ⟨2, u32 (freq * 16), u32 (ofreq * 16), 4 * 16, driveStrength⟩
  else (si5351GetHarmonicLvl s freq).map fun band => ⟨band, freq, ofreq, 0, driveStrength⟩

theorem prepare_drive {s : Setup} {freq driveStrength : Nat} {p : Prepared}
    (h : prepare s freq driveStrength = some p) (other : Nat) :
    ∃ drive, prepare s freq other = some { p with driveStrength := drive } := by
  unfold prepare at *
  by_cases hlt : freq < (s.bandS.row 1).freq
  · rw [if_pos hlt] at h ⊢
    exact ⟨0, by rw [← Option.some.inj h]⟩
  · rw [if_neg hlt] at h ⊢
    by_cases hle : freq ≤ 1000000
    · rw [if_pos hle] at h ⊢
      exact ⟨other, by rw [← Option.some.inj h]⟩
    · rw [if_neg hle] at h ⊢
      obtain ⟨band, hband, rfl⟩ := Option.map_eq_some_iff.mp h
      exact ⟨other, Option.map_eq_some_iff.mpr ⟨band, hband, rfl⟩⟩

theorem harmonicLvl_spec {s : Setup} {freq band : Nat}
    (h : si5351GetHarmonicLvl s freq = some band) :
    band < s.bandS.rows.length ∧ freq ≤ s.bandLimit (s.bandS.row band) ∧
      ∀ j < band, s.bandLimit (s.bandS.row j) < freq := by
  obtain ⟨hlt, hle, hall⟩ := List.findIdx?_eq_some_iff_getElem.mp h
  have hrow : ∀ j (hj : j < s.bandS.rows.length), s.bandS.row j = s.bandS.rows[j] :=
    fun j hj => (List.getElem_eq_getD _).symm
  refine ⟨hlt, ?_, fun j hj => ?_⟩
  · rw [hrow band hlt]
    exact of_decide_eq_true hle
  · rw [hrow j (Nat.lt_trans hj hlt)]
    exact Nat.lt_of_not_le fun hj' => hall j hj (decide_eq_true hj')

inductive Selected (s : Setup) (freq driveStrength : Nat) : Prepared → Prop
  | lowest (h : freq < (s.bandS.row 1).freq) :
      Selected s freq driveStrength ⟨1, freq * 128, (freq + s.ifOffset) * 128, 7 * 16, 0⟩
  | low (hlo : (s.bandS.row 1).freq ≤ freq) (hhi : freq ≤ 1000000) :
      Selected s freq driveStrength
        ⟨2, freq * 16, (freq + s.ifOffset) * 16, 4 * 16, driveStrength⟩
  | direct (hlo : 1000000 < freq) {band : Nat} (hband : si5351GetHarmonicLvl s freq = some band) :
      Selected s freq driveStrength ⟨band, freq, freq + s.ifOffset, 0, driveStrength⟩

theorem row_one_le (t : BandTable) : (t.row 1).freq ≤ 32000 := by
  cases t <;> decide

theorem selected_of_prepare {s : Setup} (f : Frequency) {driveStrength : Nat} {p : Prepared}
    (h : prepare s f driveStrength = some p) : Selected s f driveStrength p := by
  have hrow := row_one_le s.bandS
  have hoff := s.ifOffset.2.2
  have hmax : f.val ≤ 2700000000 := f.2.2
  have ho : u32 (f + s.ifOffset) = f + s.ifOffset := u32_of_lt (by omega)
  unfold prepare at h
  rw [ho] at h
  split at h
  · rename_i hlt
    obtain rfl := Option.some.inj h
    rw [u32_of_lt (by omega), u32_of_lt (by omega)]
    exact .lowest hlt
  · split at h
    · rename_i hge hlt
      obtain rfl := Option.some.inj h
      rw [u32_of_lt (by omega), u32_of_lt (by omega)]
      exact .low (Nat.not_lt.mp hge) hlt
    · rename_i hgt
      obtain ⟨band, hband, rfl⟩ := Option.map_eq_some_iff.mp h
      exact .direct (Nat.not_le.mp hgt) hband

theorem row_fixedPll (t : BandTable) {band : Nat} (h : band = 1 ∨ band = 2) :
    (t.row band).mode = .fixedPll ∧ (t.row band).mul = 1 ∧ (t.row band).omul = 1 := by
  obtain rfl | rfl := h <;> cases t <;> decide

/-- What the rows above the second promise about the ratios they ask for: `j` is a row below
with a limit of its own, which the frequency has passed. -/
def FixedMultRow (t : BandTable) (band : Nat) : Prop :=
  (t.row band).mode = .fixedMult ∧ 1 ≤ (t.row band).mul ∧
    (t.row band).mul ≤ (t.row band).omul ∧ (t.row band).omul ≤ 15 ∧
    ((t.row band).div = 4 ∨ (t.row band).div = 6 ∨
      (t.row band).div = 8 ∧ 20 ≤ (t.row band).freq ∧ (t.row band).freq ≤ 400000000) ∧
    ∃ j < band, 20 ≤ (t.row j).freq ∧
      4 * 28000000 * (t.row band).omul ≤ ((t.row j).freq + 1) * (t.row band).div

instance (t : BandTable) (band : Nat) : Decidable (FixedMultRow t band) :=
  inferInstanceAs (Decidable (_ ∧ _ ∧ _ ∧ _ ∧ _ ∧ _))

theorem row_fixedMult (t : BandTable) :
    ∀ band < t.rows.length, 3 ≤ band → FixedMultRow t band := by
  cases t <;> decide

theorem bandLimit_of_le {s : Setup} {b : Band} (h : 20 ≤ b.freq) : s.bandLimit b = b.freq :=
  if_neg (Nat.not_lt.mpr h)

theorem bandLimit_below_two (s : Setup) {band : Nat} (h : band < 2) :
    s.bandLimit (s.bandS.row band) ≤ 32000 := by
  cases band with
  | zero =>
    have hz : (s.bandS.row 0).freq = 0 := by cases s.bandS <;> rfl
    simp [Setup.bandLimit, hz]
  | succ band =>
    obtain rfl : band = 0 := by omega
    have hlo : 20 ≤ (s.bandS.row 1).freq := by cases s.bandS <;> decide
    exact Nat.le_trans (Nat.le_of_eq (bandLimit_of_le hlo)) (row_one_le s.bandS)

theorem harmonicLvl_range {s : Setup} {freq band : Nat} (hlo : 1000000 < freq)
    (hband : si5351GetHarmonicLvl s freq = some band) :
    band = 2 ∨ 3 ≤ band ∧ band < s.bandS.rows.length := by
  obtain ⟨hlt, hle, _⟩ := harmonicLvl_spec hband
  have hge : ¬ band < 2 := fun hb => by
    have := bandLimit_below_two s hb
    omega
  omega

theorem harmonicLvl_two {s : Setup} {freq : Nat} (hlo : 1000000 < freq)
    (hhi : freq ≤ 100000000) : si5351GetHarmonicLvl s freq = some 2 := by
  have htwo : s.bandS.row 2 ∈ s.bandS.rows ∧ 100000000 ≤ (s.bandS.row 2).freq := by
    cases s.bandS <;> decide
  have hlimit : freq ≤ s.bandLimit (s.bandS.row 2) := by
    rw [bandLimit_of_le (Nat.le_trans (by decide) htwo.2)]
    exact Nat.le_trans hhi htwo.2
  have hsome : (si5351GetHarmonicLvl s freq).isSome := by
    rw [si5351GetHarmonicLvl, List.findIdx?_isSome, List.any_eq_true]
    exact ⟨_, htwo.1, decide_eq_true hlimit⟩
  obtain ⟨band, hband⟩ := Option.isSome_iff_exists.mp hsome
  cases harmonicLvl_range hlo hband with
  | inl h2 => rw [hband, h2]
  | inr h3 =>
    have hpassed := (harmonicLvl_spec hband).2.2 2 h3.1
    omega

theorem Selected.band_range {s : Setup} {freq driveStrength : Nat} {p : Prepared}
    (h : Selected s freq driveStrength p) :
    (p.band = 1 ∨ p.band = 2) ∨ 3 ≤ p.band ∧ p.band < s.bandS.rows.length := by
  cases h with
  | lowest => exact .inl (.inl rfl)
  | low => exact .inl (.inr rfl)
  | direct hlo hband => exact (harmonicLvl_range hlo hband).imp_left .inr

theorem Selected.band_fixedPll {s : Setup} {freq driveStrength : Nat} {p : Prepared}
    (h : Selected s freq driveStrength p) (hmode : (s.bandS.row p.band).mode = .fixedPll) :
    p.band = 1 ∨ p.band = 2 := by
  cases h.band_range with
  | inl hband => exact hband
  | inr hband =>
    rw [(row_fixedMult s.bandS p.band hband.2 hband.1).1] at hmode
    cases hmode

theorem Selected.band_fixedMult {s : Setup} {freq driveStrength : Nat} {p : Prepared}
    (h : Selected s freq driveStrength p) (hmode : (s.bandS.row p.band).mode = .fixedMult) :
    3 ≤ p.band := by
  cases h.band_range with
  | inl hband =>
    rw [(row_fixedPll s.bandS hband).1] at hmode
    cases hmode
  | inr hband => exact hband.1

/-- The output divider takes back what the frequencies were scaled by. -/
theorem Selected.scale {s : Setup} {freq driveStrength : Nat} {p : Prepared}
    (h : Selected s freq driveStrength p) :
    ∃ j < 8, p.rdiv = j * 16 ∧ p.freq = freq * 2 ^ j ∧ p.ofreq = (freq + s.ifOffset) * 2 ^ j := by
  cases h with
  | lowest => exact ⟨7, by decide, rfl, rfl, rfl⟩
  | low => exact ⟨4, by decide, rfl, rfl, rfl⟩
  | direct => exact ⟨0, by decide, rfl, (Nat.mul_one _).symm, (Nat.mul_one _).symm⟩

theorem Selected.unscaled {s : Setup} {freq driveStrength : Nat} {p : Prepared}
    (h : Selected s freq driveStrength p) (hband : 3 ≤ p.band) :
    p.freq = freq ∧ p.ofreq = freq + s.ifOffset := by
  cases h with
  | lowest => simp at hband
  | low => simp at hband
  | direct => exact ⟨rfl, rfl⟩

theorem Selected.of_high {s : Setup} {freq driveStrength : Nat} {p : Prepared}
    (h : Selected s freq driveStrength p) (hhigh : 1000000 < freq) :
    p.freq = freq ∧ p.driveStrength = driveStrength := by
  have hrow := row_one_le s.bandS
  cases h with
  | lowest hlt => omega
  | low _ hle => omega
  | direct => exact ⟨rfl, rfl⟩

def Reached (s : Setup) (freq : Nat) : Prop :=
  freq ≤ 1000000 ∨ ∃ b ∈ s.bandS.rows, freq ≤ s.bandLimit b

instance (s : Setup) (freq : Nat) : Decidable (Reached s freq) :=
  inferInstanceAs (Decidable (_ ∨ ∃ b ∈ s.bandS.rows, _))

theorem prepare_isSome_iff (s : Setup) (freq driveStrength : Nat) :
    (prepare s freq driveStrength).isSome ↔ Reached s freq := by
  have hrow := row_one_le s.bandS
  have hlvl : (si5351GetHarmonicLvl s freq).isSome ↔
      ∃ b ∈ s.bandS.rows, freq ≤ s.bandLimit b := by
    simp [si5351GetHarmonicLvl, List.findIdx?_isSome]
  unfold prepare Reached
  split
  · exact iff_of_true rfl (.inl (by omega))
  · split
    · rename_i hle
      exact iff_of_true rfl (.inl hle)
    · rename_i hgt
      rw [Option.isSome_map, hlvl]
      exact (or_iff_right hgt).symm

end NanoVNA.BandSelection
