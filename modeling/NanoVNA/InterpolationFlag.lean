import NanoVNA.CalibrationSessions
import NanoVNA.SavedSlots
import NanoVNA.SweepFrequency

namespace NanoVNA.InterpolationFlag

open NanoVNA.DeviceState NanoVNA.SweepGrid NanoVNA.SweepFrequency NanoVNA.SavedSlots
  NanoVNA.Calibration NanoVNA.CalibrationFrame NanoVNA.CalibrationCollect
  NanoVNA.CalibrationSessions

variable {R : Type} {p : Properties R}

/-- The sweep in order has the start, the stop and the points of the calibration. -/
def SameGrid (p : Properties R) : Prop :=
  sweepGetOrdered p = (p.calFrequency0, p.calFrequency1) ∧ p.sweepPoints = p.calSweepPoints

instance (p : Properties R) : Decidable (SameGrid p) := inferInstanceAs (Decidable (_ ∧ _))

theorem needInterpolate_iff (p : Properties R) :
    needInterpolate p (sweepGetOrdered p).1 (sweepGetOrdered p).2 p.sweepPoints = true ↔
      ¬ SameGrid p := by
  simp only [needInterpolate, SameGrid, Prod.ext_iff, Bool.or_eq_true, bne_iff_ne]
  tauto

theorem sameGrid_of_current (h : GridCurrent p) : SameGrid p := by
  by_contra hne
  exact Bool.false_ne_true (h.symm.trans ((needInterpolate_iff p).mpr hne))

/-- `cal reset` of the shell -/
def cmdCalReset (s : Vna R) : Vna R := { s with props := { s.props with calStatus := .zero } }

def menuCalResetCb (s : Vna R) : Vna R :=
  { s with
    props := { s.props with calStatus :=
      { CalStatus.zero with enhancedResponse := s.props.calStatus.enhancedResponse } }
    lastsaveid := noSaveSlot }

inductive FlagCall (R : Type)
  | sweepFrequency (type : StimulusType) (freq : UInt32)
  | sweepPoints (points : UInt16)
  | cal (call : CalCall R)
  | cmdReset
  | menuReset
  | loadProperties (id : UInt32) (granted : Bool)

/-- The device, and whether no call has compared the grids since a calibration reset. -/
structure Watched (R : Type) where
  vna : Vna R
  pending : Bool

/-- The flag tells whether the grids differ, and is clear from a reset to the next comparison. -/
def FlagExact (w : Watched R) : Prop :=
  w.vna.props.calStatus.interpolated = true ↔ ¬ SameGrid w.vna.props ∧ w.pending = false

variable {w : Watched R}

theorem flagExact_update (s : Vna R) : FlagExact ⟨appMeasurementUpdateFrequencies s, false⟩ := by
  rw [FlagExact, and_iff_left rfl]
  exact needInterpolate_iff (appMeasurementUpdateFrequencies s).props

theorem flagExact_sweepFrequency (h : FlagExact w) (type : StimulusType) (freq : Nat) :
    FlagExact ⟨setSweepFrequency type freq w.vna, w.pending && type = .var⟩ := by
  obtain ⟨htype, _, _, _, hset⟩ | ⟨htype, _, hset⟩ := setSweepFrequency_cases type freq w.vna
  · rw [hset, decide_eq_false htype, Bool.and_false]
    exact flagExact_update _
  · rw [hset, decide_eq_true htype, Bool.and_true]
    exact h

theorem flagExact_sweepPoints (h : FlagExact w) (board : Board) (points : Nat) :
    FlagExact ⟨setSweepPoints board points w.vna,
      w.pending && clampPoints board points = w.vna.props.sweepPoints⟩ := by
  unfold setSweepPoints
  generalize clampPoints board points = points
  dsimp only
  by_cases hsame : points = w.vna.props.sweepPoints
  · rw [if_pos hsame, decide_eq_true hsame, Bool.and_true]
    exact h
  · rw [if_neg hsame, decide_eq_false hsame, Bool.and_false, FlagExact, and_iff_left rfl]
    let s := appMeasurementUpdateFrequencies
      { w.vna with props := { w.vna.props with sweepPoints := points } }
    exact needInterpolate_iff (updateMarkerIndex s.grid (sweepGetOrdered s.props).1
      (sweepGetOrdered s.props).2 s.props.sweepPoints s.props)

theorem flagExact_collect (h : FlagExact w) (std : Standard) (measured : Fin 2 → Nat → Sample R) :
    FlagExact ⟨{ w.vna with props := collectStandard std measured w.vna.props }, false⟩ := by
  have hsame := sameGrid_of_current (collectStandard_current std measured w.vna.props)
  have hclear : (collectStandard std measured w.vna.props).calStatus.interpolated = false := by
    rw [collectStandard_calStatus, flagged_interpolated]
    obtain hold | hzero := renewGrid_cases w.vna.props
    · rw [hold]
      have hcurrent := renewGrid_current w.vna.props
      rw [hold] at hcurrent
      exact Bool.eq_false_iff.mpr fun hset => (h.mp hset).1 (sameGrid_of_current hcurrent)
    · rw [hzero]
      rfl
  exact iff_of_false (fun hset => Bool.false_ne_true (hclear.symm.trans hset))
    fun hdiff => hdiff.1 hsame

theorem flagExact_reset {st : CalStatus} (hclear : st.interpolated = false) (s : Vna R) :
    FlagExact ⟨{ s with props := { s.props with calStatus := st } }, true⟩ :=
  iff_of_false (fun hset => Bool.false_ne_true (hclear.symm.trans hset))
    fun hdiff => Bool.false_ne_true hdiff.2.symm

variable [Field R] [LinearOrder R]

theorem flagExact_done (h : FlagExact w) : FlagExact ⟨calDone w.vna, w.pending⟩ := by
  obtain ⟨st, cells, hframe, hflag⟩ := framed_calDone w.vna
  unfold FlagExact
  rw [hframe]
  exact (Bool.eq_iff_iff.mp hflag).trans h

def flagCall (board : Board) (w : Watched R) : FlagCall R → Watched R
  | .sweepFrequency type freq =>
    ⟨setSweepFrequency type freq.toNat w.vna, w.pending && type = .var⟩
  | .sweepPoints points =>
    ⟨setSweepPoints board points.toNat w.vna,
      w.pending && clampPoints board points.toNat = w.vna.props.sweepPoints⟩
  | .cal (.collect type measured) =>
    ⟨calCollect type measured w.vna, w.pending && calibrationSet[type]?.isNone⟩
  | .cal .done => ⟨calDone w.vna, w.pending⟩
  | .cmdReset => ⟨cmdCalReset w.vna, true⟩
  | .menuReset => ⟨menuCalResetCb w.vna, true⟩
  | .loadProperties id granted => ⟨(loadProperties board id.toNat granted w.vna).2, false⟩

theorem flagExact_call (board : Board) (h : FlagExact w) (call : FlagCall R) :
    FlagExact (flagCall board w call) := by
  cases call with
  | sweepFrequency type freq => exact flagExact_sweepFrequency h type freq.toNat
  | sweepPoints points => exact flagExact_sweepPoints h board points.toNat
  | cmdReset => exact flagExact_reset rfl w.vna
  | menuReset => exact flagExact_reset rfl { w.vna with lastsaveid := noSaveSlot }
  | loadProperties id granted => exact flagExact_update _
  | cal call =>
    cases call with
    | done => exact flagExact_done h
    | collect type measured =>
      simp only [flagCall, calCollect]
      cases calibrationSet[type]? with
      | none =>
        rw [Option.isNone_none, Bool.and_true]
        exact h
      | some std =>
        rw [Option.isNone_some, Bool.and_false]
        exact flagExact_collect h std measured

/-- In every reachable state the flag tells whether the grids differ, except that a calibration
reset clears it until a call compares the grids again. -/
theorem flag_exact (board : Board) {s : Vna R}
    (h : s.props.calStatus.interpolated = true ↔ ¬ SameGrid s.props) (calls : List (FlagCall R)) :
    FlagExact (calls.foldl (flagCall board) ⟨s, false⟩) := by
  have hstart : FlagExact (⟨s, false⟩ : Watched R) := h.trans (and_iff_left rfl).symm
  generalize (⟨s, false⟩ : Watched R) = w at hstart
  induction calls generalizing w with
  | nil => exact hstart
  | cons call calls ih => exact ih _ (flagExact_call board hstart call)

theorem flag_exact_default :
    FlagExact ([.sweepFrequency .start 1000000, .cal .done, .cmdReset, .sweepPoints 51].foldl
      (flagCall .f072) ⟨defaultVna ℚ .f072, false⟩) :=
  flag_exact .f072 (by decide) _

/-- A reset after the start frequency was changed leaves the flag clear. -/
theorem reset_clears_flag :
    let calls : List (FlagCall ℚ) := [.sweepFrequency .start 1000000, .cmdReset]
    let p := (calls.foldl (flagCall .f072) ⟨defaultVna ℚ .f072, false⟩).vna.props
    p.calStatus.interpolated = false ∧ ¬ SameGrid p := by
  decide

end NanoVNA.InterpolationFlag
