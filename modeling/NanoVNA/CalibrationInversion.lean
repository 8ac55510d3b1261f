import Mathlib.Tactic.NormNum
import NanoVNA.ErrorModel
import NanoVNA.CalibrationComplex
import NanoVNA.CalibrationCollect

namespace NanoVNA.CalibrationInversion

open NanoVNA.DeviceState NanoVNA.Calibration NanoVNA.CalibrationTerms NanoVNA.CalibrationFrame
  NanoVNA.CalibrationCollect NanoVNA.CalibrationComplex NanoVNA.ErrorModel

variable {types : List Standard} {st : CalStatus} {b : ErrorBox ℂ} {c : Point ℝ}

noncomputable def standardOf (b : ErrorBox ℂ) : Standard → ℂ
  | .load => b.reflection 0
  | .open_ => b.reflection 1
  | .short => b.reflection (-1)
  | .thru => b.transmission false 0 1
  | .isoln => b.transmission false 0 0

structure Reduced (types : List Standard) (b : ErrorBox ℂ) : Prop where
  directivity : .load ∈ types ∨ b.ed = 0
  isolation : .isoln ∈ types ∨ b.ex = 0
  tracking : .thru ∈ types ∨ b.t = 1
  sourceMatch : .open_ ∈ types ∧ .short ∈ types ∨ b.es = 0
  reflectionTracking : .open_ ∈ types ∨ .short ∈ types ∨ b.er = 1

/-- No denominator vanishes, and the two that the code guards exceed the guard. -/
structure Solvable (types : List Standard) (b : ErrorBox ℂ) : Prop where
  reflectionTracking : b.er ≠ 0
  tracking : b.t ≠ 0
  openMatch : 1 - b.es ≠ 0
  shortMatch : 1 + b.es ≠ 0
  sourceGuard : .open_ ∈ types → .short ∈ types →
    tiny < Complex.normSq (b.reflection 1 - b.reflection (-1))
  trackingGuard : .thru ∈ types → tiny < Complex.normSq b.t

/-- Nothing of an earlier calibration is left that the standards do not replace. -/
structure Replaced (types : List Standard) (st : CalStatus) : Prop where
  load : .load ∈ types ∨ st.load = false
  open_ : .open_ ∈ types ∨ st.open_ = false
  short : .short ∈ types ∨ st.short = false
  thru : .thru ∈ types ∨ st.thru = false ∧ st.et = false
  isoln : .isoln ∈ types ∨ st.isoln = false
  reflection : .open_ ∈ types ∨ .short ∈ types ∨ st.es = false ∧ st.er = false

/-- The status before `cal_done` shows the standards collected and no terms. -/
structure Shows (types : List Standard) (st : CalStatus) : Prop where
  load : st.load = true ↔ .load ∈ types
  open_ : st.open_ = true ↔ .open_ ∈ types
  short : st.short = true ↔ .short ∈ types
  thru : st.thru = true ↔ .thru ∈ types
  isoln : st.isoln = true ↔ .isoln ∈ types
  reflection : .open_ ∉ types → .short ∉ types → st.es = false ∧ st.er = false
  transmission : .thru ∉ types → st.et = false

theorem shows_statusAfter (h : Replaced types st) : Shows types (statusAfter types st) := by
  obtain ⟨hload, hopen, hshort, hthru, hisoln, hreflection⟩ := h
  refine ⟨?_, ?_, ?_, ?_, ?_, ?_, ?_⟩
  · exact statusAfter_shows (fun st std => (flagged_captures st std).1) hload
  · exact statusAfter_shows (fun st std => (flagged_captures st std).2.1) hopen
  · exact statusAfter_shows (fun st std => (flagged_captures st std).2.2.1) hshort
  · exact statusAfter_shows (fun st std => (flagged_captures st std).2.2.2.1)
      (hthru.imp_right And.left)
  · exact statusAfter_shows (fun st std => (flagged_captures st std).2.2.2.2) hisoln
  · intro hno hns
    obtain ⟨hes, her⟩ := (hreflection.resolve_left hno).resolve_left hns
    exact ⟨statusAfter_false (fun st std => (flagged_terms st std).1) hes,
      statusAfter_false (fun st std => (flagged_terms st std).2.1) her⟩
  · intro hnt
    exact statusAfter_false (fun st std => (flagged_terms st std).2.2) (hthru.resolve_left hnt).2

section Terms

variable (hst : Shows types st) (hcell : ∀ std ∈ types, toComplex (c std.cell) = standardOf b std)
  (hred : Reduced types b) (hsolv : Solvable types b)
include hst hcell hred

theorem edTerm_recovered : toComplex (edTerm st c) = b.ed := by
  unfold edTerm
  split
  · rename_i hload
    rw [hcell .load (hst.load.mp hload), standardOf, ErrorBox.reflection, mul_zero, zero_div,
      add_zero]
  · rename_i hload
    rw [hred.directivity.resolve_left fun hmem => hload (hst.load.mpr hmem), toComplex_zero]

theorem exTerm_recovered : toComplex (exTerm st c) = b.ex := by
  unfold exTerm
  split
  · rename_i hisoln
    rw [hcell .isoln (hst.isoln.mp hisoln), standardOf]
    simp [ErrorBox.transmission]
  · rename_i hisoln
    rw [hred.isolation.resolve_left fun hmem => hisoln (hst.isoln.mpr hmem), toComplex_zero]

include hsolv

theorem reflectionTerms_recovered :
    toComplex (reflectionTerms st (edTerm st c) c).1 = b.es ∧
      toComplex (reflectionTerms st (edTerm st c) c).2 = b.er := by
  have hed := edTerm_recovered hst hcell hred
  unfold reflectionTerms
  by_cases hs : .short ∈ types
  · have hshort : toComplex (c Standard.short.cell) = b.reflection (-1) := hcell .short hs
    by_cases ho : .open_ ∈ types
    · have hopen : toComplex (c Standard.open_.cell) = b.reflection 1 := hcell .open_ ho
      rw [if_pos ⟨hst.short.mpr hs, hst.open_.mpr ho⟩]
      have hguard := hsolv.sourceGuard ho hs
      rw [← hopen, ← hshort] at hguard
      have hes :
          toComplex (esOf (edTerm st c) (c Standard.open_.cell) (c Standard.short.cell)) = _ :=
        esOf_toComplex hguard
      rw [hed, hopen, hshort, sourceMatch_of_open_short two_ne_zero hsolv.reflectionTracking
        hsolv.openMatch hsolv.shortMatch] at hes
      refine ⟨hes, ?_⟩
      dsimp only
      rw [erOf_negative, hes, hed, hshort, tracking_of_short hsolv.shortMatch]
    · have hopen : st.open_ = false := Bool.eq_false_iff.mpr fun h => ho (hst.open_.mp h)
      have hes : b.es = 0 := hred.sourceMatch.resolve_left fun h => ho h.1
      simp only [hopen, hst.short.mpr hs, Bool.false_eq_true, and_false, if_false, if_true]
      refine ⟨hes.symm, ?_⟩
      have htrack := tracking_of_short hsolv.shortMatch
      rw [hes] at htrack
      rw [erOf_negative, toComplex_zero, hed, hshort, htrack]
  · have hshort : st.short = false := Bool.eq_false_iff.mpr fun h => hs (hst.short.mp h)
    have hes : b.es = 0 := hred.sourceMatch.resolve_left fun h => hs h.2
    by_cases ho : .open_ ∈ types
    · simp only [hshort, hst.open_.mpr ho, Bool.false_eq_true, false_and, if_false, if_true]
      refine ⟨hes.symm, ?_⟩
      have htrack := tracking_of_open hsolv.openMatch
      rw [hes] at htrack
      rw [erOf_positive, toComplex_zero, hed, hcell .open_ ho, standardOf, htrack]
    · have hopen : st.open_ = false := Bool.eq_false_iff.mpr fun h => ho (hst.open_.mp h)
      obtain ⟨hesf, herf⟩ := hst.reflection ho hs
      have her : b.er = 1 := (hred.reflectionTracking.resolve_left ho).resolve_left hs
      simp only [hshort, hopen, hesf, herf, Bool.false_eq_true, false_and, if_false]
      exact ⟨hes.symm, her.symm⟩

theorem etTerm_recovered : toComplex (etTerm st (exTerm st c) c) = 1 / b.t := by
  have hex := exTerm_recovered hst hcell hred
  unfold etTerm
  by_cases ht : .thru ∈ types
  · have hthru := hcell .thru ht
    have hdiff : toComplex (c Standard.thru.cell) - toComplex (exTerm st c) = b.t := by
      rw [hthru, hex, standardOf]
      simp [ErrorBox.transmission]
    have hguard := hsolv.trackingGuard ht
    rw [← hdiff] at hguard
    rw [if_pos (hst.thru.mpr ht), etOf_toComplex hguard, hdiff]
  · have hthru : ¬ st.thru = true := fun h => ht (hst.thru.mp h)
    rw [if_neg hthru, hst.transmission ht, hred.tracking.resolve_left ht]
    simp

end Terms

/-- What a sample of a two-port with the reflection `g` and the transmission `s21` measures. -/
structure MeasuredAs (b : ErrorBox ℂ) (matched : Bool) (g s21 : ℂ) (data : Data ℝ) : Prop where
  s11 : toComplex data.s11 = b.reflection g
  s21 : toComplex data.s21 = b.transmission matched g s21

theorem applyCh0_s21 (data : Data ℝ) (c : Point ℝ) : (applyCh0ErrorTerm data c).s21 = data.s21 := by
  unfold applyCh0ErrorTerm
  dsimp only
  split <;> rfl

theorem correct_recovers {g s21 : ℂ} {data : Data ℝ} (her : b.er ≠ 0) (ht : b.t ≠ 0)
    (hg : 1 - b.es * g ≠ 0) (hed : toComplex (c Term.ed.cell) = b.ed)
    (hes : toComplex (c Term.es.cell) = b.es) (hr : toComplex (c Term.er.cell) = b.er)
    (het : toComplex (c Term.et.cell) = 1 / b.t) (hex : toComplex (c Term.ex.cell) = b.ex)
    (hdata : MeasuredAs b st.enhancedResponse g s21 data) :
    toComplex (correct st data c).s11 = g ∧ toComplex (correct st data c).s21 = s21 := by
  have hs11 : toComplex (applyCh0ErrorTerm data c).s11 = g := by
    rw [applyCh0_toComplex, hdata.s11, hed, hes, hr, reflection_recovered her hg]
  have hkeep : (correct st data c).s11 = (applyCh0ErrorTerm data c).s11 := by
    unfold correct applyCh1ErrorTerm
    dsimp only
    split <;> rfl
  refine ⟨by rw [hkeep, hs11], ?_⟩
  rw [correct, applyCh1_toComplex, hs11, applyCh0_s21, hdata.s21, hes, het, hex]
  cases st.enhancedResponse with
  | true =>
    rw [if_pos rfl]
    exact matched_transmission_recovered ht hg
  | false => exact transmission_recovered ht

structure TermsOf (b : ErrorBox ℂ) (c : Point ℝ) : Prop where
  ed : toComplex (c Term.ed.cell) = b.ed
  es : toComplex (c Term.es.cell) = b.es
  er : toComplex (c Term.er.cell) = b.er
  et : toComplex (c Term.et.cell) = 1 / b.t
  ex : toComplex (c Term.ex.cell) = b.ex

theorem calibrate_terms {s : Vna ℝ} {captures : List (Capture ℝ)} (hne : captures ≠ [])
    (hclean : Replaced (captures.map Prod.fst) (renewGrid s.props).calStatus)
    {boxes : Nat → ErrorBox ℂ}
    (hmeasured : ∀ capture ∈ captures, ∀ i < s.props.sweepPoints,
      toComplex (capture.2 capture.1.src i) = standardOf (boxes i) capture.1)
    (hred : ∀ i < s.props.sweepPoints, Reduced (captures.map Prod.fst) (boxes i))
    (hsolv : ∀ i < s.props.sweepPoints, Solvable (captures.map Prod.fst) (boxes i)) :
    (calibrate captures s).props.calSweepPoints = s.props.sweepPoints ∧
      ∀ i < s.props.sweepPoints, TermsOf (boxes i) ((calibrate captures s).props.calData i) := by
  obtain ⟨hgrid, hpoints, hstatus⟩ := collectAll_spec hne s
  obtain ⟨_, _, hframe, _⟩ := framed_calDone (collectAll captures s)
  have hcal : (calibrate captures s).props.calSweepPoints = s.props.sweepPoints := by
    rw [calibrate, hframe]
    exact hgrid.points.trans hpoints
  refine ⟨hcal, fun i hi => ?_⟩
  have hshows := shows_statusAfter hclean
  rw [← hstatus] at hshows
  have hcell : ∀ std ∈ captures.map Prod.fst,
      toComplex ((collectAll captures s).props.calData i std.cell) = standardOf (boxes i) std := by
    intro std hstd
    refine collectAll_cell (P := fun x => toComplex x = standardOf (boxes i) std) ?_ (.inl hstd)
    intro capture hcapture hfst
    rw [← hfst]
    exact hmeasured capture hcapture i hi
  obtain ⟨hes, her⟩ := reflectionTerms_recovered hshows hcell (hred i hi) (hsolv i hi)
  have hterms := (calDone_terms (s := collectAll captures s) (Nat.lt_of_lt_of_eq hi hpoints.symm)).2
  rw [← calibrate] at hterms
  rw [hterms]
  exact ⟨edTerm_recovered hshows hcell (hred i hi), hes, her,
    etTerm_recovered hshows hcell (hred i hi) (hsolv i hi),
    exTerm_recovered hshows hcell (hred i hi)⟩

/-- Calibration inverts the error model that is left for the standards collected, with the plain and
with the enhanced response. -/
theorem calibration_recovers {s : Vna ℝ} {captures : List (Capture ℝ)} (hne : captures ≠ [])
    (hclean : Replaced (captures.map Prod.fst) (renewGrid s.props).calStatus)
    {boxes : Nat → ErrorBox ℂ}
    (hmeasured : ∀ capture ∈ captures, ∀ i < s.props.sweepPoints,
      toComplex (capture.2 capture.1.src i) = standardOf (boxes i) capture.1)
    (hred : ∀ i < s.props.sweepPoints, Reduced (captures.map Prod.fst) (boxes i))
    (hsolv : ∀ i < s.props.sweepPoints, Solvable (captures.map Prod.fst) (boxes i)) :
    ∀ i < (calibrate captures s).props.calSweepPoints, ∀ st g s21 data, 1 - (boxes i).es * g ≠ 0 →
      MeasuredAs (boxes i) st.enhancedResponse g s21 data →
      let corrected := correct st data ((calibrate captures s).props.calData i)
      toComplex corrected.s11 = g ∧ toComplex corrected.s21 = s21 := by
  intro i hi st g s21 data hg hdata
  obtain ⟨hcal, hterms⟩ := calibrate_terms hne hclean hmeasured hred hsolv
  rw [hcal] at hi
  have h := hterms i hi
  exact correct_recovers (hsolv i hi).reflectionTracking (hsolv i hi).tracking hg h.ed h.es h.er
    h.et h.ex hdata

def idealCaptures (load open_ short thru isoln : Sample ℝ) : List (Capture ℝ) :=
  [(.load, fun _ _ => load), (.open_, fun _ _ => open_), (.short, fun _ _ => short),
    (.thru, fun _ _ => thru), (.isoln, fun _ _ => isoln)]

theorem idealCaptures_replace (load open_ short thru isoln : Sample ℝ) (st : CalStatus) :
    Replaced ((idealCaptures load open_ short thru isoln).map Prod.fst) st := by
  constructor <;> simp [idealCaptures]

theorem toComplex_ofReal (x : ℝ) : toComplex ⟨x, 0⟩ = x := rfl

theorem calibration_recovers_open :
    let captures := idealCaptures ⟨1, 0⟩ ⟨3, 0⟩ ⟨1 / 3, 0⟩ ⟨2, 0⟩ ⟨0, 0⟩
    let s := calibrate captures (defaultVna ℝ .f072)
    let corrected := correct s.props.calStatus ⟨⟨3, 0⟩, ⟨10, 0⟩⟩ (s.props.calData 0)
    toComplex corrected.s11 = 1 ∧ toComplex corrected.s21 = 5 := by
  intro captures s
  let b : ErrorBox ℂ := ⟨1, 1 / 2, 1, 0, 2⟩
  have hmeasured : ∀ capture ∈ captures, ∀ i < (defaultVna ℝ .f072).props.sweepPoints,
      toComplex (capture.2 capture.1.src i) = standardOf ((fun _ => b) i) capture.1 := by
    intro capture hcapture i _
    simp only [captures, idealCaptures, List.mem_cons, List.not_mem_nil, or_false] at hcapture
    obtain rfl | rfl | rfl | rfl | rfl := hcapture <;>
      norm_num [b, toComplex_ofReal, standardOf, ErrorBox.reflection, ErrorBox.transmission]
  have hred : Reduced (captures.map Prod.fst) b := by
    constructor <;> simp [captures, idealCaptures]
  have hsolv : Solvable (captures.map Prod.fst) b := by
    refine ⟨?_, ?_, ?_, ?_, fun _ _ => ?_, fun _ => ?_⟩ <;>
      norm_num [b, tiny, ErrorBox.reflection, Complex.normSq_apply]
  have hdata : MeasuredAs b s.props.calStatus.enhancedResponse 1 5 ⟨⟨3, 0⟩, ⟨10, 0⟩⟩ := by
    have hplain : s.props.calStatus.enhancedResponse = false := rfl
    rw [hplain]
    constructor <;> norm_num [b, toComplex_ofReal, ErrorBox.reflection, ErrorBox.transmission]
  have hpoints : 0 < s.props.calSweepPoints := by
    have hcal : s.props.calSweepPoints = 101 := rfl
    omega
  have hg : 1 - b.es * 1 ≠ 0 := by norm_num [b]
  exact calibration_recovers (List.cons_ne_nil _ _) (idealCaptures_replace ..) hmeasured
    (fun _ _ => hred) (fun _ _ => hsolv) 0 hpoints _ 1 5 _ hg hdata

/-- A transmission tracking of 1e-11 is taken for no signal at all, and the transmission of the
through is corrected to 1e-11. -/
theorem small_tracking_is_replaced :
    let captures := idealCaptures ⟨0, 0⟩ ⟨1, 0⟩ ⟨-1, 0⟩ ⟨1 / 10 ^ 11, 0⟩ ⟨0, 0⟩
    let s := calibrate captures (defaultVna ℝ .f072)
    let b : ErrorBox ℂ := ⟨0, 0, 1, 0, 1 / 10 ^ 11⟩
    (∀ capture ∈ captures, ∀ i < 101,
      toComplex (capture.2 capture.1.src i) = standardOf b capture.1) ∧
      MeasuredAs b false 0 1 ⟨⟨0, 0⟩, ⟨1 / 10 ^ 11, 0⟩⟩ ∧
      toComplex (correct s.props.calStatus ⟨⟨0, 0⟩, ⟨1 / 10 ^ 11, 0⟩⟩ (s.props.calData 0)).s21 ≠ 1 := by
  intro captures s b
  refine ⟨?_, ?_, ?_⟩
  · intro capture hcapture i _
    simp only [captures, idealCaptures, List.mem_cons, List.not_mem_nil, or_false] at hcapture
    obtain rfl | rfl | rfl | rfl | rfl := hcapture <;>
      norm_num [b, toComplex_ofReal, standardOf, ErrorBox.reflection, ErrorBox.transmission]
  · constructor <;> norm_num [b, toComplex_ofReal, ErrorBox.reflection, ErrorBox.transmission]
  · have hcells := (calDone_terms (s := collectAll captures (defaultVna ℝ .f072)) (i := 0)
      (by decide)).2
    have het : s.props.calData 0 Term.et.cell = ⟨1, 0⟩ := by
      have hsmall : etOf (⟨0, 0⟩ : Sample ℝ) ⟨1 / 10 ^ 11, 0⟩ = ⟨1, 0⟩ := by norm_num [etOf, tiny]
      exact (congrFun hcells Term.et.cell).trans hsmall
    have hex : s.props.calData 0 Term.ex.cell = ⟨0, 0⟩ := congrFun hcells Term.ex.cell
    have hplain : s.props.calStatus.enhancedResponse = false := rfl
    have hkeep : (applyCh0ErrorTerm ⟨⟨0, 0⟩, ⟨1 / 10 ^ 11, 0⟩⟩ (s.props.calData 0)).s21 =
        ⟨1 / 10 ^ 11, 0⟩ := applyCh0_s21 ..
    rw [correct, applyCh1_toComplex, hplain, hkeep, het, hex, toComplex_ofReal]
    norm_num

end NanoVNA.CalibrationInversion
