import Mathlib.Tactic.Linarith
import Mathlib.Tactic.LinearCombination
import NanoVNA.CalibrationInversion
import NanoVNA.MeasurementPipeline
import NanoVNA.ReferenceImpedance

namespace NanoVNA.Renormalization

open NanoVNA.DeviceState NanoVNA.Calibration NanoVNA.CalibrationComplex NanoVNA.CalibrationCollect
open NanoVNA.CalibrationInversion NanoVNA.ErrorModel NanoVNA.ReferenceImpedance
open NanoVNA.SweepPoint NanoVNA.SweepMachine NanoVNA.SweepInvariant NanoVNA.MeasurementPipeline
open NanoVNA.BandStrategy (factorySetup)
open NanoVNA.ChannelIsolation (cleared cleared_fresh)
open NanoVNA.SweepSnapshot (Processing renormalize renormalizes)

/-- The corrected S11 of every point is the reflection of the load at a port of `calLoadR`. -/
structure Referenced (cfg : Config ℝ) (calLoadR : ℝ) (z : Nat → ℂ) : Prop where
  reflects : ∀ i < points cfg, z i + calLoadR ≠ 0
  corrected : ∀ i < points cfg, toComplex (correctedS11 cfg i) = reflection (calLoadR : ℂ) (z i)

/-- After a completed sweep S11 refers to `portz`, and every completed sweep so far has
renormalised it once, or never where `portz` is what the calibration refers to. -/
structure Renormalized (cfg : Config ℝ) (portz calLoadR : ℝ) (z : Nat → ℂ) (s : Pipeline ℝ) :
    Prop where
  stored : s.returned = true → ∀ i < points cfg,
    toComplex (s.machine.measured 0 i) = reflection (portz : ℂ) (z i)
  counted : ∀ i < points cfg, s.renormalized i = if portz = calLoadR then 0 else s.completed

/-- The port is not one of 50 ohms, and the denominator for the load passes the guard. -/
def Renormalizes (portz calLoadR : ℝ) (z : ℂ) : Prop :=
  portz ≠ 50 ∧ 1 / 10 ^ 9 <
    Complex.normSq (1 - reflection (calLoadR : ℂ) z * reflection 50 (portz : ℂ))

/-- A change from 50 ohms to `portz` is made where, and as, the calibration and the load ask for a
change from `calLoadR`. -/
def RenormalizesRightly (portz calLoadR : ℝ) (z : ℂ) : Prop :=
  if portz = calLoadR then ¬ Renormalizes portz calLoadR z
  else Renormalizes portz calLoadR z ∧ (calLoadR = 50 ∨ z = 0)

section Point

variable {post : Processing ℝ} {x : Sample ℝ}

theorem toComplex_k (post : Processing ℝ) :
    (((post.portz - 50) / (post.portz + 50) : ℝ) : ℂ) = reflection 50 (post.portz : ℂ) := by
  rw [reflection]
  push_cast
  rfl

theorem one_sub_toComplex (k : ℝ) (x : Sample ℝ) :
    1 - toComplex x * k = ⟨1 - x.re * k, -x.im * k⟩ := by
  apply Complex.ext <;> simp [toComplex]

theorem divides_iff (post : Processing ℝ) (x : Sample ℝ) :
    divides post x ↔
      1 / 10 ^ 9 < Complex.normSq (1 - toComplex x * reflection 50 (post.portz : ℂ)) := by
  rw [← toComplex_k, one_sub_toComplex, Complex.normSq_apply]
  rfl

theorem renormalize_toComplex (h : divides post x) :
    toComplex (renormalize post x) = changed (reflection 50 (post.portz : ℂ)) (toComplex x) := by
  have hsub (k : ℝ) : toComplex x - k = ⟨x.re - k, x.im⟩ := by
    apply Complex.ext <;> simp [toComplex]
  rw [changed, ← toComplex_k, hsub, one_sub_toComplex, div_components, renormalize]
  exact (congrArg toComplex (if_pos h)).trans rfl

end Point

theorem add_fifty_ne_zero {portz : ℝ} (h : 1 < portz) : (portz : ℂ) + 50 ≠ 0 := by
  have hreal : portz + 50 ≠ 0 := by linarith
  exact_mod_cast hreal

section Sweep

variable {cfg : Config ℝ} {post : Processing ℝ} {calLoadR : ℝ} {z : Nat → ℂ} {i : Nat}

theorem changes_iff (hbuilt : post.zRenormalization = true) (hportz : 1 < post.portz)
    (hch0 : cfg.mask.ch0Measure = true) (href : Referenced cfg calLoadR z) (hi : i < points cfg) :
    Changes cfg post i ↔ Renormalizes post.portz calLoadR (z i) := by
  rw [Changes, divides_iff, href.corrected i hi, Renormalizes, renormalizes, hbuilt, hch0]
  simp [hportz]

/-- What the pipeline takes for a reflection at 50 ohms it refers to `portz * calLoadR / 50`. -/
theorem settled_changed (hportz : 1 < post.portz) (href : Referenced cfg calLoadR z)
    (hi : i < points cfg) (hchange : Changes cfg post i) :
    toComplex (settledS11 cfg post i) = reflection (post.portz * calLoadR / 50 : ℂ) (z i) := by
  have hp := add_fifty_ne_zero hportz
  rw [settledS11, if_pos hchange, renormalize_toComplex hchange.2, href.corrected i hi]
  exact changed_reflection two_ne_zero (by norm_num) hp (href.reflects i hi)

theorem settled_same (href : Referenced cfg calLoadR z) (hi : i < points cfg)
    (hsame : ¬ Changes cfg post i) :
    toComplex (settledS11 cfg post i) = reflection (calLoadR : ℂ) (z i) := by
  rw [settledS11, if_neg hsame, href.corrected i hi]

theorem add_ne_zero_of_renormalizes {portz : ℝ} {z : ℂ} (hp : (portz : ℂ) + 50 ≠ 0)
    (hz : z + calLoadR ≠ 0) (h : Renormalizes portz calLoadR z) :
    z + portz * calLoadR / 50 ≠ 0 := by
  intro hzero
  have hnum : (50 : ℂ) * z + portz * calLoadR = 0 := by linear_combination 50 * hzero
  have hnone : 1 - reflection (calLoadR : ℂ) z * reflection 50 (portz : ℂ) = 0 := by
    rw [one_sub_reflection_mul hp hz, hnum, mul_zero, zero_div]
  have hguard := h.2
  rw [hnone, map_zero] at hguard
  norm_num at hguard

theorem point_iff (hbuilt : post.zRenormalization = true) (hportz : 1 < post.portz)
    (hch0 : cfg.mask.ch0Measure = true) (href : Referenced cfg calLoadR z) (hi : i < points cfg)
    (hz : z i + post.portz ≠ 0) :
    (toComplex (settledS11 cfg post i) = reflection (post.portz : ℂ) (z i) ∧
        (Changes cfg post i ↔ post.portz ≠ calLoadR)) ↔
      RenormalizesRightly post.portz calLoadR (z i) := by
  have hchange := changes_iff hbuilt hportz hch0 href hi
  rw [RenormalizesRightly, ← hchange]
  by_cases hsame : post.portz = calLoadR
  · rw [if_pos hsame]
    constructor
    · rintro ⟨-, hiff⟩ hchanges
      exact hiff.mp hchanges hsame
    · intro hnot
      refine ⟨?_, iff_of_false hnot fun hne => hne hsame⟩
      rw [settled_same href hi hnot, hsame]
  · rw [if_neg hsame]
    have hp : (post.portz : ℂ) ≠ 0 := by
      have hreal : post.portz ≠ 0 := by linarith
      exact_mod_cast hreal
    have hvalue : Changes cfg post i →
        (toComplex (settledS11 cfg post i) = reflection (post.portz : ℂ) (z i) ↔
          calLoadR = 50 ∨ z i = 0) := by
      intro hchanges
      have hden := add_ne_zero_of_renormalizes (add_fifty_ne_zero hportz) (href.reflects i hi)
        (hchange.mp hchanges)
      rw [settled_changed hportz href hi hchanges, reflection_eq_iff two_ne_zero hden hz, or_comm]
      refine or_congr_left ?_
      rw [div_eq_iff (by norm_num), mul_right_inj' hp]
      norm_cast
    constructor
    · rintro ⟨hstored, hiff⟩
      have hchanges := hiff.mpr hsame
      exact ⟨hchanges, (hvalue hchanges).mp hstored⟩
    · rintro ⟨hchanges, hwhen⟩
      exact ⟨(hvalue hchanges).mpr hwhen, iff_of_true hchanges hsame⟩

end Sweep

section Reference

variable {cfg : Config ℝ} {calLoadR : ℝ} {z : Nat → ℂ} {boxes : Nat → ErrorBox ℂ}

theorem standardOf_load (b : ErrorBox ℂ) (calLoadR : ℝ) :
    standardOf b .load = b.reflection (reflection (calLoadR : ℂ) calLoadR) := by
  rw [reflection_self, standardOf]

structure PlainSweep (cfg : Config ℝ) : Prop where
  ch0 : cfg.mask.ch0Measure = true
  corrects : cfg.mask.applyCalibration = true
  onGrid : cfg.mask.useInterpolation = false
  undelayed : cfg.mask.applyEdelayS11 = false

theorem referenced_of_terms (hplain : PlainSweep cfg)
    (hterms : ∀ i < points cfg, TermsOf (boxes i) (cfg.props.calData i))
    (hz : ∀ i < points cfg, z i + calLoadR ≠ 0)
    (her : ∀ i < points cfg, (boxes i).er ≠ 0)
    (hmatch : ∀ i < points cfg, 1 - (boxes i).es * reflection (calLoadR : ℂ) (z i) ≠ 0)
    (hmeasured : ∀ i < points cfg, toComplex (cfg.response (pointFrequency cfg i) 0) =
      (boxes i).reflection (reflection (calLoadR : ℂ) (z i))) :
    Referenced cfg calLoadR z := by
  refine ⟨hz, fun i hi => ?_⟩
  have h := hterms i hi
  have hpoint : correctedS11 cfg i = (applyCh0ErrorTerm
      ⟨cfg.response (pointFrequency cfg i) 0, ⟨0, 0⟩⟩ (cfg.props.calData i)).s11 := by
    simp only [correctedS11, pointS11, hplain.ch0, if_true, processCh0, hplain.corrects, pointTerms,
      pointIndex, hplain.onGrid, calInterpolate, hplain.undelayed, Bool.false_eq_true, if_false]
  rw [hpoint, applyCh0_toComplex, hmeasured i hi, h.ed, h.es, h.er]
  exact reflection_recovered (her i hi) (hmatch i hi)

theorem referenced_of_calibration {s : Vna ℝ} {captures : List (Capture ℝ)} (hne : captures ≠ [])
    (hclean : Replaced (captures.map Prod.fst) (renewGrid s.props).calStatus)
    (hcaptured : ∀ capture ∈ captures, ∀ i < s.props.sweepPoints,
      toComplex (capture.2 capture.1.src i) = standardOf (boxes i) capture.1)
    (hred : ∀ i < s.props.sweepPoints, Reduced (captures.map Prod.fst) (boxes i))
    (hsolv : ∀ i < s.props.sweepPoints, Solvable (captures.map Prod.fst) (boxes i))
    (hplain : PlainSweep cfg) (hprops : cfg.props = (calibrate captures s).props)
    (hgrid : points cfg ≤ s.props.sweepPoints) (hz : ∀ i < points cfg, z i + calLoadR ≠ 0)
    (hmatch : ∀ i < points cfg, 1 - (boxes i).es * reflection (calLoadR : ℂ) (z i) ≠ 0)
    (hmeasured : ∀ i < points cfg, toComplex (cfg.response (pointFrequency cfg i) 0) =
      (boxes i).reflection (reflection (calLoadR : ℂ) (z i))) :
    Referenced cfg calLoadR z := by
  obtain ⟨-, hterms⟩ := calibrate_terms hne hclean hcaptured hred hsolv
  refine referenced_of_terms hplain (fun i hi => ?_) hz (fun i hi => ?_) hmatch hmeasured
  · rw [hprops]
    exact hterms i (hi.trans_le hgrid)
  · exact (hsolv i (hi.trans_le hgrid)).reflectionTracking

end Reference

section Runs

variable {cfg : Config ℝ} {post : Processing ℝ} {calLoadR : ℝ} {z : Nat → ℂ} {m₀ : Machine ℝ}

/-- All the runs from a machine on which no sweep has begun, in slices of any kind. -/
def AllRenormalized (cfg : Config ℝ) (post : Processing ℝ) (calLoadR : ℝ) (z : Nat → ℂ)
    (m₀ : Machine ℝ) : Prop :=
  ∀ (events : List (Event ℝ)) (s : Pipeline ℝ),
    events.foldlM (event cfg post) (started m₀) = some s → Renormalized cfg post.portz calLoadR z s

variable (hbuilt : post.zRenormalization = true) (hportz : 1 < post.portz)
  (hch0 : cfg.mask.ch0Measure = true) (href : Referenced cfg calLoadR z)
  (hz : ∀ i < points cfg, z i + post.portz ≠ 0) (hfresh : Fresh m₀)
include hbuilt hportz hch0 href hz hfresh

theorem rightly_of_allRenormalized (hpoints : points cfg ≤ sweepPointsMax cfg.board)
    (hall : AllRenormalized cfg post calLoadR z m₀) {i : Nat} (hi : i < points cfg) :
    RenormalizesRightly post.portz calLoadR (z i) := by
  obtain ⟨slice, s, hs, hreturned, hcompleted⟩ := execute_completes post hpoints hfresh
  have hbetween := between_run hch0 hfresh hs
  have h := hall _ s hs
  refine (point_iff hbuilt hportz hch0 href hi (hz i hi)).mp ⟨?_, ?_⟩
  · rw [← hbetween.stored hreturned i hi]
    exact h.stored hreturned i hi
  · have hcount := (hbetween.counted i hi).symm.trans (h.counted i hi)
    rw [hcompleted] at hcount
    by_cases hchange : Changes cfg post i <;> by_cases hsame : post.portz = calLoadR <;>
      simp [hchange, hsame] at hcount ⊢

theorem allRenormalized_of_rightly
    (hright : ∀ i < points cfg, RenormalizesRightly post.portz calLoadR (z i)) :
    AllRenormalized cfg post calLoadR z m₀ := by
  intro events s hs
  have hbetween := between_run hch0 hfresh hs
  have hpoint := fun i hi => (point_iff hbuilt hportz hch0 href hi (hz i hi)).mpr (hright i hi)
  refine ⟨fun hreturned i hi => ?_, fun i hi => ?_⟩
  · rw [hbetween.stored hreturned i hi]
    exact (hpoint i hi).1
  · rw [hbetween.counted i hi]
    by_cases hsame : post.portz = calLoadR
    · rw [if_pos hsame, if_neg fun hchange => (hpoint i hi).2.mp hchange hsame]
    · rw [if_neg hsame, if_pos ((hpoint i hi).2.mpr hsame)]

end Runs

/-- In every run of sweeps, however cut into slices, S11 refers to `portz` after each completed
sweep and was renormalised once for each, or never where nothing was to be done, exactly when the
change from 50 ohms that the pipeline makes is the right one at every point. -/
theorem allRenormalized_iff {cfg : Config ℝ} {post : Processing ℝ} {calLoadR : ℝ} {z : Nat → ℂ}
    {m₀ : Machine ℝ} (hbuilt : post.zRenormalization = true) (hportz : 1 < post.portz)
    (hmask : cfg.mask = appMeasurementGetSweepMask cfg.props.calStatus post.portz calLoadR
      cfg.electricalDelayS11 cfg.electricalDelayS21 cfg.s21Offset)
    (hpoints : points cfg ≤ sweepPointsMax cfg.board) (href : Referenced cfg calLoadR z)
    (hz : ∀ i < points cfg, z i + post.portz ≠ 0) (hfresh : Fresh m₀) :
    AllRenormalized cfg post calLoadR z m₀ ↔
      ∀ i < points cfg, RenormalizesRightly post.portz calLoadR (z i) := by
  have hch0 : cfg.mask.ch0Measure = true := by rw [hmask, appMeasurementGetSweepMask]
  exact ⟨fun hall _ hi =>
      rightly_of_allRenormalized hbuilt hportz hch0 href hz hfresh hpoints hall hi,
    allRenormalized_of_rightly hbuilt hportz hch0 href hz hfresh⟩

def idealStandards : List (Capture ℝ) := idealCaptures ⟨0, 0⟩ ⟨1, 0⟩ ⟨-1, 0⟩ ⟨1, 0⟩ ⟨0, 0⟩

/-- The default sweep of a load, with the terms of a calibration on a load of `calLoadR`. -/
noncomputable def loadSweep (portz calLoadR load : ℝ) : Config ℝ where
  board := .f072
  props := (calibrate idealStandards (defaultVna ℝ .f072)).props
  grid := (defaultVna ℝ .f072).grid
  setup := factorySetup
  mask := appMeasurementGetSweepMask (calibrate idealStandards (defaultVna ℝ .f072)).props.calStatus
    portz calLoadR 0 0 0
  electricalDelayS11 := 0
  electricalDelayS21 := 0
  s21Offset := 0
  sinCos := fun _ => (0, 1)
  expf := fun _ => 1
  ln10 := 2
  response := fun _ ch => if ch = 0 then ⟨(load - calLoadR) / (load + calLoadR), 0⟩ else ⟨0, 0⟩

theorem loadSweep_referenced (portz : ℝ) {calLoadR load : ℝ} (h : load + calLoadR ≠ 0) :
    Referenced (loadSweep portz calLoadR load) calLoadR fun _ => (load : ℂ) := by
  let b : ErrorBox ℂ := ⟨0, 0, 1, 0, 1⟩
  have hz : (load : ℂ) + calLoadR ≠ 0 := by exact_mod_cast h
  have hcaptured : ∀ capture ∈ idealStandards, ∀ i < (defaultVna ℝ .f072).props.sweepPoints,
      toComplex (capture.2 capture.1.src i) = standardOf b capture.1 := by
    intro capture hcapture i _
    simp only [idealStandards, idealCaptures, List.mem_cons, List.not_mem_nil, or_false] at hcapture
    obtain rfl | rfl | rfl | rfl | rfl := hcapture <;>
      norm_num [b, toComplex_ofReal, standardOf, ErrorBox.reflection, ErrorBox.transmission]
  have hred : Reduced (idealStandards.map Prod.fst) b := by
    constructor <;> simp [idealStandards, idealCaptures]
  have hsolv : Solvable (idealStandards.map Prod.fst) b := by
    refine ⟨?_, ?_, ?_, ?_, fun _ _ => ?_, fun _ => ?_⟩ <;>
      norm_num [b, tiny, ErrorBox.reflection, Complex.normSq_apply]
  have hplain : PlainSweep (loadSweep portz calLoadR load) :=
    ⟨rfl, rfl, rfl, decide_eq_false fun hne => hne rfl⟩
  refine @referenced_of_calibration _ _ _ (fun _ => b) _ _ (List.cons_ne_nil _ _)
    (idealCaptures_replace ..) hcaptured (fun _ _ => hred) (fun _ _ => hsolv) hplain rfl le_rfl
    (fun _ _ => hz) (fun _ _ => ?_) fun _ _ => ?_
  · simp [b]
  · have hload : toComplex ((loadSweep portz calLoadR load).response
        (pointFrequency (loadSweep portz calLoadR load) 0) 0) =
          (((load - calLoadR) / (load + calLoadR) : ℝ) : ℂ) := rfl
    refine hload.trans ?_
    simp [b, ErrorBox.reflection, reflection]

theorem allRenormalized_from_fifty :
    RenormalizesRightly 75 50 100 ∧
      AllRenormalized (loadSweep 75 50 100) ⟨true, 75, id⟩ 50 (fun _ => ((100 : ℝ) : ℂ))
        cleared := by
  have hright : RenormalizesRightly 75 50 100 := by
    rw [RenormalizesRightly, if_neg (by norm_num)]
    refine ⟨⟨by norm_num, ?_⟩, Or.inl rfl⟩
    norm_num [reflection, Complex.normSq_apply]
  have hportz : (1 : ℝ) < 75 := by norm_num
  have href : Referenced (loadSweep 75 50 100) 50 fun _ => ((100 : ℝ) : ℂ) :=
    loadSweep_referenced 75 (by norm_num)
  refine ⟨hright, (allRenormalized_iff rfl hportz rfl (by decide) href (fun _ _ => ?_)
    cleared_fresh).mpr fun _ _ => ?_⟩
  · norm_num
  · exact_mod_cast hright

/-- A load of 75 ohms, measured and wanted at 75 ohms after a calibration at 75 ohms. -/
theorem renormalized_though_equal :
    Referenced (loadSweep 75 75 75) 75 (fun _ => ((75 : ℝ) : ℂ)) ∧
      ¬ AllRenormalized (loadSweep 75 75 75) ⟨true, 75, id⟩ 75 (fun _ => ((75 : ℝ) : ℂ))
        cleared := by
  have hportz : (1 : ℝ) < 75 := by norm_num
  have href : Referenced (loadSweep 75 75 75) 75 fun _ => ((75 : ℝ) : ℂ) :=
    loadSweep_referenced 75 (by norm_num)
  have hpoint : 0 < points (loadSweep 75 75 75) := by decide
  refine ⟨href, fun hall => ?_⟩
  have hright := rightly_of_allRenormalized rfl hportz rfl href (fun _ _ => by norm_num)
    cleared_fresh (by decide) hall hpoint
  rw [RenormalizesRightly, if_pos rfl] at hright
  refine hright ⟨by norm_num, ?_⟩
  norm_num [reflection, Complex.normSq_apply]

end NanoVNA.Renormalization
