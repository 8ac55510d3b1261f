import Mathlib.Data.Fin.VecNotation
import NanoVNA.Calibration

namespace NanoVNA.CalibrationTerms

open NanoVNA.DeviceState NanoVNA.Calibration

variable {R : Type} {p : Properties R} {i : Nat}

theorem mapPoints_calData (body : Point R → Point R) (p : Properties R) (i : Nat) :
    (mapPoints p body).calData i = if i < p.sweepPoints then body (p.calData i) else p.calData i :=
  forPoints_apply body p.sweepPoints p.calData i

@[simp] theorem openAsShort_sweepPoints (p : Properties R) :
    (openAsShort p).sweepPoints = p.sweepPoints := rfl

theorem point_ext {c c' : Point R} (h0 : c 0 = c' 0) (h1 : c 1 = c' 1) (h2 : c 2 = c' 2)
    (h3 : c 3 = c' 3) (h4 : c 4 = c' 4) : c = c' := by
  funext k
  match k with
  | 0 => exact h0
  | 1 => exact h1
  | 2 => exact h2
  | 3 => exact h3
  | 4 => exact h4

/-- A step of `cal_done` seen at one point of the sweep. -/
structure Step (p p' : Properties R) (i : Nat) (st : CalStatus) (c : Point R) : Prop where
  points : p'.sweepPoints = p.sweepPoints
  status : p'.calStatus = st
  cells : p'.calData i = c

section Cells

variable (hi : i < p.sweepPoints)
include hi

theorem etermSet_at (term : Term) (re im : R) :
    (etermSet p term re im).calData i = Function.update (p.calData i) term.cell ⟨re, im⟩ := by
  rw [etermSet, mapPoints_calData, if_pos hi]

theorem default_spec (there : Bool) (term : Term) (re im : R) :
    Step p (if there then p else etermSet p term re im) i p.calStatus
      (Function.update (p.calData i) term.cell
        (if there then p.calData i term.cell else ⟨re, im⟩)) := by
  cases there with
  | true => exact ⟨rfl, rfl, (Function.update_eq_self ..).symm⟩
  | false => exact ⟨rfl, rfl, etermSet_at hi term re im⟩

variable [Field R]

theorem etermCalcEr_at (sign : Int) :
    (etermCalcEr p sign).calData i = Function.update (p.calData i) Term.er.cell
      (erOf sign (p.calData i Term.ed.cell) (p.calData i Term.es.cell)
        (p.calData i Standard.short.cell)) :=
  (mapPoints_calData _ p i).trans (if_pos hi)

variable [LinearOrder R]

theorem etermCalcEs_at : (etermCalcEs p).calData i = Function.update (p.calData i) Term.es.cell
    (esOf (p.calData i Term.ed.cell) (p.calData i Standard.open_.cell)
      (p.calData i Standard.short.cell)) :=
  (mapPoints_calData _ p i).trans (if_pos hi)

theorem etermCalcEt_at : (etermCalcEt p).calData i = Function.update (p.calData i) Term.et.cell
    (etOf (p.calData i Term.ex.cell) (p.calData i Standard.thru.cell)) :=
  (mapPoints_calData _ p i).trans (if_pos hi)

end Cells

section Terms

variable [Field R]

def edTerm (st : CalStatus) (c : Point R) : Sample R :=
  if st.load then c Standard.load.cell else ⟨0, 0⟩

def exTerm (st : CalStatus) (c : Point R) : Sample R :=
  if st.isoln then c Standard.isoln.cell else ⟨0, 0⟩

variable [LinearOrder R]

/-- The source match and the reflection tracking of the captures of OPEN and SHORT there are. -/
def reflectionTerms (st : CalStatus) (ed : Sample R) (c : Point R) : Sample R × Sample R :=
  if st.short ∧ st.open_ then
    let es := esOf ed (c Standard.open_.cell) (c Standard.short.cell)
    (es, erOf (-1) ed es (c Standard.short.cell))
  else if st.open_ then (⟨0, 0⟩, erOf 1 ed ⟨0, 0⟩ (c Standard.open_.cell))
  else if st.short then (⟨0, 0⟩, erOf (-1) ed ⟨0, 0⟩ (c Standard.short.cell))
  else
    (if st.es then c Term.es.cell else ⟨0, 0⟩, if st.er then c Term.er.cell else ⟨1, 0⟩)

def etTerm (st : CalStatus) (ex : Sample R) (c : Point R) : Sample R :=
  if st.thru then etOf ex (c Standard.thru.cell)
  else if st.et then c Term.et.cell else ⟨1, 0⟩

/-- The error terms that `cal_done` makes of the captures of one point. -/
def terms (st : CalStatus) (c : Point R) : Point R :=
  let ed := edTerm st c
  let ex := exTerm st c
  let reflection := reflectionTerms st ed c
  ![ed, reflection.1, reflection.2, etTerm st ex c, ex]

def reflectionStatus (st : CalStatus) : CalStatus :=
  { st with
    open_ := false, short := false
    es := st.es || st.short && st.open_
    er := st.er || st.short || st.open_ }

def doneStatus (st : CalStatus) : CalStatus :=
  { reflectionStatus st with thru := false, et := st.et || st.thru, apply := true }

/-- The reflection step leaves terms, or what it finds when neither standard was measured. -/
def reflectionCells (st : CalStatus) (c : Point R) : Sample R × Sample R :=
  if st.short ∨ st.open_ then reflectionTerms st (c Term.ed.cell) c
  else (c Term.es.cell, c Term.er.cell)

end Terms

section Reflection

variable [Field R] (hi : i < p.sweepPoints)
include hi

theorem reflection_open :
    let c := p.calData i
    (etermCalcEr (etermSet (openAsShort p) .es 0 0) 1).calData i =
      ![c 0, ⟨0, 0⟩, erOf 1 (c Term.ed.cell) ⟨0, 0⟩ (c Standard.open_.cell), c 3, c 4] := by
  rw [etermCalcEr_at (p := etermSet (openAsShort p) .es 0 0) hi,
    etermSet_at (p := openAsShort p) hi]
  apply point_ext <;> simp [openAsShort, etermCopy, Term.cell, Standard.cell]

theorem reflection_short :
    let c := p.calData i
    (etermCalcEr (etermSet p .es 0 0) (-1)).calData i =
      ![c 0, ⟨0, 0⟩, erOf (-1) (c Term.ed.cell) ⟨0, 0⟩ (c Standard.short.cell), c 3, c 4] := by
  rw [etermCalcEr_at (p := etermSet p .es 0 0) hi, etermSet_at hi]
  apply point_ext <;> simp [Term.cell, Standard.cell]

variable [LinearOrder R]

theorem reflection_both :
    let c := p.calData i
    let es := esOf (c Term.ed.cell) (c Standard.open_.cell) (c Standard.short.cell)
    (etermCalcEr (etermCalcEs p) (-1)).calData i =
      ![c 0, es, erOf (-1) (c Term.ed.cell) es (c Standard.short.cell), c 3, c 4] := by
  rw [etermCalcEr_at (p := etermCalcEs p) hi, etermCalcEs_at hi]
  apply point_ext <;> simp [Term.cell, Standard.cell]

theorem doneReflection_spec :
    let c := p.calData i
    Step p (doneReflection p) i (reflectionStatus p.calStatus)
      ![c 0, (reflectionCells p.calStatus c).1, (reflectionCells p.calStatus c).2, c 3, c 4] := by
  unfold doneReflection reflectionCells reflectionTerms
  cases hs : p.calStatus.short with
  | true =>
    cases ho : p.calStatus.open_ with
    | true =>
      simp only [and_self, true_or, if_true]
      refine ⟨rfl, ?_, reflection_both hi⟩
      simp [reflectionStatus, etermCalcEr, etermCalcEs, mapPoints, hs, ho]
    | false =>
      simp only [Bool.false_eq_true, and_false, true_or, if_false, if_true]
      refine ⟨rfl, ?_, reflection_short hi⟩
      simp [reflectionStatus, etermCalcEr, etermSet, mapPoints, hs, ho]
  | false =>
    cases ho : p.calStatus.open_ with
    | true =>
      simp only [Bool.false_eq_true, false_and, or_true, if_false, if_true]
      refine ⟨openAsShort_sweepPoints p, ?_, reflection_open hi⟩
      simp [reflectionStatus, etermCalcEr, etermSet, openAsShort, etermCopy, mapPoints, hs, ho]
    | false =>
      simp only [Bool.false_eq_true, false_and, or_self, if_false]
      refine ⟨rfl, ?_, point_ext rfl rfl rfl rfl rfl⟩
      cases hst : p.calStatus
      simp_all [reflectionStatus]

end Reflection

section Done

variable [Field R]

theorem doneDirectivity_spec (hi : i < p.sweepPoints) :
    let c := p.calData i
    Step p (doneDirectivity p) i p.calStatus ![edTerm p.calStatus c, c 1, c 2, c 3, c 4] := by
  obtain ⟨hpoints, hstatus, hcells⟩ := default_spec hi p.calStatus.load .ed 0 0
  exact ⟨hpoints, hstatus, hcells.trans (point_ext rfl rfl rfl rfl rfl)⟩

theorem doneIsolation_spec (hi : i < p.sweepPoints) :
    let c := p.calData i
    Step p (doneIsolation p) i p.calStatus ![c 0, c 1, c 2, c 3, exTerm p.calStatus c] := by
  obtain ⟨hpoints, hstatus, hcells⟩ := default_spec hi p.calStatus.isoln .ex 0 0
  exact ⟨hpoints, hstatus, hcells.trans (point_ext rfl rfl rfl rfl rfl)⟩

theorem doneDefaults_spec (hi : i < p.sweepPoints) :
    let c := p.calData i
    let st := p.calStatus
    Step p (doneDefaults p) i st
      ![c 0, if st.es then c 1 else ⟨0, 0⟩, if st.er then c 2 else ⟨1, 0⟩,
        if st.et then c 3 else ⟨1, 0⟩, c 4] := by
  let q := if p.calStatus.et then p else etermSet p .et 1 0
  let r := if q.calStatus.er then q else etermSet q .er 1 0
  obtain ⟨hq, hqst, hqc⟩ := default_spec hi p.calStatus.et .et 1 0
  have hiq : i < q.sweepPoints := Nat.lt_of_lt_of_eq hi hq.symm
  obtain ⟨hr, hrst, hrc⟩ := default_spec hiq q.calStatus.er .er 1 0
  have hir : i < r.sweepPoints := Nat.lt_of_lt_of_eq hiq hr.symm
  obtain ⟨hs, hsst, hsc⟩ := default_spec hir r.calStatus.es .es 0 0
  refine ⟨hs.trans (hr.trans hq), hsst.trans (hrst.trans hqst), hsc.trans ?_⟩
  rw [hrst, hrc, hqst, hqc]
  apply point_ext <;> simp [Term.cell]

variable [LinearOrder R]

theorem doneTransmission_spec (hi : i < p.sweepPoints) :
    let c := p.calData i
    Step p (doneTransmission p) i
      { p.calStatus with thru := false, et := p.calStatus.et || p.calStatus.thru }
      ![c 0, c 1, c 2,
        if p.calStatus.thru then etOf (c Term.ex.cell) (c Standard.thru.cell) else c 3, c 4] := by
  unfold doneTransmission
  cases ht : p.calStatus.thru with
  | true =>
    refine ⟨rfl, ?_, ?_⟩
    · simp [etermCalcEt, mapPoints]
    · simp only [if_true]
      rw [etermCalcEt_at hi]
      apply point_ext <;> simp [Term.cell]
  | false =>
    refine ⟨rfl, ?_, ?_⟩
    · cases hst : p.calStatus
      simp_all
    · exact point_ext rfl rfl rfl rfl rfl

theorem reflectionCells_defaults (st : CalStatus) (ed ex : Sample R) (c : Point R) :
    let cells := reflectionCells st ![ed, c 1, c 2, c 3, ex]
    (if (reflectionStatus st).es then cells.1 else ⟨0, 0⟩,
      if (reflectionStatus st).er then cells.2 else ⟨1, 0⟩) = reflectionTerms st ed c := by
  cases hs : st.short <;> cases ho : st.open_ <;> cases he : st.es <;> cases hr : st.er <;>
    simp [reflectionCells, reflectionTerms, reflectionStatus, hs, ho, he, hr, Term.cell,
      Standard.cell]

theorem etTerm_defaults (st : CalStatus) (ex : Sample R) (c : Point R) :
    (if st.et || st.thru then if st.thru then etOf ex (c 3) else c 3 else ⟨1, 0⟩) =
      etTerm st ex c := by
  cases ht : st.thru <;> cases he : st.et <;> simp [etTerm, ht, he, Term.cell, Standard.cell]

theorem calDone_terms {s : Vna R} (hi : i < s.props.sweepPoints) :
    (calDone s).props.calStatus = doneStatus s.props.calStatus ∧
      (calDone s).props.calData i = terms s.props.calStatus (s.props.calData i) := by
  obtain ⟨h1, hst1, hc1⟩ := doneDirectivity_spec hi
  obtain ⟨h2, hst2, hc2⟩ := doneIsolation_spec (Nat.lt_of_lt_of_eq hi h1.symm)
  obtain ⟨h3, hst3, hc3⟩ := doneReflection_spec (Nat.lt_of_lt_of_eq hi (h2.trans h1).symm)
  obtain ⟨h4, hst4, hc4⟩ :=
    doneTransmission_spec (Nat.lt_of_lt_of_eq hi (h3.trans (h2.trans h1)).symm)
  obtain ⟨h5, hst5, hc5⟩ :=
    doneDefaults_spec (Nat.lt_of_lt_of_eq hi (h4.trans (h3.trans (h2.trans h1))).symm)
  rw [hst1] at hst2 hc2
  rw [hst2] at hst3 hc3
  rw [hst3] at hst4 hc4
  rw [hst4] at hst5 hc5
  generalize s.props.calStatus = st at *
  generalize s.props.calData i = c at *
  have hcells := reflectionCells_defaults st (edTerm st c) (exTerm st c) c
  have het := etTerm_defaults st (exTerm st c) c
  have hfound : (doneIsolation (doneDirectivity s.props)).calData i =
      ![edTerm st c, c 1, c 2, c 3, exTerm st c] := by
    rw [hc2, hc1]
    rfl
  refine ⟨congrArg (fun st : CalStatus => { st with apply := true }) hst5, Eq.trans hc5 ?_⟩
  rw [hc4, hc3, hfound]
  generalize reflectionCells st ![edTerm st c, c 1, c 2, c 3, exTerm st c] = cells at *
  rw [terms, ← het, ← hcells]
  exact point_ext rfl rfl rfl rfl rfl

end Done

end NanoVNA.CalibrationTerms
