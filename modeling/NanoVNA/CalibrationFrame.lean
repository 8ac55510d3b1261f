import NanoVNA.CalibrationTerms

namespace NanoVNA.CalibrationFrame

open NanoVNA.DeviceState NanoVNA.Calibration NanoVNA.CalibrationTerms

variable {R : Type} {p p' p'' : Properties R} {i : Nat}

/-- Nothing but the status and the cells differs, and the status is as interpolated as before. -/
def Framed (p p' : Properties R) : Prop :=
  ∃ st data, p' = { p with calStatus := st, calData := data } ∧
    st.interpolated = p.calStatus.interpolated

theorem Framed.trans (h : Framed p p') (h' : Framed p' p'') : Framed p p'' := by
  obtain ⟨_, _, rfl, hst⟩ := h
  obtain ⟨st, data, rfl, hst'⟩ := h'
  exact ⟨st, data, rfl, hst'.trans hst⟩

theorem framed_sweepPoints (h : Framed p p') : p'.sweepPoints = p.sweepPoints := by
  obtain ⟨_, _, rfl, _⟩ := h
  rfl

theorem framed_refl (p : Properties R) : Framed p p := ⟨p.calStatus, p.calData, rfl, rfl⟩

theorem framed_default (p : Properties R) (there : Bool) (term : Term) (re im : R) :
    Framed p (if there then p else etermSet p term re im) := by
  cases there with
  | true => exact framed_refl p
  | false => exact ⟨p.calStatus, _, rfl, rfl⟩

section Frame

variable [Field R]

theorem framed_defaults (p : Properties R) : Framed p (doneDefaults p) :=
  ((framed_default p _ .et 1 0).trans (framed_default _ _ .er 1 0)).trans
    (framed_default _ _ .es 0 0)

variable [LinearOrder R]

theorem framed_reflection (p : Properties R) : Framed p (doneReflection p) := by
  have hset : ∀ q : Properties R, Framed q (etermSet q .es 0 0) :=
    fun q => ⟨q.calStatus, _, rfl, rfl⟩
  have hcalc : ∀ (q : Properties R) (sign : Int), Framed q (etermCalcEr q sign) :=
    fun _ _ => ⟨_, _, rfl, rfl⟩
  unfold doneReflection
  split
  · have hes : Framed p (etermCalcEs p) := ⟨_, _, rfl, rfl⟩
    exact hes.trans (hcalc _ _)
  · split
    · have hcopy : Framed p (openAsShort p) := ⟨_, _, rfl, rfl⟩
      exact (hcopy.trans (hset _)).trans (hcalc _ _)
    · split
      · exact (hset p).trans (hcalc _ _)
      · exact framed_refl p

theorem framed_transmission (p : Properties R) : Framed p (doneTransmission p) := by
  unfold doneTransmission
  split
  · exact ⟨_, _, rfl, rfl⟩
  · exact framed_refl p

theorem framed_calDone (s : Vna R) : Framed s.props (calDone s).props := by
  have hdirectivity : Framed s.props (doneDirectivity s.props) := framed_default _ _ .ed 0 0
  have hisolation := hdirectivity.trans (framed_default _ _ .ex 0 0 : Framed _ (doneIsolation _))
  have hdone := ((hisolation.trans (framed_reflection _)).trans (framed_transmission _)).trans
    (framed_defaults _)
  exact hdone.trans ⟨_, _, rfl, rfl⟩

end Frame

section Beyond

/-- A point past the sweep keeps its cells as long as there is no OPEN to copy. -/
structure Kept (i : Nat) (p p' : Properties R) : Prop where
  points : p'.sweepPoints = p.sweepPoints
  noOpen : p'.calStatus.open_ = false
  cells : p'.calData i = p.calData i

theorem Kept.trans (h : Kept i p p') (h' : Kept i p' p'') : Kept i p p'' :=
  ⟨h'.points.trans h.points, h'.noOpen, h'.cells.trans h.cells⟩

theorem Kept.beyond (h : Kept i p p') (hi : p.sweepPoints ≤ i) : p'.sweepPoints ≤ i :=
  h.points.trans_le hi

variable (hi : p.sweepPoints ≤ i)
include hi

theorem mapPoints_beyond (body : Point R → Point R) :
    (mapPoints p body).calData i = p.calData i := by
  rw [mapPoints_calData, if_neg (Nat.not_lt.mpr hi)]

variable (ho : p.calStatus.open_ = false)
include ho

theorem kept_default (there : Bool) (term : Term) (re im : R) :
    Kept i p (if there then p else etermSet p term re im) := by
  cases there with
  | true => exact ⟨rfl, ho, rfl⟩
  | false => exact ⟨rfl, ho, mapPoints_beyond hi _⟩

variable [Field R]

theorem kept_defaults : Kept i p (doneDefaults p) := by
  have h1 := kept_default hi ho p.calStatus.et .et 1 0
  generalize hq : (if p.calStatus.et then p else etermSet p .et 1 0) = q at h1
  have h2 := h1.trans (kept_default (h1.beyond hi) h1.noOpen q.calStatus.er .er 1 0)
  generalize hr : (if q.calStatus.er then q else etermSet q .er 1 0) = r at h2
  have h3 := h2.trans (kept_default (h2.beyond hi) h2.noOpen r.calStatus.es .es 0 0)
  rw [doneDefaults, hq, hr]
  exact h3

variable [LinearOrder R]

theorem kept_reflection : Kept i p (doneReflection p) := by
  have hnot : ¬ p.calStatus.open_ = true := fun h => Bool.false_ne_true (ho.symm.trans h)
  unfold doneReflection
  rw [if_neg fun h => hnot h.2, if_neg hnot]
  split
  · have hset : Kept i p (etermSet p .es 0 0) := kept_default hi ho false .es 0 0
    exact hset.trans ⟨rfl, ho, mapPoints_beyond (hset.beyond hi) _⟩
  · exact ⟨rfl, ho, rfl⟩

theorem kept_transmission : Kept i p (doneTransmission p) := by
  unfold doneTransmission
  split
  · exact ⟨rfl, ho, mapPoints_beyond hi _⟩
  · exact ⟨rfl, ho, rfl⟩

omit hi ho in
theorem calDone_beyond {s : Vna R} (hi : s.props.sweepPoints ≤ i)
    (ho : s.props.calStatus.open_ = false) :
    (calDone s).props.calData i = s.props.calData i := by
  have h1 : Kept i s.props (doneDirectivity s.props) := kept_default hi ho _ .ed 0 0
  have h2 := h1.trans (kept_default (h1.beyond hi) h1.noOpen _ .ex 0 0 : Kept i _ (doneIsolation _))
  have h3 := h2.trans (kept_reflection (h2.beyond hi) h2.noOpen)
  have h4 := h3.trans (kept_transmission (h3.beyond hi) h3.noOpen)
  exact (h4.trans (kept_defaults (h4.beyond hi) h4.noOpen)).cells

end Beyond

end NanoVNA.CalibrationFrame
