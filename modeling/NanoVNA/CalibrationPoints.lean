import NanoVNA.CalibrationSessions
import NanoVNA.SweepFrequency

namespace NanoVNA.CalibrationPoints

open NanoVNA.DeviceState NanoVNA.SweepGrid NanoVNA.SweepFrequency NanoVNA.Calibration
  NanoVNA.CalibrationTerms NanoVNA.CalibrationFrame NanoVNA.CalibrationCollect
  NanoVNA.CalibrationSessions NanoVNA.GuardedRun

variable {R : Type} {st : CalStatus} {c c' : Point R} {i : Nat}

structure Agree (st : CalStatus) (c c' : Point R) : Prop where
  load : st.load = true → c Standard.load.cell = c' Standard.load.cell
  open_ : st.open_ = true → c Standard.open_.cell = c' Standard.open_.cell
  short : st.short = true → c Standard.short.cell = c' Standard.short.cell
  thru : st.thru = true → c Standard.thru.cell = c' Standard.thru.cell
  isoln : st.isoln = true → c Standard.isoln.cell = c' Standard.isoln.cell
  es : st.es = true → c Term.es.cell = c' Term.es.cell
  er : st.er = true → c Term.er.cell = c' Term.er.cell
  et : st.et = true → c Term.et.cell = c' Term.et.cell

theorem agree_of_eq (h : c = c') : Agree st c c' := by
  subst h
  exact ⟨fun _ => rfl, fun _ => rfl, fun _ => rfl, fun _ => rfl, fun _ => rfl, fun _ => rfl,
    fun _ => rfl, fun _ => rfl⟩

theorem agree_collect (h : Agree st c c') (std : Standard) (x : Sample R) :
    Agree (flagged st std) (Function.update c std.cell x) (Function.update c' std.cell x) := by
  obtain ⟨hload, hopen, hshort, hthru, hisoln, hes, her, het⟩ := h
  cases std with
  | load => exact ⟨fun _ => rfl, hopen, hshort, hthru, hisoln, hes, her, het⟩
  | open_ => exact ⟨hload, fun _ => rfl, hshort, hthru, hisoln, nofun, nofun, het⟩
  | short => exact ⟨hload, hopen, fun _ => rfl, hthru, hisoln, nofun, nofun, het⟩
  | thru => exact ⟨hload, hopen, hshort, fun _ => rfl, hisoln, hes, her, nofun⟩
  | isoln => exact ⟨hload, hopen, hshort, hthru, fun _ => rfl, hes, her, het⟩

structure KeepsCal (p p' : Properties R) : Prop where
  points : 0 < p.sweepPoints → 0 < p'.sweepPoints
  calPoints : p'.calSweepPoints = p.calSweepPoints
  data : p'.calData = p.calData
  status : ∃ b, p'.calStatus = { p.calStatus with interpolated := b }

theorem keepsCal_setSweepFrequency (type : StimulusType) (freq : Nat) (s : Vna R) :
    KeepsCal s.props (setSweepFrequency type freq s).props := by
  obtain ⟨_, _, _, _, h⟩ | ⟨_, _, h⟩ := setSweepFrequency_cases type freq s
  · rw [h]
    exact ⟨id, rfl, rfl, _, rfl⟩
  · rw [h]
    exact ⟨id, rfl, rfl, s.props.calStatus.interpolated, rfl⟩

theorem keepsCal_setSweepPoints (board : Board) (points : Nat) (s : Vna R) :
    KeepsCal s.props (setSweepPoints board points s).props := by
  have hmin := clampPoints_min board points
  unfold setSweepPoints
  generalize clampPoints board points = points at hmin
  dsimp only
  split
  · exact ⟨id, rfl, rfl, s.props.calStatus.interpolated, rfl⟩
  · exact ⟨fun _ => Nat.lt_of_lt_of_le (by decide) hmin, rfl, rfl, _, rfl⟩

variable [Field R] [LinearOrder R]

theorem terms_agree (h : Agree st c c') : terms st c = terms st c' := by
  have hed : edTerm st c = edTerm st c' := by
    unfold edTerm
    split
    · exact h.load ‹_›
    · rfl
  have hex : exTerm st c = exTerm st c' := by
    unfold exTerm
    split
    · exact h.isoln ‹_›
    · rfl
  have hreflection :
      reflectionTerms st (edTerm st c') c = reflectionTerms st (edTerm st c') c' := by
    unfold reflectionTerms
    split
    · rename_i hboth
      rw [h.open_ hboth.2, h.short hboth.1]
    · split
      · rw [h.open_ ‹_›]
      · split
        · rw [h.short ‹_›]
        · congr 1
          · split
            · exact h.es ‹_›
            · rfl
          · split
            · exact h.er ‹_›
            · rfl
  have htransmission : etTerm st (exTerm st c') c = etTerm st (exTerm st c') c' := by
    unfold etTerm
    split
    · rw [h.thru ‹_›]
    · split
      · exact h.et ‹_›
      · rfl
  rw [terms, terms, hed, hex, hreflection, htransmission]

theorem terms_again (st : CalStatus) (c : Point R) :
    terms (doneStatus st) (terms st c) = terms st c := by
  apply point_ext
  · cases hl : st.load <;> simp [terms, edTerm, doneStatus, reflectionStatus, hl, Standard.cell]
  · cases hs : st.short <;> cases ho : st.open_ <;> cases he : st.es <;>
      simp [terms, reflectionTerms, doneStatus, reflectionStatus, hs, ho, he, Term.cell]
  · cases hs : st.short <;> cases ho : st.open_ <;> cases hr : st.er <;>
      simp [terms, reflectionTerms, doneStatus, reflectionStatus, hs, ho, hr, Term.cell]
  · cases ht : st.thru <;> cases he : st.et <;>
      simp [terms, etTerm, doneStatus, reflectionStatus, ht, he, Term.cell]
  · cases hx : st.isoln <;> simp [terms, exTerm, doneStatus, reflectionStatus, hx, Standard.cell]

/-- The device, and what every point would hold if its terms were made of its own captures. -/
structure Tracked (R : Type) where
  vna : Vna R
  own : Nat → Point R

inductive PointsCall (R : Type)
  | cal (call : CalCall R)
  | sweepPoints (points : UInt16)
  | sweepFrequency (type : StimulusType) (freq : UInt32)

def ownCall (t : Tracked R) : CalCall R → Nat → Point R
  | .collect type measured =>
    match calibrationSet[type]? with
    | none => t.own
    | some std => fun i => Function.update (t.own i) std.cell (measured std.src i)
  | .done => fun i => terms t.vna.props.calStatus (t.own i)

def pointsCall (board : Board) (t : Tracked R) : PointsCall R → Tracked R
  | .cal call => ⟨calCall t.vna call, ownCall t call⟩
  | .sweepPoints points => { t with vna := setSweepPoints board points.toNat t.vna }
  | .sweepFrequency type freq => { t with vna := setSweepFrequency type freq.toNat t.vna }

def pointsStep (board : Board) (t : Tracked R) (call : PointsCall R) : Option (Tracked R) :=
  some (pointsCall board t call)

/-- The terms that are applied are those of the captures at the same point. -/
def OwnTerms (t : Tracked R) : Prop :=
  t.vna.props.calStatus.apply = true →
    ∀ i < t.vna.props.calSweepPoints, t.vna.props.calData i = t.own i

/-- The sweep reaches all points of the calibration, or nothing was collected since the last
`cal_done`. -/
def Covered (t : Tracked R) : PointsCall R → Prop
  | .cal .done =>
    t.vna.props.calSweepPoints ≤ t.vna.props.sweepPoints ∨ t.vna.props.calStatus.apply = true
  | _ => True

/-- Every point has its own captures; when the terms are applied it has its own terms, and another
`cal_done` would leave them. -/
structure Tracks (t : Tracked R) : Prop where
  points : 0 < t.vna.props.sweepPoints
  agree : ∀ i < t.vna.props.calSweepPoints,
    Agree t.vna.props.calStatus (t.vna.props.calData i) (t.own i)
  noOpen : t.vna.props.calStatus.apply = true → t.vna.props.calStatus.open_ = false
  own : OwnTerms t
  again : t.vna.props.calStatus.apply = true →
    ∀ i < t.vna.props.calSweepPoints, terms t.vna.props.calStatus (t.own i) = t.own i

variable {t : Tracked R}

theorem tracks_collect (h : Tracks t) (std : Standard) (measured : Fin 2 → Nat → Sample R) :
    Tracks ⟨{ t.vna with props := collectStandard std measured t.vna.props },
      fun i => Function.update (t.own i) std.cell (measured std.src i)⟩ := by
  have happly := flagged_apply (renewGrid t.vna.props).calStatus std
  have hnot : ¬ (flagged (renewGrid t.vna.props).calStatus std).apply = true :=
    fun hap => Bool.false_ne_true (happly.symm.trans hap)
  refine ⟨?_, ?_, fun hap => absurd hap hnot, fun hap => absurd hap hnot,
    fun hap => absurd hap hnot⟩
  · rw [collectStandard_sweepPoints]
    exact h.points
  · intro i hi
    rw [collectStandard_calData, collectStandard_calStatus]
    refine agree_collect ?_ std _
    obtain hsame | hzero := renewGrid_cases t.vna.props
    · rw [hsame]
      refine h.agree i ?_
      have hcal : (collectStandard std measured t.vna.props).calSweepPoints =
          (renewGrid t.vna.props).calSweepPoints := rfl
      rw [hcal, hsame] at hi
      exact hi
    · rw [hzero]
      exact ⟨nofun, nofun, nofun, nofun, nofun, nofun, nofun, nofun⟩

theorem tracks_done (h : Tracks t) (hcovered : Covered t (.cal .done)) :
    Tracks ⟨calDone t.vna, ownCall t .done⟩ := by
  obtain ⟨_, _, hframe, _⟩ := framed_calDone t.vna
  have hcal : (calDone t.vna).props.calSweepPoints = t.vna.props.calSweepPoints := by rw [hframe]
  have hstatus : (calDone t.vna).props.calStatus = doneStatus t.vna.props.calStatus :=
    (calDone_terms h.points).1
  have hown : ∀ i < t.vna.props.calSweepPoints,
      (calDone t.vna).props.calData i = terms t.vna.props.calStatus (t.own i) := by
    intro i hi
    by_cases hin : i < t.vna.props.sweepPoints
    · rw [(calDone_terms hin).2, terms_agree (h.agree i hi)]
    · have happly : t.vna.props.calStatus.apply = true :=
        hcovered.resolve_left fun hle => hin (Nat.lt_of_lt_of_le hi hle)
      rw [calDone_beyond (Nat.le_of_not_lt hin) (h.noOpen happly), h.own happly i hi,
        h.again happly i hi]
  refine ⟨?_, ?_, ?_, ?_, ?_⟩
  · rw [framed_sweepPoints (framed_calDone t.vna)]
    exact h.points
  · intro i hi
    exact agree_of_eq (hown i (Nat.lt_of_lt_of_eq hi hcal))
  · intro _
    rw [hstatus]
    rfl
  · intro _ i hi
    exact hown i (Nat.lt_of_lt_of_eq hi hcal)
  · intro _ i _
    rw [hstatus]
    exact terms_again t.vna.props.calStatus (t.own i)

theorem tracks_keeps {s : Vna R} (h : Tracks t) (hk : KeepsCal t.vna.props s.props) :
    Tracks { t with vna := s } := by
  obtain ⟨hpoints, hcal, hdata, b, hstatus⟩ := hk
  have happly : s.props.calStatus.apply = t.vna.props.calStatus.apply := by rw [hstatus]
  refine ⟨hpoints h.points, ?_, ?_, ?_, ?_⟩
  · intro i hi
    obtain ⟨hload, hopen, hshort, hthru, hisoln, hes, her, het⟩ :=
      h.agree i (Nat.lt_of_lt_of_eq hi hcal)
    rw [hdata, hstatus]
    exact ⟨hload, hopen, hshort, hthru, hisoln, hes, her, het⟩
  · intro hap
    rw [hstatus]
    exact h.noOpen (happly.symm.trans hap)
  · intro hap i hi
    rw [hdata]
    exact h.own (happly.symm.trans hap) i (Nat.lt_of_lt_of_eq hi hcal)
  · intro hap i hi
    rw [hstatus]
    exact h.again (happly.symm.trans hap) i (Nat.lt_of_lt_of_eq hi hcal)

theorem tracks_call (board : Board) (h : Tracks t) (call : PointsCall R) (hc : Covered t call) :
    Tracks (pointsCall board t call) := by
  cases call with
  | sweepPoints points => exact tracks_keeps h (keepsCal_setSweepPoints board points.toNat t.vna)
  | sweepFrequency type freq =>
    exact tracks_keeps h (keepsCal_setSweepFrequency type freq.toNat t.vna)
  | cal call =>
    cases call with
    | done => exact tracks_done h hc
    | collect type measured =>
      simp only [pointsCall, calCall, calCollect, ownCall]
      cases calibrationSet[type]? with
      | none => exact h
      | some std => exact tracks_collect h std measured

/-- From a cleared status, as long as every `cal_done` is covered, the terms that are applied are
those of the captures at the same point. -/
theorem ownTerms_of_covered (board : Board) {s : Vna R} {enhanced : Bool}
    (hpoints : 0 < s.props.sweepPoints)
    (hclear : s.props.calStatus = { CalStatus.zero with enhancedResponse := enhanced })
    (own : Nat → Point R) {calls : List (PointsCall R)}
    (h : Along (pointsStep board) Covered ⟨s, own⟩ calls) :
    Throughout (pointsStep board) OwnTerms ⟨s, own⟩ calls := by
  have hstart : Tracks ⟨s, own⟩ := by
    have hap : ¬ s.props.calStatus.apply = true := by
      rw [hclear]
      exact Bool.false_ne_true
    refine ⟨hpoints, fun i _ => ?_, fun h => absurd h hap, fun h => absurd h hap,
      fun h => absurd h hap⟩
    dsimp only
    rw [hclear]
    exact ⟨nofun, nofun, nofun, nofun, nofun, nofun, nofun, nofun⟩
  have hrun : Throughout (pointsStep board) Tracks ⟨s, own⟩ calls :=
    throughout_of_along (fun _ call ht hc => ⟨_, rfl, tracks_call board ht call hc⟩) hstart h
  exact hrun.mono fun t ht => ht.own

def openCapture : PointsCall ℚ := .cal (realCapture .open_ 3)

theorem ownTerms_of_open :
    Throughout (pointsStep .f072) OwnTerms ⟨defaultVna ℚ .f072, fun _ _ => ⟨0, 0⟩⟩
      [openCapture, .cal .done, .sweepPoints 51, .cal .done] :=
  ownTerms_of_covered .f072 (by decide) rfl _
    ⟨trivial, fun _ h1 => ⟨.inl (by obtain rfl := Option.some.inj h1; decide +kernel), fun _ h2 =>
      ⟨trivial, fun _ h3 => ⟨.inr (by
        obtain rfl := Option.some.inj h1
        obtain rfl := Option.some.inj h2
        obtain rfl := Option.some.inj h3
        decide +kernel), fun _ _ => trivial⟩⟩⟩⟩

/-- With fewer points between the capture of OPEN and `cal_done` the capture is left as the source
match of the last points. -/
theorem open_left_as_source_match :
    let t := [openCapture, .sweepPoints 51, .cal .done].foldl (pointsCall .f072)
      ⟨defaultVna ℚ .f072, fun _ _ => ⟨0, 0⟩⟩
    t.vna.props.calStatus.apply = true ∧ 60 < t.vna.props.calSweepPoints ∧
      t.vna.props.calData 60 Term.es.cell = ⟨3, 0⟩ ∧ t.own 60 Term.es.cell = ⟨0, 0⟩ := by
  decide +kernel

end NanoVNA.CalibrationPoints
