import NanoVNA.GuardedRun
import NanoVNA.SweepDivisions

namespace NanoVNA.DivisionSafety

open NanoVNA.Word32 NanoVNA.DeviceState NanoVNA.SweepGrid NanoVNA.SweepFrequency
open NanoVNA.SweepRequests NanoVNA.ShellArguments NanoVNA.ScanCommand NanoVNA.CheckedArithmetic
open NanoVNA.SweepDivisions NanoVNA.GuardedRun NanoVNA.Calibration

variable {R : Type} {board : Board} {w t : Drawn R} {p : Properties R}

/-- A sweep that the update of the grid can divide by: not a single point, and with an enabled
marker a step of a hertz or more. -/
def UpdateOk (p : Properties R) : Prop :=
  p.sweepPoints ≠ 1 ∧
    ((∀ i, (p.markers i).enabled = false) ∨ p.sweepPoints ≤ getSweepFrequency p .span + 1)

instance (p : Properties R) : Decidable (UpdateOk p) := inferInstanceAs (Decidable (_ ∧ _))

/-- The counts of the sweep and of the calibrated sweep are 16-bit numbers other than zero. -/
structure CountsOk (p : Properties R) : Prop where
  points : 1 ≤ p.sweepPoints ∧ p.sweepPoints < 65536
  calPoints : 1 ≤ p.calSweepPoints ∧ p.calSweepPoints < 65536

/-- Between two calls the grid and its lines on the screen belong to the stored sweep. -/
structure Consistent (board : Board) (w : Drawn R) : Prop where
  counts : CountsOk w.vna.props
  fPoints : w.vna.grid.fPoints = w.vna.props.sweepPoints - 1
  lines : w.lines = updateGrid board (sweepGetOrdered w.vna.props).1 (sweepGetOrdered w.vna.props).2

def updated (board : Board) (s : Vna R) : Drawn R :=
  ⟨appMeasurementUpdateFrequencies s,
    updateGrid board (sweepGetOrdered s.props).1 (sweepGetOrdered s.props).2⟩

theorem intervals_eq (h : CountsOk p) : (p.sweepPoints + 65535) % 65536 = p.sweepPoints - 1 := by
  obtain ⟨h1, h2⟩ := h.points
  omega

theorem consistent_updated {s : Vna R} (h : CountsOk s.props) : Consistent board (updated board s) where
  counts := ⟨h.points, h.calPoints⟩
  fPoints := intervals_eq h
  lines := rfl

theorem markerStep_ne_zero_iff {start stop points : Nat} (h : 1 ≤ points) :
    markerStep start stop points ≠ 0 ↔ points = 1 ∨ points ≤ sub32 stop start + 1 := by
  unfold markerStep
  split
  · rw [Nat.div_ne_zero_iff]
    omega
  · omega

theorem markers_defined_iff (h : CountsOk p) {g : Grid} (hg : g.fPoints = p.sweepPoints - 1) :
    (∀ i, (p.markers i).enabled = true →
      markerStep (sweepGetOrdered p).1 (sweepGetOrdered p).2 p.sweepPoints ≠ 0 ∧ g.fPoints ≠ 0) ↔
      (∀ i, (p.markers i).enabled = false) ∨ UpdateOk p := by
  have hstep := @markerStep_ne_zero_iff (sweepGetOrdered p).1 (sweepGetOrdered p).2 _ h.points.1
  have hspan : getSweepFrequency p .span = sub32 (sweepGetOrdered p).2 (sweepGetOrdered p).1 := rfl
  constructor
  · intro hall
    by_cases hoff : ∀ i, (p.markers i).enabled = false
    · exact .inl hoff
    · obtain ⟨i, hi⟩ := not_forall.mp hoff
      obtain ⟨hs, hp⟩ := hall i (Bool.eq_true_of_not_eq_false hi)
      have hone : p.sweepPoints ≠ 1 := by omega
      exact .inr ⟨hone, .inr (hspan ▸ (hstep.mp hs).resolve_left hone)⟩
  · intro hor i hi
    obtain hoff | ⟨hone, hoff | hs⟩ := hor
    · exact absurd hi (by rw [hoff i]; decide)
    · exact absurd hi (by rw [hoff i]; decide)
    · have := h.points.1
      exact ⟨hstep.mpr (.inr (hspan ▸ hs)), by omega⟩

theorem checkedSettle_eq_some_iff (h : CountsOk w.vna.props)
    (hg : w.vna.grid.fPoints = w.vna.props.sweepPoints - 1) :
    checkedSettle board w = some t ↔
      ((∀ i, (w.vna.props.markers i).enabled = false) ∨ UpdateOk w.vna.props) ∧
        ⟨settleSweep w.vna, updateGrid board (sweepGetOrdered w.vna.props).1
          (sweepGetOrdered w.vna.props).2⟩ = t := by
  simp only [checkedSettle, Option.bind_eq_bind, Option.bind_eq_some_iff,
    checkedUpdateMarkerIndex_eq_some_iff, markers_defined_iff h hg, Option.pure_def, Option.some_inj]
  constructor
  · rintro ⟨_, ⟨hok, rfl⟩, rfl⟩
    exact ⟨hok, rfl⟩
  · rintro ⟨hok, rfl⟩
    exact ⟨_, ⟨hok, rfl⟩, rfl⟩

def withGrid (w : Drawn R) : Drawn R :=
  let p := w.vna.props
  let range := sweepGetOrdered p
  ⟨{ w.vna with grid := appMeasurementSetFrequencies range.1 range.2 p.sweepPoints }, w.lines⟩

theorem withGrid_fPoints (h : CountsOk w.vna.props) :
    (withGrid w).vna.grid.fPoints = (withGrid w).vna.props.sweepPoints - 1 := intervals_eq h

theorem checkedUpdate_eq_some_iff (h : CountsOk w.vna.props) :
    checkedUpdate board w = some t ↔ UpdateOk w.vna.props ∧ updated board w.vna = t := by
  have hpoints := h.points
  have hsettle := @checkedSettle_eq_some_iff R board (withGrid w) t h (withGrid_fPoints h)
  simp only [checkedUpdate, Option.bind_eq_bind, Option.bind_eq_some_iff,
    checkedSetFrequencies_eq_some_iff, intervals_eq h]
  constructor
  · rintro ⟨g, ⟨hne, rfl⟩, ht⟩
    obtain ⟨hok, rfl⟩ := hsettle.mp ht
    exact ⟨hok.elim (fun hoff => ⟨by omega, .inl hoff⟩) id, rfl⟩
  · rintro ⟨hok, rfl⟩
    have hne := hok.1
    exact ⟨_, ⟨by omega, rfl⟩, hsettle.mpr ⟨.inr hok, rfl⟩⟩

/-- A computation goes through exactly under a condition, and then leaves a consistent state. -/
structure Decides (board : Board) (P : Prop) (x : Option (Drawn R)) : Prop where
  defined : P ↔ ∃ t, x = some t
  consistent : ∀ t, x = some t → Consistent board t

variable {P Q : Prop} {x : Option (Drawn R)} {β : Type}

theorem Decides.of_some (h : Consistent board w) (hP : P) : Decides board P (some w) where
  defined := iff_of_true hP ⟨w, rfl⟩
  consistent t ht := by
    obtain rfl := Option.some.inj ht
    exact h

theorem Decides.of_eq (h : ∀ t, x = some t ↔ P ∧ w = t) (hw : Consistent board w) :
    Decides board P x where
  defined := ⟨fun hP => ⟨w, (h w).mpr ⟨hP, rfl⟩⟩, fun ⟨t, ht⟩ => ((h t).mp ht).1⟩
  consistent t ht := by
    obtain ⟨-, rfl⟩ := (h t).mp ht
    exact hw

theorem Decides.bind {y : Option β} {b : β} {f : β → Option (Drawn R)}
    (hy : ∀ c, y = some c ↔ P ∧ b = c) (hf : Decides board Q (f b)) :
    Decides board (P ∧ Q) (y.bind f) where
  defined := by
    constructor
    · rintro ⟨hP, hQ⟩
      obtain ⟨t, ht⟩ := hf.defined.mp hQ
      exact ⟨t, Option.bind_eq_some_iff.mpr ⟨b, (hy b).mpr ⟨hP, rfl⟩, ht⟩⟩
    · rintro ⟨t, ht⟩
      obtain ⟨c, hc, ht⟩ := Option.bind_eq_some_iff.mp ht
      obtain ⟨hP, rfl⟩ := (hy c).mp hc
      exact ⟨hP, hf.defined.mpr ⟨t, ht⟩⟩
  consistent t ht := by
    obtain ⟨c, hc, ht⟩ := Option.bind_eq_some_iff.mp ht
    obtain ⟨-, rfl⟩ := (hy c).mp hc
    exact hf.consistent t ht

theorem Decides.congr (h : Decides board P x) (hPQ : Q ↔ P) : Decides board Q x :=
  ⟨hPQ.trans h.defined, h.consistent⟩

theorem update_decides (h : CountsOk p) :
    Decides board (UpdateOk p) (checkedUpdate board (w.withProps p)) :=
  .of_eq (fun _ => checkedUpdate_eq_some_iff h) (consistent_updated h)

theorem updateOk_update (s : Vna R) :
    UpdateOk (appMeasurementUpdateFrequencies s).props ↔ UpdateOk s.props := by
  have hspan : getSweepFrequency (appMeasurementUpdateFrequencies s).props .span =
      getSweepFrequency s.props .span := rfl
  simp only [UpdateOk, enabled_update, update_sweepPoints, hspan]

theorem consistent_settle (h : Consistent board w) :
    Consistent board ⟨settleSweep w.vna, updateGrid board (sweepGetOrdered w.vna.props).1
      (sweepGetOrdered w.vna.props).2⟩ := by
  have hrange : sweepGetOrdered (settleSweep w.vna).props = sweepGetOrdered w.vna.props := rfl
  refine ⟨⟨h.counts.points, h.counts.calPoints⟩, h.fPoints, ?_⟩
  rw [hrange]

theorem update_settle_decides (h : CountsOk p) :
    Decides board (UpdateOk p)
      ((checkedUpdate board (w.withProps p)).bind (checkedSettle board)) := by
  have hcons : Consistent board (updated board (w.withProps p).vna) := consistent_updated h
  have hsettle : Decides board _ (checkedSettle board (updated board (w.withProps p).vna)) :=
    .of_eq (fun _ => checkedSettle_eq_some_iff hcons.counts hcons.fPoints) (consistent_settle hcons)
  refine (Decides.bind (fun _ => checkedUpdate_eq_some_iff h) hsettle).congr ?_
  exact (and_iff_left_of_imp fun hok => .inr ((updateOk_update _).mpr hok)).symm

theorem requestRange_counts (type : StimulusType) (freq : Nat) (enforceOrder : Bool)
    (p : Properties R) :
    (requestRange type freq enforceOrder p).sweepPoints = p.sweepPoints ∧
      (requestRange type freq enforceOrder p).calSweepPoints = p.calSweepPoints := by
  have hrange : ∀ centerSpan f0 f1, (p.withRange centerSpan f0 f1).sweepPoints = p.sweepPoints ∧
      (p.withRange centerSpan f0 f1).calSweepPoints = p.calSweepPoints := fun _ _ _ => ⟨rfl, rfl⟩
  simp only [requestRange]
  generalize resolveStep p type (clampLow type freq) = request
  obtain ⟨resolved, freq⟩ := request
  cases resolved with
  | start | stop | center | cw | span => exact hrange _ _ _
  | var | step => exact ⟨rfl, rfl⟩

theorem counts_request (h : CountsOk p) (type : StimulusType) (freq : Nat) (enforceOrder : Bool) :
    CountsOk (requestRange type freq enforceOrder p) := by
  obtain ⟨hpoints, hcal⟩ := requestRange_counts type freq enforceOrder p
  exact ⟨hpoints ▸ h.points, hcal ▸ h.calPoints⟩

theorem sweepFrequency_vna (h : CountsOk w.vna.props) {type : StimulusType} {freq : Nat}
    {enforceOrder : Bool} (ht : checkedSetSweepFrequency board type freq enforceOrder w = some t) :
    t.vna = setSweepFrequencyInternal type freq enforceOrder w.vna := by
  unfold checkedSetSweepFrequency at ht
  split at ht
  · rename_i hvar
    obtain rfl := Option.some.inj ht
    rw [hvar]
    rfl
  · rename_i hvar
    obtain ⟨-, rfl⟩ := (checkedUpdate_eq_some_iff (counts_request h type freq enforceOrder)).mp ht
    rw [← resolveStep_var w.vna.props type (clampLow type freq)] at hvar
    simp only [updated, Drawn.withProps, requestRange, setSweepFrequencyInternal]
    revert hvar
    generalize resolveStep w.vna.props type (clampLow type freq) = request
    obtain ⟨resolved, freq⟩ := request
    cases resolved with
    | var => exact fun hvar => absurd rfl hvar
    | start | stop | center | cw | span | step => exact fun _ => rfl

theorem sweepFrequency_decides (h : Consistent board w) (type : StimulusType) (freq : Nat)
    (enforceOrder : Bool) :
    Decides board (type = .var ∨ UpdateOk (requestRange type freq enforceOrder w.vna.props))
      (checkedSetSweepFrequency board type freq enforceOrder w) := by
  unfold checkedSetSweepFrequency
  split
  · rename_i hvar
    subst hvar
    exact .of_some ⟨⟨h.counts.points, h.counts.calPoints⟩, h.fPoints, h.lines⟩ (.inl rfl)
  · rename_i hvar
    exact (update_decides (counts_request h.counts type freq enforceOrder)).congr
      (or_iff_right hvar)

theorem clampPoints_lt (board : Board) (points : Nat) : clampPoints board points < 65536 := by
  unfold clampPoints
  cases board <;> simp only [sweepPointsMax, sweepPointsMin] <;> grind

theorem sweepPoints_decides (h : Consistent board w) (points : Nat) :
    Decides board (clampPoints board points = w.vna.props.sweepPoints ∨
        UpdateOk { w.vna.props with sweepPoints := clampPoints board points })
      (checkedSetSweepPoints board points w) := by
  simp only [checkedSetSweepPoints]
  split
  · rename_i hsame
    exact .of_some h (.inl hsame)
  · rename_i hdiff
    have hmin : 1 ≤ clampPoints board points :=
      Nat.le_trans (by decide) (clampPoints_min board points)
    let p : Properties R := { w.vna.props with sweepPoints := clampPoints board points }
    have hp : CountsOk p := ⟨⟨hmin, clampPoints_lt board points⟩, h.counts.calPoints⟩
    exact (update_settle_decides hp).congr (or_iff_right hdiff)

theorem reset_decides (h : Consistent board w) :
    Decides board (UpdateOk (calibratedSweep w.vna.props)) (checkedResetSweepFrequency board w) :=
  update_settle_decides ⟨h.counts.calPoints, h.counts.calPoints⟩

def LoadOk (board : Board) (p : Properties R) : List Nat → Prop
  | [] => True
  | start :: rest =>
    sweepPointsMax board < rest.length + 1 ∨ (start :: rest).any (frequencyMax < ·) = true ∨
      let p := requestRange .start start true { p with sweepPoints := rest.length + 1 }
      UpdateOk p ∧ UpdateOk (requestRange .stop (rest.getLastD start) true p)

instance (board : Board) (p : Properties R) : ∀ lines, Decidable (LoadOk board p lines)
  | [] => isTrue trivial
  | _ :: _ => inferInstanceAs (Decidable (_ ∨ _ ∨ _ ∧ _))

theorem updateOk_stop (s : Vna R) (stop : Nat) :
    UpdateOk (requestRange .stop stop true (appMeasurementUpdateFrequencies s).props) ↔
      UpdateOk (requestRange .stop stop true s.props) := by
  have hspan : getSweepFrequency
        (requestRange .stop stop true (appMeasurementUpdateFrequencies s).props) .span =
      getSweepFrequency (requestRange .stop stop true s.props) .span := rfl
  have hmarkers : ∀ i, ((requestRange .stop stop true
        (appMeasurementUpdateFrequencies s).props).markers i).enabled =
      ((requestRange .stop stop true s.props).markers i).enabled := enabled_update s
  have hpoints : (requestRange .stop stop true (appMeasurementUpdateFrequencies s).props).sweepPoints =
      (requestRange .stop stop true s.props).sweepPoints := rfl
  simp only [UpdateOk, hspan, hmarkers, hpoints]

theorem loadSnp_decides (h : Consistent board w) (lines : List Nat) :
    Decides board (LoadOk board w.vna.props lines) (checkedLoadSnp board lines w) := by
  cases lines with
  | nil =>
    unfold checkedLoadSnp
    split <;> exact .of_some h trivial
  | cons start rest =>
    simp only [checkedLoadSnp, LoadOk, List.length_cons]
    split
    · rename_i hbad
      exact .of_some h (hbad.imp_right .inl)
    · rename_i hgood
      have hlen : rest.length + 1 < 65536 := by
        have := not_or.mp hgood
        cases board <;> simp only [sweepPointsMax] at this <;> omega
      let p : Properties R := { w.vna.props with sweepPoints := rest.length + 1 }
      have hp : CountsOk p := ⟨⟨Nat.succ_pos _, hlen⟩, h.counts.calPoints⟩
      have hstart : CountsOk (requestRange .start start true p) := counts_request hp ..
      let first := w.withProps (requestRange .start start true p)
      have hfirst : ∀ t, checkedSetSweepFrequency board .start start true (w.withProps p) = some t ↔
          UpdateOk (requestRange .start start true p) ∧ updated board first.vna = t :=
        fun t => checkedUpdate_eq_some_iff hstart
      have hcons : Consistent board (updated board first.vna) := consistent_updated hstart
      have hvar : ¬ StimulusType.stop = .var := by decide
      have hstop := (updateOk_stop first.vna (rest.getLastD start)).symm.trans
        (or_iff_right hvar).symm
      have hsecond := (sweepFrequency_decides hcons .stop (rest.getLastD start) true).congr hstop
      refine (Decides.bind hfirst hsecond).congr ?_
      rw [← or_assoc, or_iff_right hgood]
      exact Iff.rfl

/-- A scan asks for more than one point, and the sweep it restores can be divided by. -/
def ScanOk (board : Board) (s : Vna R) (argv : List Arg) : Prop :=
  match scanOf board argv s with
  | none => True
  | some r => r.points ≠ 1 ∧ (restoreConfig r s.props = true → UpdateOk s.props)

instance (board : Board) (s : Vna R) (argv : List Arg) : Decidable (ScanOk board s argv) := by
  unfold ScanOk
  split <;> infer_instance

theorem scanOf_points {s : Vna R} {argv : List Arg} {r : ScanRequest}
    (h : scanOf board argv s = some r) :
    r.points = s.props.sweepPoints ∨ 1 ≤ r.points ∧ r.points < 65536 := by
  unfold scanOf scanRequest at h
  have hboard : sweepPointsMax board < 65536 := by cases board <;> decide
  split at h
  · rename_i start stop args
    dsimp only at h
    split at h
    · cases h
    · split at h
      · cases h
      · split at h
        · obtain rfl := Option.some.inj h
          exact .inl rfl
        · split at h
          · cases h
          · rename_i hpoints
            refine .inr ?_
            split at h <;>
            · obtain rfl := Option.some.inj h
              dsimp only
              omega
  · cases h

theorem scan_decides (h : Consistent board w) (argv : List Arg) :
    Decides board (ScanOk board w.vna argv) (checkedScan board argv w) := by
  unfold ScanOk checkedScan
  cases hscan : scanOf board argv w.vna with
  | none => exact .of_some h trivial
  | some r =>
    have hcount : 1 ≤ r.points ∧ r.points < 65536 := by
      obtain hsame | hother := scanOf_points hscan
      · exact hsame ▸ h.counts.points
      · exact hother
    have hgrid : ∀ g, checkedSetFrequencies r.start r.stop r.points = some g ↔
        r.points ≠ 1 ∧ appMeasurementSetFrequencies r.start r.stop r.points = g := by
      intro g
      rw [checkedSetFrequencies_eq_some_iff]
      exact and_congr_left' (by omega)
    refine Decides.bind hgrid ?_
    simp only [checkedRestore]
    split
    · rename_i hrestore
      exact (update_decides (w := ⟨{ w.vna with
        grid := appMeasurementSetFrequencies r.start r.stop r.points }, w.lines⟩) h.counts).congr
        (forall_prop_of_true hrestore)
    · rename_i hrestore
      have hintervals : (r.points + 65535) % 65536 = r.points - 1 := by omega
      exact .of_some ⟨⟨hcount, h.counts.calPoints⟩, hintervals, h.lines⟩ (absurd · hrestore)

theorem getFrequency_iff (h : Consistent board w) (idx : Nat) :
    w.vna.props.sweepPoints ≠ 1 ↔ ∃ f, checkedGetFrequency w.vna.grid idx = some f := by
  have hpoints := h.counts.points
  have hf := h.fPoints
  simp only [checkedGetFrequency_eq_some_iff, exists_and_left, exists_eq', and_true]
  omega

theorem tryStep_spec {fspan grid next : Nat} (hgrid : 0 < grid) (hspan : fspan < 40 * grid)
    (hnext : fspan < 4 * grid → 0 < next ∧ fspan < 10 * next ∧ (4 * next ≤ fspan ∨ next = 1)) :
    0 < tryStep fspan grid next ∧ fspan < 10 * tryStep fspan grid next ∧
      (4 * tryStep fspan grid next ≤ fspan ∨ tryStep fspan grid next = 1) := by
  have hle : ∀ n, n ≤ fspan / grid ↔ n * grid ≤ fspan := fun n => Nat.le_div_iff_mul_le hgrid
  simp only [tryStep, hle]
  split
  · omega
  · split
    · omega
    · split
      · omega
      · exact hnext (by omega)

theorem gridStep_spec {fspan : Nat} (e : Nat) (hspan : fspan < 40 * 10 ^ e) :
    0 < gridStep fspan e ∧ fspan < 10 * gridStep fspan e ∧
      (4 * gridStep fspan e ≤ fspan ∨ gridStep fspan e = 1) := by
  induction e with
  | zero => exact tryStep_spec Nat.one_pos hspan fun h => ⟨Nat.one_pos, by omega, .inr rfl⟩
  | succ e ih =>
    refine tryStep_spec (Nat.pow_pos (by decide)) hspan fun h => ih ?_
    rw [Nat.pow_succ] at h
    omega

theorem updateGrid_width_iff (board : Board) (fstart fstop : Nat) :
    (updateGrid board fstart fstop).width ≠ 0 ↔ sub32 fstop fstart ≠ 0 := by
  simp only [updateGrid]
  split
  · rename_i hzero
    exact iff_of_false (fun h => h rfl) fun h => h hzero
  · rename_i hspan
    refine iff_of_true ?_ hspan
    have hlt : sub32 fstop fstart < 40 * 10 ^ 9 := (u32_lt _).trans (by decide)
    obtain ⟨hpos, hten, hfour⟩ := gridStep_spec 9 hlt
    generalize gridStep (sub32 fstop fstart) 9 = grid at hpos hten hfour
    generalize sub32 fstop fstart = fspan at hspan hten hfour
    have hwidth : 10 ≤ plotWidth board * 128 ∧ plotWidth board * 128 < 65536 := by
      cases board <;> decide
    generalize plotWidth board * 128 = width at hwidth
    have hone : 1 ≤ grid * width / fspan := by
      rw [Nat.le_div_iff_mul_le (by omega)]
      have := Nat.mul_le_mul_left grid hwidth.1
      omega
    have hmax : grid * width / fspan < 65536 := by
      rw [Nat.div_lt_iff_lt_mul (by omega)]
      have hgrid : grid ≤ fspan := by omega
      have := Nat.mul_le_mul_right width hgrid
      have := Nat.mul_lt_mul_of_pos_left hwidth.2 (Nat.pos_of_ne_zero hspan)
      rw [Nat.mul_comm 65536]
      omega
    dsimp only
    omega

theorem rectangularGridX_iff (h : Consistent board w) (x : Nat) :
    sub32 x 5 = 0 ∨ plotWidth board ≤ sub32 x 5 ∨ getSweepFrequency w.vna.props .span ≠ 0 ↔
      ∃ r, checkedRectangularGridX board w.lines x = some r := by
  have hwidth : w.lines.width ≠ 0 ↔ getSweepFrequency w.vna.props .span ≠ 0 := by
    rw [h.lines]
    exact updateGrid_width_iff board _ _
  simp only [checkedRectangularGridX]
  split
  · rename_i hout
    exact iff_of_true (.inr (.inl (Nat.le_of_lt hout))) ⟨_, rfl⟩
  · rename_i hin
    split
    · rename_i hedge
      exact iff_of_true (hedge.imp_right fun heq => .inl (Nat.le_of_eq heq.symm)) ⟨_, rfl⟩
    · rename_i hinner
      rw [← or_assoc, or_iff_right (by omega), ← hwidth]
      simp only [Option.map_eq_some_iff, remainder_eq_some_iff]
      constructor
      · exact fun hne => ⟨_, _, ⟨hne, rfl⟩, rfl⟩
      · rintro ⟨_, _, ⟨hne, -⟩, -⟩
        exact hne

/-- The two divisions by the number of intervals come after a test that there is one. -/
theorem checkedBracket_defined (frequency0 span points idx : Nat) :
    ∃ r, checkedBracket frequency0 span points idx = some r := by
  unfold checkedBracket
  split
  · exact ⟨_, rfl⟩
  · rename_i hidx
    have hpoints : points ≠ 0 := by omega
    simp only [divide, if_neg hpoints]
    exact ⟨_, rfl⟩

theorem measureGetValue_iff (p : Properties R) (f : Nat) :
    ¬ (p.frequency0 ≤ f ∧ f ≤ p.frequency1 ∧ getSweepFrequency p .span = 0) ↔
      ∃ r, checkedMeasureGetValue p f = some r := by
  unfold checkedMeasureGetValue
  split
  · exact iff_of_true (by omega) ⟨_, rfl⟩
  · rename_i hin
    have hspan : getSweepFrequency p .span = sub32 p.frequency1 p.frequency0 := by
      simp only [getSweepFrequency, sweepGetOrdered]
      rw [if_pos (by omega)]
    rw [hspan]
    constructor
    · intro hne
      obtain ⟨r, hr⟩ := checkedBracket_defined p.frequency0 (sub32 p.frequency1 p.frequency0)
        ((p.sweepPoints + 65535) % 65536) _
      exact ⟨r, Option.bind_eq_some_iff.mpr ⟨_, divide_eq_some_iff.mpr ⟨by omega, rfl⟩, hr⟩⟩
    · rintro ⟨r, hr⟩
      obtain ⟨idx, hidx, -⟩ := Option.bind_eq_some_iff.mp hr
      exact fun hzero => (divide_eq_some_iff.mp hidx).1 hzero.2.2

def NoZeroDivisor (board : Board) (w : Drawn R) : DrawnCall → Prop
  | .sweepFrequency type freq enforceOrder =>
    type = .var ∨ UpdateOk (requestRange type freq.toNat enforceOrder w.vna.props)
  | .sweepPoints points =>
    clampPoints board points.toNat = w.vna.props.sweepPoints ∨
      UpdateOk { w.vna.props with sweepPoints := clampPoints board points.toNat }
  | .resetSweepFrequency => UpdateOk (calibratedSweep w.vna.props)
  | .loadSnp lines => LoadOk board w.vna.props (lines.map UInt32.toNat)
  | .scan argv => ScanOk board w.vna argv
  | .getFrequency _ => w.vna.props.sweepPoints ≠ 1
  | .rectangularGridX x =>
    sub32 x.toNat 5 = 0 ∨ plotWidth board ≤ sub32 x.toNat 5 ∨
      getSweepFrequency w.vna.props .span ≠ 0
  | .measureGetValue f =>
    ¬ (w.vna.props.frequency0 ≤ f.toNat ∧ f.toNat ≤ w.vna.props.frequency1 ∧
      getSweepFrequency w.vna.props .span = 0)

instance (board : Board) (w : Drawn R) : ∀ call, Decidable (NoZeroDivisor board w call)
  | .sweepFrequency _ _ _ => inferInstanceAs (Decidable (_ ∨ _))
  | .sweepPoints _ => inferInstanceAs (Decidable (_ ∨ _))
  | .resetSweepFrequency => inferInstanceAs (Decidable (UpdateOk _))
  | .loadSnp _ => inferInstanceAs (Decidable (LoadOk _ _ _))
  | .scan _ => inferInstanceAs (Decidable (ScanOk _ _ _))
  | .getFrequency _ => inferInstanceAs (Decidable (_ ≠ _))
  | .rectangularGridX _ => inferInstanceAs (Decidable (_ ∨ _ ∨ _))
  | .measureGetValue _ => inferInstanceAs (Decidable (¬ _))

theorem reader_decides (h : Consistent board w) {r : Option β} (hr : P ↔ ∃ b, r = some b) :
    Decides board P (r.map fun _ => w) where
  defined := by
    refine hr.trans ⟨?_, ?_⟩
    · rintro ⟨b, rfl⟩
      exact ⟨w, rfl⟩
    · rintro ⟨t, ht⟩
      obtain ⟨b, hb, -⟩ := Option.map_eq_some_iff.mp ht
      exact ⟨b, hb⟩
  consistent t ht := by
    obtain ⟨b, -, rfl⟩ := Option.map_eq_some_iff.mp ht
    exact h

theorem call_decides (h : Consistent board w) (call : DrawnCall) :
    Decides board (NoZeroDivisor board w call) (drawnCall board w call) := by
  cases call with
  | sweepFrequency type freq enforceOrder =>
    exact sweepFrequency_decides h type freq.toNat enforceOrder
  | sweepPoints points => exact sweepPoints_decides h points.toNat
  | resetSweepFrequency => exact reset_decides h
  | loadSnp lines => exact loadSnp_decides h (lines.map UInt32.toNat)
  | scan argv => exact scan_decides h argv
  | getFrequency idx => exact reader_decides h (getFrequency_iff h idx.toNat)
  | rectangularGridX x =>
    have hread := reader_decides h (rectangularGridX_iff h x.toNat)
    rw [drawnCall, NoZeroDivisor]
    exact hread
  | measureGetValue f => exact reader_decides h (measureGetValue_iff w.vna.props f.toNat)

/-- A run of calls divides by zero nowhere exactly when no call leads to a single point, to an
enabled marker with less than a hertz to each interval, or to a reader without a span. -/
theorem no_zero_divisor_iff (board : Board) (w : Drawn R) (h : Consistent board w)
    (calls : List DrawnCall) :
    Throughout (drawnCall board) (fun _ => True) w calls ↔
      Along (drawnCall board) (NoZeroDivisor board) w calls := by
  have hpost : ∀ w : Drawn R, Consistent board w → True := fun _ _ => trivial
  refine throughout_post_iff_along hpost (fun w call hw hguard => ?_)
    (fun w call t hw ht _ => (call_decides hw call).defined.mpr ⟨t, ht⟩) h
  obtain ⟨t, ht⟩ := (call_decides hw call).defined.mp hguard
  exact ⟨t, ht, (call_decides hw call).consistent t ht⟩

def startedDrawn (R : Type) [Zero R] (board : Board) : Drawn R := updated board (defaultVna R board)

theorem consistent_started (R : Type) [Zero R] (board : Board) :
    Consistent board (startedDrawn R board) := by
  have hmax : 1 ≤ sweepPointsMax board ∧ sweepPointsMax board < 65536 := by cases board <;> decide
  exact consistent_updated ⟨hmax, hmax⟩

theorem no_zero_divisor_started :
    Throughout (drawnCall .f072) (fun _ => True) (startedDrawn Nat .f072)
      [.sweepFrequency .start 1000000 true, .sweepFrequency .stop 1000100 true,
        .scan ["50000".toList, "900000000".toList, "51".toList], .getFrequency 100,
        .rectangularGridX 100, .measureGetValue 1000050] :=
  (no_zero_divisor_iff .f072 (startedDrawn Nat .f072) (consistent_started Nat .f072) _).mpr
    (by decide +kernel)

/-- A marker is enabled at start-up: a zero span divides by the step of the markers, and a scan or a
file of one point by its intervals. -/
theorem zero_divisors :
    let w := startedDrawn Nat .f072
    (drawnCall .f072 w (.sweepFrequency .cw 1000000000 true)).isNone ∧
      (drawnCall .f072 w (.scan ["1000000".toList, "2000000".toList, "1".toList])).isNone ∧
      (drawnCall .f072 w (.loadSnp [1000000])).isNone := by
  decide +kernel

end NanoVNA.DivisionSafety
