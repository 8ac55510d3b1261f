import NanoVNA.Markers

namespace NanoVNA.MarkerPlacement

open NanoVNA.DeviceState NanoVNA.SweepGrid NanoVNA.SweepFrequency NanoVNA.SweepRequests
open NanoVNA.ShellArguments NanoVNA.Markers NanoVNA.GuardedRun

variable {R : Type}

/-- A marker stands at a point of the sweep and has the frequency of that point. -/
def Placed (s : Vna R) (m : Marker) : Prop :=
  m.index < s.props.sweepPoints ∧ m.frequency = getFrequency s.grid m.index

instance (s : Vna R) (m : Marker) : Decidable (Placed s m) := inferInstanceAs (Decidable (_ ∧ _))

def MarkersPlaced (s : Vna R) : Prop :=
  ∀ i, (s.props.markers i).enabled = true → Placed s (s.props.markers i)

instance (s : Vna R) : Decidable (MarkersPlaced s) := inferInstanceAs (Decidable (∀ _, _ → _))

def HasPoints (s : Vna R) : Prop := 1 ≤ s.props.sweepPoints ∧ 1 ≤ s.props.calSweepPoints

instance (s : Vna R) : Decidable (HasPoints s) := inferInstanceAs (Decidable (_ ∧ _))

variable {s : Vna R}

theorem placed_setMarkerIndex (h : 1 ≤ s.props.sweepPoints) (m : Marker) (idx : Int) :
    Placed s (setMarkerIndex s.grid s.props.sweepPoints m idx) := by
  constructor
  · simp only [setMarkerIndex]
    grind
  · rfl

theorem updateMarkerIndex_placed (h : 1 ≤ s.props.sweepPoints) (start stop : Nat) :
    MarkersPlaced { s with
      props := updateMarkerIndex s.grid start stop s.props.sweepPoints s.props } := by
  intro i hi
  by_cases hon : (s.props.markers i).enabled = true
  · simp only [updateMarkerIndex, hon, if_true]
    exact placed_setMarkerIndex (s := { s with
      props := updateMarkerIndex s.grid start stop s.props.sweepPoints s.props }) h _ _
  · simp only [updateMarkerIndex, hon] at hi
    exact absurd hi hon

structure Settled (s : Vna R) : Prop where
  points : HasPoints s
  placed : MarkersPlaced s

theorem settled_settleSweep (h : HasPoints s) : Settled (settleSweep s) where
  points := h
  placed := updateMarkerIndex_placed h.1 _ _

theorem update_eq_settleSweep (s : Vna R) :
    appMeasurementUpdateFrequencies s = settleSweep { s with
      grid := appMeasurementSetFrequencies (sweepGetOrdered s.props).1 (sweepGetOrdered s.props).2
        s.props.sweepPoints } := rfl

theorem settled_update (h : HasPoints s) : Settled (appMeasurementUpdateFrequencies s) :=
  update_eq_settleSweep s ▸ settled_settleSweep h

theorem settled_sweepFrequency (h : Settled s) (type : StimulusType) (freq : Nat)
    (enforceOrder : Bool) : Settled (setSweepFrequencyInternal type freq enforceOrder s) := by
  obtain ⟨_, centerSpan, f0, f1, heq⟩ | ⟨_, varFreq, heq⟩ :=
    setSweepFrequencyInternal_cases type freq enforceOrder s
  · rw [heq]
    exact settled_update h.points
  · rw [heq]
    exact ⟨h.points, h.placed⟩

theorem settled_sweepPoints (h : Settled s) (board : Board) (points : Nat) :
    Settled (setSweepPoints board points s) := by
  obtain heq | heq := setSweepPoints_cases board points s
  · rwa [heq]
  · rw [heq]
    have hmin : 1 ≤ clampPoints board points :=
      Nat.le_trans (by decide) (clampPoints_min board points)
    exact settled_settleSweep ⟨hmin, h.points.2⟩

theorem settled_loadSnp (h : Settled s) (board : Board) (lines : List Nat) :
    Settled (loadSnp board lines s) := by
  obtain heq | ⟨points, start, stop, hmin, -, heq⟩ := loadSnp_cases board lines s
  · rwa [heq]
  · rw [heq]
    have hstart : Settled (setSweepFrequency .start start
        { s with props := { s.props with sweepPoints := points } }) :=
      settled_update ⟨hmin, h.points.2⟩
    exact settled_sweepFrequency hstart .stop stop true

variable {w : Marked R}

theorem settled_write_iff (hpoints : HasPoints w.vna) {i : Fin 8}
    (hothers : ∀ j, j ≠ i → (w.marker j).enabled = true → Placed w.vna (w.marker j)) (m : Marker) :
    Settled (w.setMarkers (Function.update w.marker i m)).vna ↔
      (m.enabled = true → Placed w.vna m) := by
  constructor
  · intro h
    have hi : (Function.update w.marker i m i).enabled = true →
        Placed w.vna (Function.update w.marker i m i) := h.placed i
    rwa [Function.update_self] at hi
  · intro hm
    refine ⟨hpoints, fun j (hj : (Function.update w.marker i m j).enabled = true) => ?_⟩
    change Placed w.vna (Function.update w.marker i m j)
    by_cases hji : j = i
    · subst hji
      rw [Function.update_self] at hj ⊢
      exact hm hj
    · rw [Function.update_of_ne hji] at hj ⊢
      exact hothers j hji hj

theorem settled_place (h : Settled w.vna) (i : Fin 8) (idx : Int) : Settled (w.place i idx).vna :=
  (settled_write_iff h.points (fun j _ => h.placed j) _).mpr fun _ =>
    placed_setMarkerIndex h.points.1 _ _

theorem settled_disable (h : Settled w.vna) (i : Fin 8) : Settled (w.enable i false).vna :=
  (settled_write_iff h.points (fun j _ => h.placed j) _).mpr nofun

theorem placed_iff_of_settled (h : Settled w.vna) (i : Fin 8) :
    Placed w.vna (w.marker i) ↔ ((w.marker i).enabled = false → Placed w.vna (w.marker i)) := by
  refine ⟨fun hp _ => hp, fun hoff => ?_⟩
  cases hon : (w.marker i).enabled with
  | true => exact h.placed i hon
  | false => exact hoff hon

theorem settled_enable_iff (h : Settled w.vna) (i : Fin 8) :
    Settled (w.enable i true).vna ↔ ((w.marker i).enabled = false → Placed w.vna (w.marker i)) :=
  (settled_write_iff h.points (fun j _ => h.placed j) _).trans
    (forall_prop_of_true rfl |>.trans (placed_iff_of_settled h i))

theorem settled_enableAll_iff (h : Settled w.vna) (enabled : Bool) :
    Settled (w.enableAll enabled).vna ↔
      ∀ i, enabled = true → (w.marker i).enabled = false → Placed w.vna (w.marker i) := by
  constructor
  · exact fun hon i henabled _ => hon.placed i henabled
  · intro hoff
    exact ⟨h.points, fun i hi => (placed_iff_of_settled h i).mpr (hoff i hi)⟩

theorem settled_index (h : Settled w.vna) (t : Fin 8) (idx : Int) :
    Settled ((w.enable t true).place t idx).vna := by
  refine (settled_write_iff (w := w.enable t true) h.points (fun j hj hon => ?_) _).mpr fun _ =>
    placed_setMarkerIndex h.points.1 _ _
  change (Function.update w.marker t _ j).enabled = true at hon
  change Placed w.vna (Function.update w.marker t _ j)
  rw [Function.update_of_ne hj] at hon ⊢
  exact h.placed j hon

def switchesOn : MarkerCall → Fin 8 → Bool
  | .cmdMarker argv, i =>
    match markerRequest argv with
    | .all enabled => enabled
    | .select t | .on t => i = t
    | .list | .off _ | .index _ _ | .usage => false
  | .menuSelect mk, i => i = mk
  | _, _ => false

def KeptPlace (w : Marked R) (call : MarkerCall) : Prop :=
  ∀ i, switchesOn call i = true → (w.marker i).enabled = false → Placed w.vna (w.marker i)

instance (w : Marked R) (call : MarkerCall) : Decidable (KeptPlace w call) :=
  inferInstanceAs (Decidable (∀ _, _ → _ → _))

theorem keptPlace_one_iff (w : Marked R) (t : Fin 8) :
    ((w.marker t).enabled = false → Placed w.vna (w.marker t)) ↔
      ∀ i, decide (i = t) = true → (w.marker i).enabled = false → Placed w.vna (w.marker i) := by
  simp only [decide_eq_true_eq, forall_eq]

theorem cmdMarker_settled_iff (h : Settled w.vna) (argv : List Arg) :
    Settled (cmdMarker argv w).vna ↔ KeptPlace w (.cmdMarker argv) := by
  unfold cmdMarker KeptPlace
  simp only [switchesOn]
  cases markerRequest argv with
  | list | usage => exact iff_of_true h nofun
  | all enabled => exact settled_enableAll_iff h enabled
  | select t | on t => exact (settled_enable_iff h t).trans (keptPlace_one_iff w t)
  | off t => exact iff_of_true (settled_disable h t) nofun
  | index t idx => exact iff_of_true (settled_index h t idx) nofun

theorem menuSelect_settled_iff (h : Settled w.vna) (mk : Fin 8) :
    Settled (menuMarkerSelAcb mk w).vna ↔ KeptPlace w (.menuSelect mk) := by
  refine Iff.trans ?_ (keptPlace_one_iff w mk)
  unfold menuMarkerSelAcb
  cases hon : (w.marker mk).enabled with
  | false =>
    have henable := settled_enable_iff h mk
    rw [hon] at henable
    exact henable
  | true =>
    refine iff_of_true ?_ nofun
    simp only [if_true]
    split
    · exact settled_disable h mk
    · exact h

theorem settled_markerSpan (h : Settled w.vna) (below : Option Marker) (freq : Nat)
    {t : Marked R} (ht : markerSpan below freq w = some t) : Settled t.vna := by
  unfold markerSpan at ht
  split at ht
  · obtain rfl := Option.some.inj ht
    exact settled_sweepFrequency h .span _ true
  · obtain ⟨marker, -, rfl⟩ := Option.map_eq_some_iff.mp ht
    dsimp only
    split
    · exact h
    · exact settled_sweepFrequency (settled_sweepFrequency h .start _ true) .stop _ true

theorem settled_menuOp (h : Settled w.vna) (below : Option Marker) (op : MarkerOp)
    {t : Marked R} (ht : menuMarkerOpCb below op w = some t) : Settled t.vna := by
  obtain ⟨marker, -, ht⟩ := Option.bind_eq_some_iff.mp ht
  dsimp only at ht
  split at ht
  · obtain rfl := Option.some.inj ht
    exact h
  · cases op with
    | start =>
      obtain rfl := Option.some.inj ht
      exact settled_sweepFrequency h .start _ true
    | stop =>
      obtain rfl := Option.some.inj ht
      exact settled_sweepFrequency h .stop _ true
    | center =>
      obtain rfl := Option.some.inj ht
      exact settled_sweepFrequency h .center _ true
    | span => exact settled_markerSpan h below _ ht
    | edelay =>
      obtain rfl := Option.some.inj ht
      exact h

theorem settled_search (h : Settled w.vna) (curve : Option Curve) :
    Settled (markerSearch curve w).vna := by
  unfold markerSearch
  split
  · exact settled_place h _ _
  · exact h

theorem settled_searchDir (h : Settled w.vna) (curve : Option Curve) (start : Nat)
    (dir : SearchDir) : Settled (markerSearchDir curve start dir w).vna := by
  unfold markerSearchDir
  split
  · dsimp only
    split
    · exact h
    · exact settled_place h _ _
  · exact h

theorem settled_leverRounds (h : Settled w.vna) (i : Fin 8) (step : Nat) (held : List Buttons) :
    Settled (leverRounds i step held w).vna := by
  induction held generalizing step w with
  | nil => exact h
  | cons status held ih => exact ih (settled_place h i _) _

theorem settled_lever (h : Settled w.vna) (held : List Buttons) :
    Settled (leverMoveMarker held w).vna := by
  unfold leverMoveMarker
  split
  · exact h
  · rename_i i _
    split
    · exact settled_leverRounds h i 8 held
    · exact h

theorem settled_drag (h : Settled w.vna) (touch : Distances) : Settled (dragMarker w touch).vna := by
  unfold dragMarker
  split
  · split
    · exact h
    · exact settled_place h _ _
  · exact h

theorem settled_drags (h : Settled w.vna) (drag : List Distances) :
    Settled (drag.foldl dragMarker w).vna := by
  induction drag generalizing w with
  | nil => exact h
  | cons touch drag ih => exact ih (settled_drag h touch)

theorem settled_touch (h : Settled w.vna) (traces drag : List Distances) :
    Settled (touchPickupMarker traces drag w).vna := by
  simp only [touchPickupMarker]
  split
  · exact h
  · refine settled_drags ?_ drag
    split <;> exact h

/-- The one thing that can take a marker off the grid is to switch it on. -/
theorem settled_call_iff (h : Settled w.vna) (board : Board) (below : Option Marker)
    (call : MarkerCall) {t : Marked R} (ht : markerCall board below w call = some t) :
    Settled t.vna ↔ KeptPlace w call := by
  cases call with
  | cmdMarker argv =>
    obtain rfl := Option.some.inj ht
    exact cmdMarker_settled_iff h argv
  | menuSelect mk =>
    obtain rfl := Option.some.inj ht
    exact menuSelect_settled_iff h mk
  | sweepFrequency type freq enforceOrder =>
    obtain rfl := Option.some.inj ht
    exact iff_of_true (settled_sweepFrequency h type freq.toNat enforceOrder) nofun
  | sweepPoints points =>
    obtain rfl := Option.some.inj ht
    exact iff_of_true (settled_sweepPoints h board points.toNat) nofun
  | resetSweepFrequency =>
    obtain rfl := Option.some.inj ht
    exact iff_of_true (settled_settleSweep ⟨h.points.2, h.points.2⟩) nofun
  | loadSnp lines =>
    obtain rfl := Option.some.inj ht
    exact iff_of_true (settled_loadSnp h board _) nofun
  | updateFrequencies =>
    obtain rfl := Option.some.inj ht
    exact iff_of_true (settled_update h.points) nofun
  | menuDisableAll =>
    obtain rfl := Option.some.inj ht
    exact iff_of_true ((settled_enableAll_iff h false).mpr nofun) nofun
  | menuDeltaOrTracking =>
    obtain rfl := Option.some.inj ht
    exact iff_of_true h nofun
  | menuOp op => exact iff_of_true (settled_menuOp h below op ht) nofun
  | menuSearchDir curve dir =>
    obtain ⟨marker, -, rfl⟩ := Option.map_eq_some_iff.mp ht
    exact iff_of_true (settled_searchDir h curve marker.index dir) nofun
  | search curve =>
    obtain rfl := Option.some.inj ht
    exact iff_of_true (settled_search h curve) nofun
  | measureIndex i idx =>
    obtain rfl := Option.some.inj ht
    exact iff_of_true (settled_place h i _) nofun
  | lcMatch =>
    obtain ⟨marker, -, rfl⟩ := Option.map_eq_some_iff.mp ht
    exact iff_of_true h nofun
  | lever held =>
    obtain rfl := Option.some.inj ht
    exact iff_of_true (settled_lever h held) nofun
  | touch traces drag =>
    obtain rfl := Option.some.inj ht
    exact iff_of_true (settled_touch h traces drag) nofun

/-- A read below the array finds something, so every call goes through. -/
theorem call_defined (board : Board) (below : Marker) (w : Marked R) (call : MarkerCall) :
    ∃ t, markerCall board (some below) w call = some t := by
  have hread : ∀ i, ∃ m, w.read (some below) i = some m := by
    intro i
    cases i with
    | none => exact ⟨below, rfl⟩
    | some i => exact ⟨w.marker i, rfl⟩
  obtain ⟨active, hactive⟩ := hread w.active
  obtain ⟨previous, hprevious⟩ := hread w.previous
  cases call with
  | menuOp op =>
    simp only [markerCall, menuMarkerOpCb, hactive, Option.bind_some]
    split
    · exact ⟨_, rfl⟩
    · cases op with
      | span =>
        simp only [markerSpan, hprevious, Option.map_some]
        split <;> exact ⟨_, rfl⟩
      | start | stop | center | edelay => exact ⟨_, rfl⟩
  | menuSearchDir curve dir =>
    simp only [markerCall, menuMarkerSearchDirCb, hactive, Option.map_some]
    exact ⟨_, rfl⟩
  | lcMatch =>
    simp only [markerCall, prepareLcMatch, hactive, Option.map_some]
    exact ⟨_, rfl⟩
  | sweepFrequency | sweepPoints | resetSweepFrequency | loadSnp | updateFrequencies | cmdMarker
  | menuSelect | menuDisableAll | menuDeltaOrTracking | search | measureIndex | lever | touch =>
    exact ⟨_, rfl⟩

theorem hasPoints_cmdMarker (h : HasPoints w.vna) (argv : List Arg) :
    HasPoints (cmdMarker argv w).vna := by
  unfold cmdMarker
  cases markerRequest argv <;> exact h

theorem hasPoints_menuSelect (h : HasPoints w.vna) (mk : Fin 8) :
    HasPoints (menuMarkerSelAcb mk w).vna := by
  unfold menuMarkerSelAcb
  split
  · split <;> exact h
  · exact h

theorem keptPlace_of_placed (h : Settled w.vna) (board : Board) (below : Option Marker)
    (call : MarkerCall) {t : Marked R} (ht : markerCall board below w call = some t)
    (hplaced : MarkersPlaced t.vna) : KeptPlace w call := by
  cases call with
  | cmdMarker argv =>
    obtain rfl := Option.some.inj ht
    exact (cmdMarker_settled_iff h argv).mp ⟨hasPoints_cmdMarker h.points argv, hplaced⟩
  | menuSelect mk =>
    obtain rfl := Option.some.inj ht
    exact (menuSelect_settled_iff h mk).mp ⟨hasPoints_menuSelect h.points mk, hplaced⟩
  | sweepFrequency | sweepPoints | resetSweepFrequency | loadSnp | updateFrequencies
  | menuDisableAll | menuDeltaOrTracking | menuOp | menuSearchDir | search | measureIndex | lcMatch
  | lever | touch => exact nofun

/-- The enabled markers stand in the grid through a run of calls exactly when no call switches on
a marker that has lost its place. -/
theorem markers_placed_iff (board : Board) (below : Marker) (w : Marked R)
    (hpoints : HasPoints w.vna) (hplaced : MarkersPlaced w.vna) (calls : List MarkerCall) :
    Throughout (markerCall board (some below)) (fun w => MarkersPlaced w.vna) w calls ↔
      Along (markerCall board (some below)) KeptPlace w calls := by
  have hstart : Settled w.vna := ⟨hpoints, hplaced⟩
  have hpost : ∀ w : Marked R, Settled w.vna → MarkersPlaced w.vna := fun _ h => h.placed
  refine throughout_post_iff_along hpost (fun w call h hkept => ?_)
    (fun w call t h ht hplaced => keptPlace_of_placed h board _ call ht hplaced) hstart
  obtain ⟨t, ht⟩ := call_defined board below w call
  exact ⟨t, ht, (settled_call_iff h board _ call ht).mpr hkept⟩

theorem markers_placed_started :
    Throughout (markerCall .f072 (some ⟨false, 0, 0⟩)) (fun w => MarkersPlaced w.vna)
      (startedMarked Nat .f072)
      [.cmdMarker ["2".toList, "50".toList], .sweepPoints 51, .cmdMarker ["2".toList, "off".toList],
        .menuSelect 1] :=
  (markers_placed_iff .f072 ⟨false, 0, 0⟩ (startedMarked Nat .f072) (by decide) (by decide) _).mpr
    (by decide +kernel)

/-- Marker 2 is switched off at point 100, the sweep is cut to 51 points, and marker 2 is switched
on again. -/
theorem marker_beyond_sweep :
    let calls := [.cmdMarker ["2".toList, "101".toList], .cmdMarker ["2".toList, "off".toList],
      .sweepPoints 51, .menuSelect 1]
    ∃ t, calls.foldlM (markerCall .f072 (some ⟨false, 0, 0⟩)) (startedMarked Nat .f072) = some t ∧
      t.vna.props.sweepPoints = 51 ∧ (t.marker 1).enabled = true ∧ (t.marker 1).index = 100 ∧
      ¬ MarkersPlaced t.vna := by
  refine ⟨_, rfl, ?_⟩
  decide +kernel

end NanoVNA.MarkerPlacement
