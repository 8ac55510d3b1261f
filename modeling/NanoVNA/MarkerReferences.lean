import NanoVNA.Markers

namespace NanoVNA.MarkerReferences

open NanoVNA.DeviceState NanoVNA.SweepGrid NanoVNA.SweepFrequency NanoVNA.SweepRequests
open NanoVNA.ShellArguments NanoVNA.Markers NanoVNA.GuardedRun

variable {R α : Type}

/-- Both references are to enabled markers, they are different, and there is an active marker
whenever a marker is enabled. -/
structure RefsOk (w : Marked R) : Prop where
  active : ∀ i, w.active = some i → (w.marker i).enabled = true
  previous : ∀ i, w.previous = some i → (w.marker i).enabled = true ∧ w.active ≠ some i
  lone : w.active = none → ∀ i, (w.marker i).enabled = false

instance (w : Marked R) : Decidable (RefsOk w) :=
  decidable_of_iff ((∀ i, w.active = some i → (w.marker i).enabled = true) ∧
      (∀ i, w.previous = some i → (w.marker i).enabled = true ∧ w.active ≠ some i) ∧
      (w.active = none → ∀ i, (w.marker i).enabled = false))
    ⟨fun h => ⟨h.1, h.2.1, h.2.2⟩, fun h => ⟨h.active, h.previous, h.lone⟩⟩

structure SameRefs (w t : Marked R) : Prop where
  enabled : ∀ i, (t.marker i).enabled = (w.marker i).enabled
  active : t.active = w.active
  previous : t.previous = w.previous

variable {w t u : Marked R}

theorem SameRefs.rfl : SameRefs w w := ⟨fun _ => Eq.refl _, Eq.refl _, Eq.refl _⟩

theorem SameRefs.trans (h : SameRefs w t) (h' : SameRefs t u) : SameRefs w u where
  enabled i := (h'.enabled i).trans (h.enabled i)
  active := h'.active.trans h.active
  previous := h'.previous.trans h.previous

theorem RefsOk.of_same (hw : RefsOk w) (h : SameRefs w t) : RefsOk t where
  active i hi := (h.enabled i).trans (hw.active i (h.active.symm.trans hi))
  previous i hi := by
    rw [h.enabled i, h.active]
    exact hw.previous i (h.previous.symm.trans hi)
  lone hnone i := (h.enabled i).trans (hw.lone (h.active.symm.trans hnone) i)

theorem enabled_settleSweep (s : Vna R) (i : Fin 8) :
    ((settleSweep s).props.markers i).enabled = (s.props.markers i).enabled :=
  enabled_updateMarkerIndex _ _ _ _ s.props i

theorem enabled_sweepFrequency (type : StimulusType) (freq : Nat) (enforceOrder : Bool) (s : Vna R)
    (i : Fin 8) : ((setSweepFrequencyInternal type freq enforceOrder s).props.markers i).enabled =
      (s.props.markers i).enabled := by
  obtain ⟨_, _, _, _, heq⟩ | ⟨_, _, heq⟩ :=
    setSweepFrequencyInternal_cases type freq enforceOrder s
  · rw [heq]
    exact enabled_update _ i
  · rw [heq]

theorem enabled_sweepPoints (board : Board) (points : Nat) (s : Vna R) (i : Fin 8) :
    ((setSweepPoints board points s).props.markers i).enabled = (s.props.markers i).enabled := by
  obtain heq | heq := setSweepPoints_cases board points s
  · rw [heq]
  · rw [heq, enabled_settleSweep]
    exact enabled_update _ i

theorem enabled_loadSnp (board : Board) (lines : List Nat) (s : Vna R) (i : Fin 8) :
    ((loadSnp board lines s).props.markers i).enabled = (s.props.markers i).enabled := by
  obtain heq | ⟨_, start, stop, _, _, heq⟩ := loadSnp_cases board lines s
  · rw [heq]
  · rw [heq]
    exact (enabled_sweepFrequency .stop stop true _ i).trans
      (enabled_sweepFrequency .start start true _ i)

theorem same_withVna {s : Vna R}
    (h : ∀ i, (s.props.markers i).enabled = (w.vna.props.markers i).enabled) :
    SameRefs w (w.withVna s) := ⟨h, rfl, rfl⟩

theorem same_sweepFrequency (w : Marked R) (type : StimulusType) (freq : Nat)
    (enforceOrder : Bool) :
    SameRefs w (w.withVna (setSweepFrequencyInternal type freq enforceOrder w.vna)) :=
  same_withVna fun i => enabled_sweepFrequency type freq enforceOrder w.vna i

theorem same_place (w : Marked R) (i : Fin 8) (idx : Int) : SameRefs w (w.place i idx) where
  enabled j := by
    change (Function.update w.marker i _ j).enabled = _
    by_cases hji : j = i
    · subst hji
      rw [Function.update_self]
      rfl
    · rw [Function.update_of_ne hji]
  active := rfl
  previous := rfl

theorem same_search (w : Marked R) (curve : Option Curve) : SameRefs w (markerSearch curve w) := by
  unfold markerSearch
  split
  · exact same_place w _ _
  · exact .rfl

theorem same_searchDir (w : Marked R) (curve : Option Curve) (start : Nat) (dir : SearchDir) :
    SameRefs w (markerSearchDir curve start dir w) := by
  unfold markerSearchDir
  split
  · dsimp only
    split
    · exact .rfl
    · exact same_place w _ _
  · exact .rfl

theorem same_leverRounds (i : Fin 8) (step : Nat) (held : List Buttons) (w : Marked R) :
    SameRefs w (leverRounds i step held w) := by
  induction held generalizing step w with
  | nil => exact .rfl
  | cons status held ih => exact (same_place w i _).trans (ih _ _)

theorem same_lever (w : Marked R) (held : List Buttons) : SameRefs w (leverMoveMarker held w) := by
  unfold leverMoveMarker
  split
  · exact .rfl
  · split
    · exact same_leverRounds _ _ held w
    · exact .rfl

theorem same_drags (w : Marked R) (drag : List Distances) :
    SameRefs w (drag.foldl dragMarker w) := by
  induction drag generalizing w with
  | nil => exact .rfl
  | cons touch drag ih =>
    refine SameRefs.trans ?_ (ih (dragMarker w touch))
    unfold dragMarker
    split
    · split
      · exact .rfl
      · exact same_place w _ _
    · exact .rfl

theorem same_markerSpan (w : Marked R) (below : Option Marker) (freq : Nat) :
    ∃ t, markerSpan below freq w = some t ∧ SameRefs w t := by
  unfold markerSpan
  split
  · exact ⟨_, rfl, same_sweepFrequency w .span _ true⟩
  · rename_i hprev
    obtain ⟨i, hi⟩ := Option.ne_none_iff_exists'.mp fun h => hprev (.inl h)
    rw [hi]
    refine ⟨_, rfl, ?_⟩
    dsimp only
    split
    · exact .rfl
    · exact (same_sweepFrequency w .start _ true).trans
        (same_sweepFrequency (w.withVna (setSweepFrequency .start _ w.vna)) .stop _ true)

theorem same_menuOp {i : Fin 8} (hi : w.active = some i) (below : Option Marker) (op : MarkerOp) :
    ∃ t, menuMarkerOpCb below op w = some t ∧ SameRefs w t := by
  simp only [menuMarkerOpCb, hi, Marked.read, Option.bind_some]
  split
  · exact ⟨w, rfl, .rfl⟩
  · cases op with
    | start => exact ⟨_, rfl, same_sweepFrequency w .start _ true⟩
    | stop => exact ⟨_, rfl, same_sweepFrequency w .stop _ true⟩
    | center => exact ⟨_, rfl, same_sweepFrequency w .center _ true⟩
    | span => exact same_markerSpan w below _
    | edelay => exact ⟨w, rfl, .rfl⟩

theorem lastEnabled_spec (w : Marked R) (skip start : Option (Fin 8)) :
    (∀ i, lastEnabled w skip start = some i →
      start = some i ∨ (w.marker i).enabled = true ∧ skip ≠ some i) ∧
    (lastEnabled w skip start = none → ∀ i, (w.marker i).enabled = true → skip = some i) := by
  have hloop : ∀ (is : List (Fin 8)) (found : Option (Fin 8)),
      let last := is.foldl
        (fun found i => if (w.marker i).enabled ∧ some i ≠ skip then some i else found) found
      (∀ i, last = some i → found = some i ∨ (w.marker i).enabled = true ∧ skip ≠ some i) ∧
        (last = none → found = none ∧ ∀ i ∈ is, (w.marker i).enabled = true → skip = some i) := by
    intro is
    induction is with
    | nil => exact fun found => ⟨fun i hi => .inl hi, fun hnone => ⟨hnone, nofun⟩⟩
    | cons j is ih =>
      intro found
      rw [List.foldl_cons]
      obtain ⟨hsome, hnone⟩ := ih (if (w.marker j).enabled ∧ some j ≠ skip then some j else found)
      refine ⟨fun i hi => ?_, fun hlast => ?_⟩
      · specialize hsome i hi
        split at hsome
        · rename_i hj
          obtain hsome | hsome := hsome
          · obtain rfl := Option.some.inj hsome
            exact .inr ⟨hj.1, Ne.symm hj.2⟩
          · exact .inr hsome
        · exact hsome
      · obtain ⟨hfound, hrest⟩ := hnone hlast
        split at hfound
        · cases hfound
        · rename_i hj
          refine ⟨hfound, fun i hi hon => ?_⟩
          obtain rfl | hi := List.mem_cons.mp hi
          · exact (not_not.mp fun hne => hj ⟨hon, hne⟩).symm
          · exact hrest i hi hon
  obtain ⟨hsome, hnone⟩ := hloop (List.finRange 8) start
  exact ⟨hsome, fun hlast i => (hnone hlast).2 i (List.mem_finRange i)⟩

theorem activeMarkerCheck_refs (hactive : ∀ i, w.active = some i → (w.marker i).enabled = true)
    (hprevious : ∀ i, w.previous = some i → (w.marker i).enabled = true) :
    RefsOk (activeMarkerCheck w) := by
  obtain ⟨hfound, hnone⟩ := lastEnabled_spec w none none
  have hactive' : ∀ i, (activeMarkerCheck w).active = some i → (w.marker i).enabled = true := by
    intro i hi
    simp only [activeMarkerCheck] at hi
    split at hi
    · exact (hfound i hi).elim nofun And.left
    · exact hactive i hi
  obtain ⟨hother, -⟩ := lastEnabled_spec w (activeMarkerCheck w).active none
  refine ⟨hactive', fun i hi => ?_, fun hlone i => ?_⟩
  · change (if (if w.previous = (activeMarkerCheck w).active then none else w.previous) = none then
      lastEnabled w (activeMarkerCheck w).active none
      else if w.previous = (activeMarkerCheck w).active then none else w.previous) = some i at hi
    by_cases hsame : w.previous = (activeMarkerCheck w).active
    · rw [if_pos hsame, if_pos rfl] at hi
      exact (hother i hi).elim nofun id
    · rw [if_neg hsame] at hi
      by_cases hprev : w.previous = none
      · rw [if_pos hprev] at hi
        exact (hother i hi).elim nofun id
      · rw [if_neg hprev] at hi
        exact ⟨hprevious i hi, fun h => hsame (hi.trans h.symm)⟩
  · simp only [activeMarkerCheck] at hlone
    split at hlone
    · exact Bool.eq_false_of_not_eq_true fun hon => nomatch hnone hlone i hon
    · rename_i hsome
      exact absurd hlone hsome

theorem enabled_enable (w : Marked R) (t : Fin 8) (enabled : Bool) (i : Fin 8) :
    ((w.enable t enabled).marker i).enabled = if i = t then enabled else (w.marker i).enabled := by
  change (Function.update w.marker t _ i).enabled = _
  by_cases hit : i = t
  · subst hit
    rw [Function.update_self, if_pos rfl]
  · rw [Function.update_of_ne hit, if_neg hit]

theorem menuSelect_refs (h : RefsOk w) (mk : Fin 8) : RefsOk (menuMarkerSelAcb mk w) := by
  unfold menuMarkerSelAcb
  by_cases hon : (w.marker mk).enabled = true
  · rw [if_pos hon]
    split
    · rename_i hactive
      refine activeMarkerCheck_refs (fun i hi => ?_) nofun
      obtain ⟨henabled, hne⟩ := h.previous i hi
      refine (enabled_enable w mk false i).trans ?_
      rw [if_neg fun hmk => hne (hactive.trans (congrArg some hmk.symm))]
      exact henabled
    · refine activeMarkerCheck_refs (fun i hi => ?_) h.active
      obtain rfl := Option.some.inj hi
      exact hon
  · rw [if_neg hon]
    refine activeMarkerCheck_refs (fun i hi => ?_) fun i hi => ?_
    · obtain rfl := Option.some.inj hi
      exact (enabled_enable w mk true mk).trans (if_pos rfl)
    · refine (enabled_enable w mk true i).trans ?_
      split
      · rfl
      · exact h.active i hi

theorem disableAll_refs (w : Marked R) : RefsOk (menuMarkerDisableAllCb w) :=
  ⟨nofun, nofun, fun _ _ => rfl⟩

theorem nearest_mem {candidates : List (Int × α)} {a : α} (h : nearest candidates = some a) :
    ∃ c ∈ candidates, c.2 = a := by
  have hloop : ∀ (cs : List (Int × α)) (best : Int × Option α),
      (cs.foldl (fun (best : Int × Option α) c =>
        if c.1 < best.1 then (c.1, some c.2) else best) best).2 = some a →
      best.2 = some a ∨ ∃ c ∈ cs, c.2 = a := by
    intro cs
    induction cs with
    | nil => exact fun best hbest => .inl hbest
    | cons c cs ih =>
      intro best hbest
      obtain hnow | ⟨d, hd, hda⟩ := ih _ hbest
      · dsimp only at hnow
        split at hnow
        · exact .inr ⟨c, List.mem_cons_self, Option.some.inj hnow⟩
        · exact .inl hnow
      · exact .inr ⟨d, List.mem_cons_of_mem c hd, hda⟩
  exact (hloop candidates _ h).elim nofun id

theorem touch_refs (h : RefsOk w) (traces drag : List Distances) :
    RefsOk (touchPickupMarker traces drag w) := by
  simp only [touchPickupMarker]
  split
  · exact h
  · rename_i i hnearest
    have hon : (w.marker i).enabled = true := by
      obtain ⟨c, hc, rfl⟩ := nearest_mem hnearest
      obtain ⟨distances, -, hc⟩ := List.mem_flatMap.mp hc
      obtain ⟨m, hm, rfl⟩ := List.mem_map.mp hc
      exact (List.mem_filter.mp hm).2
    refine RefsOk.of_same ?_ (same_drags _ drag)
    split
    · exact h
    · rename_i hne
      refine ⟨fun j hj => ?_, fun j hj => ⟨h.active j hj, fun hij => hne ?_⟩, nofun⟩
      · obtain rfl := Option.some.inj hj
        exact hon
      · exact Eq.trans hj hij.symm

/-- What the arguments of the shell command must find for the references to stay in order. -/
def RequestKeepsRefs (w : Marked R) : MarkerRequest → Prop
  | .list | .usage => True
  | .all true => w.previous ≠ some 0
  | .all false => w.previous = none
  | .select t | .on t | .index t _ => w.previous ≠ some t
  | .off t =>
    w.previous ≠ some t ∧ (w.active = some t → ∀ i, i ≠ t → (w.marker i).enabled = false)

instance (w : Marked R) : ∀ request, Decidable (RequestKeepsRefs w request)
  | .list | .usage => isTrue trivial
  | .all true => inferInstanceAs (Decidable (_ ≠ _))
  | .all false => inferInstanceAs (Decidable (_ = _))
  | .select _ | .on _ | .index _ _ => inferInstanceAs (Decidable (_ ≠ _))
  | .off _ => inferInstanceAs (Decidable (_ ∧ _))

theorem activate_refs_iff (h : RefsOk w) (t : Fin 8) :
    RefsOk { w.enable t true with active := some t } ↔ w.previous ≠ some t := by
  constructor
  · exact fun hrefs hprev => (hrefs.previous t hprev).2 rfl
  · intro hprev
    refine ⟨fun i hi => ?_, fun i hi => ⟨?_, fun hti => ?_⟩, nofun⟩
    · obtain rfl := Option.some.inj hi
      exact (enabled_enable w t true t).trans (if_pos rfl)
    · refine (enabled_enable w t true i).trans ?_
      split
      · rfl
      · exact (h.previous i hi).1
    · obtain rfl := Option.some.inj hti
      exact hprev hi

theorem enableAll_refs_iff (w : Marked R) (enabled : Bool) :
    RefsOk { w.enableAll enabled with active := if enabled then some 0 else none } ↔
      RequestKeepsRefs w (.all enabled) := by
  cases enabled with
  | true =>
    constructor
    · exact fun hrefs hprev => (hrefs.previous 0 hprev).2 rfl
    · intro hprev
      refine ⟨fun _ _ => rfl, fun i hi => ⟨rfl, fun hzero => hprev ?_⟩, nofun⟩
      exact Eq.trans hi hzero.symm
  | false =>
    constructor
    · intro hrefs
      exact Option.eq_none_iff_forall_ne_some.mpr fun i hi => nomatch (hrefs.previous i hi).1
    · intro hprev
      exact ⟨nofun, (fun i hi => nomatch hprev.symm.trans hi), fun _ _ => rfl⟩

theorem disable_refs_iff (h : RefsOk w) (t : Fin 8) :
    RefsOk { w.enable t false with active := if w.active = some t then none else w.active } ↔
      RequestKeepsRefs w (.off t) := by
  have hoff : ∀ i, ((w.enable t false).marker i).enabled = true → i ≠ t := by
    rintro i hi rfl
    rw [enabled_enable, if_pos rfl] at hi
    cases hi
  have hrest : ∀ i, i ≠ t → ((w.enable t false).marker i).enabled = (w.marker i).enabled :=
    fun i hi => (enabled_enable w t false i).trans (if_neg hi)
  constructor
  · intro hrefs
    refine ⟨fun hprev => hoff t (hrefs.previous t hprev).1 rfl, fun hactive i hi => ?_⟩
    rw [← hrest i hi]
    exact hrefs.lone (if_pos hactive) i
  · rintro ⟨hprev, hlone⟩
    refine ⟨fun i hi => ?_, fun i hi => ?_, fun hnone i => ?_⟩
    · dsimp only at hi
      split at hi
      · cases hi
      · rename_i hne
        exact (hrest i fun hit => hne (hit ▸ hi)).trans (h.active i hi)
    · obtain ⟨hon, hne⟩ := h.previous i hi
      refine ⟨(hrest i fun hit => hprev (hit ▸ hi)).trans hon, fun hactive => ?_⟩
      dsimp only at hactive
      split at hactive
      · cases hactive
      · exact hne hactive
    · refine (enabled_enable w t false i).trans ?_
      split
      · rfl
      · rename_i hit
        dsimp only at hnone
        split at hnone
        · rename_i hactive
          exact hlone hactive i hit
        · exact h.lone hnone i

theorem cmdMarker_refs_iff (h : RefsOk w) (argv : List Arg) :
    RefsOk (cmdMarker argv w) ↔ RequestKeepsRefs w (markerRequest argv) := by
  unfold cmdMarker
  cases markerRequest argv with
  | list | usage => exact iff_of_true h trivial
  | all enabled => exact enableAll_refs_iff w enabled
  | select t | on t => exact activate_refs_iff h t
  | off t => exact disable_refs_iff h t
  | index t idx =>
    refine Iff.trans ⟨fun hrefs => ?_, fun hrefs => ?_⟩ (activate_refs_iff h t)
    · have hsame := same_place (w.enable t true) t idx
      exact hrefs.of_same ⟨fun i => (hsame.enabled i).symm, rfl, rfl⟩
    · have hsame := same_place (w.enable t true) t idx
      exact hrefs.of_same ⟨hsame.enabled, rfl, rfl⟩

/-- What a call must find for the references to stay in order and for its reads of the active
marker to find one. -/
def KeepsRefs (w : Marked R) : MarkerCall → Prop
  | .cmdMarker argv => RequestKeepsRefs w (markerRequest argv)
  | .menuOp _ | .menuSearchDir _ _ | .lcMatch => w.active ≠ none
  | _ => True

instance (w : Marked R) (call : MarkerCall) : Decidable (KeepsRefs w call) := by
  unfold KeepsRefs
  split <;> infer_instance

theorem active_of_read {m : Marker} (h : w.read none w.active = some m) : w.active ≠ none := by
  intro hnone
  rw [hnone] at h
  cases h

theorem keeps_of_same (h : RefsOk w) {t : Marked R} (hsame : SameRefs w t) {P : Prop} (hp : P) :
    P ↔ ∃ u, some t = some u ∧ RefsOk u :=
  iff_of_true hp ⟨t, rfl, h.of_same hsame⟩

theorem call_refs_iff (h : RefsOk w) (board : Board) (call : MarkerCall) :
    KeepsRefs w call ↔ ∃ t, markerCall board none w call = some t ∧ RefsOk t := by
  cases call with
  | cmdMarker argv =>
    rw [markerCall]
    simp only [Option.some.injEq, exists_eq_left']
    exact (cmdMarker_refs_iff h argv).symm
  | menuOp op =>
    constructor
    · intro hactive
      obtain ⟨i, hi⟩ := Option.ne_none_iff_exists'.mp hactive
      obtain ⟨t, ht, hsame⟩ := same_menuOp hi none op
      exact ⟨t, ht, h.of_same hsame⟩
    · rintro ⟨t, ht, -⟩
      obtain ⟨marker, hread, -⟩ := Option.bind_eq_some_iff.mp ht
      exact active_of_read hread
  | menuSearchDir curve dir =>
    constructor
    · intro hactive
      obtain ⟨i, hi⟩ := Option.ne_none_iff_exists'.mp hactive
      refine ⟨markerSearchDir curve (w.marker i).index dir w, ?_, h.of_same (same_searchDir w _ _ _)⟩
      simp only [markerCall, menuMarkerSearchDirCb, hi, Marked.read, Option.map_some]
    · rintro ⟨t, ht, -⟩
      obtain ⟨marker, hread, -⟩ := Option.map_eq_some_iff.mp ht
      exact active_of_read hread
  | lcMatch =>
    constructor
    · intro hactive
      obtain ⟨i, hi⟩ := Option.ne_none_iff_exists'.mp hactive
      refine ⟨w, ?_, h⟩
      simp only [markerCall, prepareLcMatch, hi, Marked.read, Option.map_some]
    · rintro ⟨t, ht, -⟩
      obtain ⟨marker, hread, -⟩ := Option.map_eq_some_iff.mp ht
      exact active_of_read hread
  | menuSelect mk => exact iff_of_true trivial ⟨_, rfl, menuSelect_refs h mk⟩
  | menuDisableAll => exact iff_of_true trivial ⟨_, rfl, disableAll_refs w⟩
  | touch traces drag => exact iff_of_true trivial ⟨_, rfl, touch_refs h traces drag⟩
  | sweepFrequency type freq enforceOrder =>
    exact keeps_of_same h (same_sweepFrequency w type freq.toNat enforceOrder) trivial
  | sweepPoints points =>
    exact keeps_of_same h (same_withVna (enabled_sweepPoints board points.toNat w.vna)) trivial
  | resetSweepFrequency =>
    refine keeps_of_same h (same_withVna fun i => ?_) trivial
    exact (enabled_settleSweep _ i).trans (enabled_update _ i)
  | loadSnp lines =>
    exact keeps_of_same h (same_withVna (enabled_loadSnp board _ w.vna)) trivial
  | updateFrequencies => exact keeps_of_same h (same_withVna (enabled_update w.vna)) trivial
  | menuDeltaOrTracking => exact keeps_of_same h .rfl trivial
  | search curve => exact keeps_of_same h (same_search w curve) trivial
  | measureIndex i idx => exact keeps_of_same h (same_place w i _) trivial
  | lever held => exact keeps_of_same h (same_lever w held) trivial

/-- The references stay in order through a run of calls, and every read of a marker is inside the
array, exactly when the shell leaves the previous marker alone, switches the active one off only
when it is the last, and nothing asks for the active marker when there is none. -/
theorem refs_iff (board : Board) (w : Marked R) (h : RefsOk w) (calls : List MarkerCall) :
    Throughout (markerCall board none) RefsOk w calls ↔
      Along (markerCall board none) KeepsRefs w calls :=
  throughout_iff_along (fun _ call hw => call_refs_iff hw board call) h

theorem refs_started :
    Throughout (markerCall .f072 none) RefsOk (startedMarked Nat .f072)
      [.menuSelect 3, .cmdMarker ["2".toList], .menuOp .edelay,
        .cmdMarker ["4".toList, "off".toList]] :=
  (refs_iff .f072 (startedMarked Nat .f072) (by decide) _).mpr (by decide +kernel)

/-- The shell activates markers 2 and 1 and switches marker 1 off: marker 2 stays enabled with no
active marker, and the menu then reads below the array. -/
theorem shell_loses_active_marker :
    RefsOk (startedMarked Nat .f072) ∧
      ∃ t, [MarkerCall.cmdMarker ["2".toList], .cmdMarker ["1".toList],
          .cmdMarker ["1".toList, "off".toList]].foldlM (markerCall .f072 none)
          (startedMarked Nat .f072) = some t ∧
        t.active = none ∧ (t.marker 1).enabled = true ∧
        ¬ ∃ u, markerCall .f072 none t (.menuOp .start) = some u := by
  refine ⟨by decide, _, rfl, by decide +kernel, by decide +kernel, ?_⟩
  rintro ⟨u, hu⟩
  cases hu

end NanoVNA.MarkerReferences
