import NanoVNA.DrawAll

namespace NanoVNA.RedrawRequests

open NanoVNA.DeviceState NanoVNA.SweepGrid NanoVNA.PlotLayout NanoVNA.DirtyCells NanoVNA.DrawAll

variable {l : Layout}

abbrev Icon := Fin 4 × Int × Int

def icons (l : Layout) (v : View) (m : Fin 8) : List Icon :=
  if (v.markers m).enabled then
    ((List.finRange 4).filter fun t => (v.trace t).enabled).map fun t =>
      (t, iconAt l (v.trace t) (v.markers m).index)
  else []

def IconMeets (l : Layout) (p : Int × Int) (c : Cell) : Prop :=
  Meets l p.1 p.2 (p.1 + l.markerWidth - 1) (p.2 + l.markerHeight - 1) c

def IconCells (s : Plot l) (m : Fin 8) (c : Cell) : Prop :=
  InArea s.area c ∧ ∃ icon ∈ icons l s.view m, IconMeets l icon.2 c

instance (p : Int × Int) (c : Cell) : Decidable (IconMeets l p c) :=
  inferInstanceAs (Decidable (Meets l _ _ _ _ c))

instance (s : Plot l) (m : Fin 8) (c : Cell) : Decidable (IconCells s m c) :=
  inferInstanceAs (Decidable (_ ∧ _))

def TextCells (s : Plot l) (c : Cell) : Prop :=
  InArea s.area c ∧ Meets l 0 0 l.areaWidthNormal s.markerAreaMax c

/-- The cells under the icons of a marker were all drawn with the icons where they are now. -/
def Shown (s : Plot l) (m : Fin 8) : Prop :=
  Shows (Option.map fun v => icons l v m) (IconCells s m) s.screen (some s.view)

def TextShown (s : Plot l) : Prop := Shows id (TextCells s) s.screen (some s.view)

/-- That a request has been acted on: the cells marked for it are drawn and no longer marked, the
area is drawn, the markers and their text are drawn, or the part outside the area is. -/
def ActedOn (r : Request) (s : Plot l) : Prop :=
  match r.bit with
  | .cells => ∀ c, r.marked c → ¬ s.marked c ∧ (InArea s.area c → s.screen c = some s.view)
  | .area => ∀ c, InArea s.area c → s.screen c = some s.view
  | .marker => (∀ m, Shown s m) ∧ TextShown s
  | b => b ∈ s.acted

/-- Every bit that is raised during `draw_all` is acted on in it or pending after it. -/
def NoRequestLost (e : Measured) (s : Plot l) : Prop :=
  ∃ rs, (drawAll e s).raised = s.raised ++ rs ∧
    ∀ r ∈ rs, ActedOn r (drawAll e s) ∨ (drawAll e s).pending r.bit

/-- A redraw of the marker is pending, be it only of cells that are marked already. -/
def Awaited (s : Plot l) (m : Fin 8) : Prop :=
  s.pending .marker ∨ s.pending .area ∨ s.pending .plot ∨
    (drawsCells s ∧ ∀ c, IconCells s m c → s.marked c)

def DrawsArea (s : Plot l) : Prop :=
  s.pending .area ∨ s.pending .plot ∧
    (s.lastPlottedSweepPoints ≠ s.sweepPoints ∨
      s.lastPlottedTraceMask ≠ gatherTraceMask s.view)

/-- `prepare_filter` is going to move markers and not all of the area is drawn. -/
def FilterMoves (e : Measured) (s : Plot l) : Prop :=
  s.measure = .filter ∧ (s.dataUpdate.sweep ∨ s.pending .plot) ∧ e.filter.aboveThreshold ∧
    ¬ DrawsArea s

/-! ### Marks -/

theorem marked_foldl {α : Type} {f : Markmap → α → Markmap} {c : Cell}
    (hf : ∀ marked a, marked c → f marked a c) (as : List α) {marked : Markmap} (h : marked c) :
    as.foldl f marked c := by
  induction as generalizing marked with
  | nil => exact h
  | cons a as ih => exact ih (hf marked a h)

theorem marked_foldl_of_mem {α : Type} {f : Markmap → α → Markmap} {c : Cell}
    (hf : ∀ marked a, marked c → f marked a c) {as : List α} {a : α} (ha : a ∈ as)
    (h : ∀ marked, f marked a c) (marked : Markmap) : as.foldl f marked c := by
  induction as generalizing marked with
  | nil => cases ha
  | cons b as ih =>
    obtain rfl | ha := List.mem_cons.mp ha
    · exact marked_foldl hf as (h marked)
    · exact ih ha _

theorem marked_ite {p : Prop} [Decidable p] {a b : Markmap} {c : Cell} (ha : p → a c)
    (hb : ¬ p → b c) : (if p then a else b) c := by
  split
  case isTrue hp => exact ha hp
  case isFalse hp => exact hb hp

theorem marked_requestToDrawMarker {v : View} {idx : Nat} {marked : Markmap} {c : Cell}
    (h : marked c) : requestToDrawMarker l v idx marked c :=
  marked_foldl (fun _ _ hm => marked_ite (fun _ => marked_invalidateRectPx hm) fun _ => hm) _ h

theorem requestToDrawMarker_of_meets {a : Area l} {v : View} {t : Fin 4} {idx : Nat} {c : Cell}
    (ht : (v.trace t).enabled) (hc : InArea a c) (hm : IconMeets l (iconAt l (v.trace t) idx) c)
    (marked : Markmap) : requestToDrawMarker l v idx marked c := by
  have hw := l.markerWidth_pos
  have hh := l.markerHeight_pos
  refine marked_foldl_of_mem
    (fun _ _ hm => marked_ite (fun _ => marked_invalidateRectPx hm) fun _ => hm)
    (List.mem_finRange t) (fun marked => ?_) marked
  rw [if_pos ht]
  exact invalidateRectPx_of_meets (by omega) (by omega) hc hm marked

theorem marked_markEnabledMarkers {s : Plot l} {marked : Markmap} {c : Cell} (h : marked c) :
    s.markEnabledMarkers marked c :=
  marked_foldl (fun _ _ hm => marked_ite (fun _ => marked_requestToDrawMarker hm) fun _ => hm) _ h

theorem markEnabledMarkers_of_iconCells {s : Plot l} {m : Fin 8} {c : Cell} (h : IconCells s m c)
    (marked : Markmap) : s.markEnabledMarkers marked c := by
  obtain ⟨hc, icon, hicon, hmeets⟩ := h
  unfold icons at hicon
  split at hicon
  case isFalse => cases hicon
  case isTrue hm =>
    obtain ⟨t, ht, rfl⟩ := List.mem_map.mp hicon
    have hte : (s.view.trace t).enabled := by simpa using (List.mem_filter.mp ht).2
    refine marked_foldl_of_mem
      (fun _ _ hm => marked_ite (fun _ => marked_requestToDrawMarker hm) fun _ => hm)
      (List.mem_finRange m) (fun marked => ?_) marked
    rw [if_pos hm]
    exact requestToDrawMarker_of_meets hte hc hmeets marked

structure MarkersMarked (s : Plot l) : Prop where
  icon : ∀ m c, IconCells s m c → s.marked c
  text : ∀ c, TextCells s c → s.marked c

theorem markersMarked_markmapAllMarkers (s : Plot l) : MarkersMarked s.markmapAllMarkers where
  icon m c h := marked_invalidateRectPx (markEnabledMarkers_of_iconCells (s := s) h _)
  text c h := invalidateRectPx_of_meets (by omega) (by omega) h.1 h.2 _

structure Quiet (s s' : Plot l) : Prop where
  view : s'.view = s.view
  text : s'.markerAreaMax = s.markerAreaMax
  screen : s'.screen = s.screen
  dataUpdate : s'.dataUpdate = s.dataUpdate
  pending : s'.pending = s.pending
  raised : s'.raised = s.raised

theorem Quiet.refl (s : Plot l) : Quiet s s := ⟨rfl, rfl, rfl, rfl, rfl, rfl⟩

theorem Quiet.trans {s t u : Plot l} (h : Quiet s t) (h' : Quiet t u) : Quiet s u :=
  ⟨h'.view.trans h.view, h'.text.trans h.text, h'.screen.trans h.screen,
    h'.dataUpdate.trans h.dataUpdate, h'.pending.trans h.pending, h'.raised.trans h.raised⟩

theorem quiet_mark (s : Plot l) (f : Markmap → Markmap) : Quiet s (s.mark f) :=
  ⟨rfl, rfl, rfl, rfl, rfl, rfl⟩

/-! ### What only adds requests and marks -/

/-- From one state to a later one marks and requests of some of the bits are added and none is
lost. -/
structure Grows (bits : List RedrawBit) (s s' : Plot l) : Prop where
  area : s'.area = s.area
  measure : s'.measure = s.measure
  pending : ∀ b, s.pending b → s'.pending b
  marked : ∀ c, s.marked c → s'.marked c
  raised : ∃ rs, s'.raised = s.raised ++ rs ∧
    ∀ r ∈ rs, r.bit ∈ bits ∧ s'.pending r.bit ∧ ∀ c, r.marked c → s'.marked c

variable {bits : List RedrawBit}

theorem Grows.refl (s : Plot l) : Grows bits s s :=
  ⟨rfl, rfl, fun _ h => h, fun _ h => h, [], by simp, by simp⟩

theorem Grows.trans {s t u : Plot l} (h : Grows bits s t) (h' : Grows bits t u) :
    Grows bits s u := by
  obtain ⟨rs, hrs, hr⟩ := h.raised
  obtain ⟨rs', hrs', hr'⟩ := h'.raised
  refine ⟨h'.area.trans h.area, h'.measure.trans h.measure,
    fun b hb => h'.pending b (h.pending b hb), fun c hc => h'.marked c (h.marked c hc),
    rs ++ rs', by rw [hrs', hrs, List.append_assoc], fun r hmem => ?_⟩
  obtain hmem | hmem := List.mem_append.mp hmem
  · obtain ⟨hbit, hp, hm⟩ := hr r hmem
    exact ⟨hbit, h'.pending _ hp, fun c hc => h'.marked c (hm c hc)⟩
  · exact hr' r hmem

theorem Grows.of_eq {s t u : Plot l} (h : Grows bits s t) (harea : u.area = t.area)
    (hmeasure : u.measure = t.measure) (hpending : u.pending = t.pending)
    (hmarked : u.marked = t.marked) (hraised : u.raised = t.raised) : Grows bits s u := by
  refine ⟨harea.trans h.area, hmeasure.trans h.measure, ?_, ?_, ?_⟩
  · exact hpending ▸ h.pending
  · exact hmarked ▸ h.marked
  · exact hraised ▸ hpending ▸ hmarked ▸ h.raised

theorem grows_ite {s t : Plot l} {p : Prop} [Decidable p] (h : p → Grows bits s t) :
    Grows bits s (if p then t else s) := by
  split
  case isTrue hp => exact h hp
  case isFalse => exact Grows.refl s

theorem grows_foldl {α : Type} {f : Plot l → α → Plot l} (hf : ∀ s a, Grows bits s (f s a))
    (as : List α) (s : Plot l) : Grows bits s (as.foldl f s) := by
  induction as generalizing s with
  | nil => exact Grows.refl s
  | cons a as ih => exact (hf s a).trans (ih (f s a))

theorem grows_requestToRedraw {mask : List RedrawBit} (h : ∀ b ∈ mask, b ∈ bits) (s : Plot l) :
    Grows bits s (requestToRedraw mask s) := by
  refine ⟨rfl, rfl, fun b hb => by simp [requestToRedraw, hb], fun c hc => hc,
    mask.map fun b => ⟨b, s.marked⟩, rfl, fun r hr => ?_⟩
  obtain ⟨b, hb, rfl⟩ := List.mem_map.mp hr
  exact ⟨h b hb, by simp [requestToRedraw, hb], fun c hc => hc⟩

theorem grows_mark {f : Markmap → Markmap} (s : Plot l)
    (hf : ∀ marked c, marked c → f marked c) : Grows bits s (s.mark f) :=
  ⟨rfl, rfl, fun _ hb => hb, fun c hc => hf s.marked c hc, [], by simp [Plot.mark], by simp⟩

theorem grows_invalidateRectPx (x0 y0 x1 y1 : Int) (s : Plot l) :
    Grows bits s (s.mark (invalidateRectPx l x0 y0 x1 y1)) :=
  grows_mark s fun _ _ h => marked_invalidateRectPx h

theorem grows_markmapAllMarkers (s : Plot l) : Grows bits s s.markmapAllMarkers :=
  (grows_mark s fun _ _ h => marked_markEnabledMarkers h).trans (grows_invalidateRectPx _ _ _ _ _)

theorem grows_setMarker (s : Plot l) (m : Fin 8) (idx : Int) (hbits : .marker ∈ bits) :
    Grows bits s (s.setMarker m idx) := by
  have herase : Grows bits s (s.eraseMarker m) :=
    grows_ite fun _ => grows_mark s fun _ _ h => marked_requestToDrawMarker h
  have hplace : Grows bits s ((s.eraseMarker m).placeMarker m idx) :=
    herase.of_eq rfl rfl rfl rfl rfl
  exact hplace.trans (grows_requestToRedraw (by simpa using hbits) _)

theorem grows_markerSearch (s : Plot l) (hbits : .marker ∈ bits) :
    Grows bits s s.markerSearch := by
  unfold Plot.markerSearch
  split
  · exact grows_setMarker s _ _ hbits
  · exact Grows.refl s

theorem grows_moveMarkers (moves : List (Fin 8 × Nat)) (s : Plot l) (hbits : .marker ∈ bits) :
    Grows bits s (moveMarkers moves s) := by
  unfold moveMarkers
  exact grows_foldl (fun s move => grows_setMarker s _ _ hbits) moves s

theorem marked_markSetIndex {coord : Nat → Nat × Nat} {w : LineState} {i : Nat} {c : Cell}
    (h : w.marked c) : (markSetIndex l coord w i).marked c :=
  marked_ite (fun _ => marked_markLine (marked_markLine h)) fun _ => h

theorem grows_traceIntoIndex (e : Measured) (s : Plot l) (t : Fin 4) :
    Grows bits s (traceIntoIndex e s t) := by
  have hmarked : ∀ (is : List Nat) (w : LineState) (c : Cell), w.marked c →
      (is.foldl (markSetIndex l (e.coord t)) w).marked c := by
    intro is
    induction is with
    | nil => exact fun _ _ h => h
    | cons i is ih => exact fun w c h => ih _ c (marked_markSetIndex h)
  exact ⟨rfl, rfl, fun _ h => h, fun c h => hmarked _ _ c h, [], by simp [traceIntoIndex],
    by simp⟩

/-! ### The steps of `draw_all` -/

/-- The bits that the callees of `draw_all` raise. -/
def raisedByCallees : List RedrawBit := [.area, .cells, .marker]

/-- `plot_into_index` up to its last requests. -/
def plotted (e : Measured) (s : Plot l) : Plot l :=
  measureSetSweep (trackMarker (tracesIntoIndex e (requestChangedArea s).markmapAllMarkers))

theorem grows_requestChangedArea (s : Plot l) :
    Grows raisedByCallees s (requestChangedArea s) :=
  grows_ite fun _ => (grows_requestToRedraw (by decide) s).of_eq rfl rfl rfl rfl rfl

theorem grows_plotted (e : Measured) (s : Plot l) :
    Grows raisedByCallees (requestChangedArea s).markmapAllMarkers (plotted e s) := by
  have htraces : ∀ t : Plot l, Grows raisedByCallees t (tracesIntoIndex e t) :=
    grows_foldl (fun t i => grows_ite fun _ => grows_traceIntoIndex e t i) _
  have htrack : ∀ t : Plot l, Grows raisedByCallees t (trackMarker t) :=
    fun t => grows_ite fun _ => grows_markerSearch t (by decide)
  exact ((htraces _).trans (htrack _)).of_eq rfl rfl rfl rfl rfl

theorem grows_plotIntoIndex (e : Measured) (s : Plot l) :
    Grows raisedByCallees s (plotIntoIndex e s) := by
  have hold : Grows raisedByCallees s (requestChangedArea s).markmapAllMarkers :=
    (grows_requestChangedArea s).trans (grows_markmapAllMarkers _)
  exact (hold.trans (grows_plotted e s)).trans (grows_requestToRedraw (by decide) _)

theorem cells_requested (e : Measured) (s : Plot l) :
    ∃ rs, (plotIntoIndex e s).raised = s.raised ++ rs ∧
      ⟨.cells, (plotIntoIndex e s).marked⟩ ∈ rs := by
  obtain ⟨rs, hrs, -⟩ :=
    ((grows_requestChangedArea s).trans (grows_markmapAllMarkers _)).trans (grows_plotted e s) |>.raised
  refine ⟨rs ++ [⟨.marker, (plotted e s).marked⟩, ⟨.cells, (plotted e s).marked⟩], ?_, ?_⟩
  · have hlast : (plotIntoIndex e s).raised = (plotted e s).raised ++
        [⟨.marker, (plotted e s).marked⟩, ⟨.cells, (plotted e s).marked⟩] := rfl
    rw [hlast, hrs, List.append_assoc]
  · exact List.mem_append_right _ (List.mem_cons_of_mem _ (List.mem_singleton.mpr rfl))

theorem pending_plotIntoIndex (e : Measured) (s : Plot l) :
    (plotIntoIndex e s).pending .marker ∧ (plotIntoIndex e s).pending .cells := by
  simp [plotIntoIndex, requestToRedraw]

theorem grows_markMeasure (lines : Nat) (s : Plot l) : Grows bits s (markMeasure lines s) :=
  grows_invalidateRectPx _ _ _ _ s

theorem grows_prepareLcMatch (s : Plot l) : Grows bits s (prepareLcMatch s) := by
  unfold prepareLcMatch
  split
  · exact Grows.refl s
  · split
    · exact Grows.refl s
    · exact grows_markMeasure _ s

theorem grows_prepareSeries (moves : List (Fin 8 × Nat)) (lines : Nat) (s : Plot l) :
    Grows [.marker] s (prepareSeries moves lines s) :=
  ((grows_moveMarkers moves s (by simp)).trans (grows_markMeasure lines _)).trans
    (grows_markmapAllMarkers _)

theorem grows_prepareFilter (e : Measured) (s : Plot l) :
    Grows [.marker] s (prepareFilter e s) :=
  (grows_moveMarkers _ s (by simp)).trans (grows_markMeasure 10 _)

theorem grows_runMeasureCb (e : Measured) (s : Plot l) :
    Grows [.marker] s (runMeasureCb e s) := by
  unfold runMeasureCb
  cases s.measure <;> dsimp only [measurePrepareCb]
  case none => exact Grows.refl s
  case lcMath => exact grows_ite fun _ => grows_prepareLcMatch s
  case filter => exact grows_ite fun _ => grows_prepareFilter e s
  case s11Cable | s11Resonance => exact grows_ite fun _ => grows_markMeasure _ s
  all_goals exact grows_ite fun _ => grows_prepareSeries _ _ s

theorem quiet_ite {s t : Plot l} {p : Prop} [Decidable p] (h : p → Quiet s t) :
    Quiet s (if p then t else s) := by
  split
  case isTrue hp => exact h hp
  case isFalse => exact Quiet.refl s

/-- Markers do not move without new marks, or there is nothing left to mark. -/
def MovesMarked (e : Measured) (s : Plot l) : Prop :=
  ¬ (s.measure = .filter ∧ s.dataUpdate.sweep ∧ e.filter.aboveThreshold) ∨ ∀ c, s.marked c

theorem quiet_prepareLcMatch (s : Plot l) : Quiet s (prepareLcMatch s) := by
  unfold prepareLcMatch
  split
  · exact Quiet.refl s
  · split
    · exact Quiet.refl s
    · exact quiet_mark s _

theorem quiet_prepareFilter {e : Measured} (h : ¬ e.filter.aboveThreshold) (s : Plot l) :
    Quiet s (prepareFilter e s) := by
  have hmoves : filterMoves e.filter = [] := by simp [filterMoves, h]
  rw [prepareFilter, hmoves]
  exact quiet_mark s _

theorem quiet_or_markersMarked_ite {s t : Plot l} {p : Prop} [Decidable p]
    (h : p → Quiet s t ∨ MarkersMarked t) :
    Quiet s (if p then t else s) ∨ MarkersMarked (if p then t else s) := by
  split
  case isTrue hp => exact h hp
  case isFalse => exact .inl (Quiet.refl s)

/-- Either nothing that is drawn in the area changes, or all markers are marked again. -/
theorem quiet_or_markersMarked (e : Measured) (s : Plot l) (h : MovesMarked e s) :
    Quiet s (runMeasureCb e s) ∨ MarkersMarked (runMeasureCb e s) := by
  obtain h | hall := h
  case inr =>
    have hmarked := fun c => (grows_runMeasureCb e s).marked c (hall c)
    exact .inr ⟨fun _ c _ => hmarked c, fun c _ => hmarked c⟩
  unfold runMeasureCb
  cases hm : s.measure <;> dsimp only [measurePrepareCb]
  case none => exact .inl (Quiet.refl s)
  case lcMath => exact quiet_or_markersMarked_ite fun _ => .inl (quiet_prepareLcMatch s)
  case filter =>
    refine quiet_or_markersMarked_ite fun hdue => .inl (quiet_prepareFilter (fun ha => ?_) s)
    exact h ⟨hm, hdue, ha⟩
  case s11Cable | s11Resonance =>
    exact quiet_or_markersMarked_ite fun _ => .inl (quiet_mark s _)
  all_goals
    exact quiet_or_markersMarked_ite fun _ => .inr (markersMarked_markmapAllMarkers _)

theorem IconCells.of_view {s t : Plot l} (hv : t.view = s.view) (ha : t.area = s.area) {m : Fin 8}
    {c : Cell} (h : IconCells t m c) : IconCells s m c := by
  unfold IconCells at h ⊢
  rwa [hv, ha] at h

theorem TextCells.of_quiet {s t : Plot l} (hq : Quiet s t) (ha : t.area = s.area) {c : Cell}
    (h : TextCells t c) : TextCells s c := by
  unfold TextCells at h ⊢
  rwa [hq.text, ha] at h

theorem MarkersMarked.of_quiet {s t : Plot l} (h : MarkersMarked s) (hq : Quiet s t)
    (hg : Grows bits s t) : MarkersMarked t where
  icon m c hc := hg.marked c (h.icon m c (hc.of_view hq.view hg.area))
  text c hc := hg.marked c (h.text c (hc.of_quiet hq hg.area))

/-! ### The marks before the cells are drawn -/

theorem grows_markFor {b : RedrawBit} {marks : Plot l → Plot l} (s : Plot l)
    (h : Grows bits s (marks s)) : Grows bits s (markFor b marks s) :=
  grows_ite fun _ => h

theorem grows_markOthers (s : Plot l) :
    Grows bits s
      (markFor .gridValue Plot.markmapGridValues (markFor .reference Plot.markmapAllRefpos s)) := by
  have hreference : Grows bits s (markFor .reference Plot.markmapAllRefpos s) :=
    grows_markFor s (grows_invalidateRectPx _ _ _ _ s)
  exact hreference.trans
    (grows_markFor _ (grows_ite fun _ => grows_invalidateRectPx _ _ _ _ _))

theorem quiet_markOthers (s : Plot l) :
    Quiet s
      (markFor .gridValue Plot.markmapGridValues (markFor .reference Plot.markmapAllRefpos s)) := by
  have hreference : Quiet s (markFor .reference Plot.markmapAllRefpos s) :=
    quiet_ite fun _ => quiet_mark s _
  exact hreference.trans (quiet_ite fun _ => quiet_ite fun _ => quiet_mark _ _)

theorem grows_markRequested (s : Plot l) : Grows bits s (markRequested s) := by
  unfold markRequested
  split
  · exact grows_mark s fun _ _ _ => rfl
  · exact (grows_markFor s (grows_markmapAllMarkers s)).trans (grows_markOthers _)

theorem quiet_markRequested (s : Plot l) : Quiet s (markRequested s) := by
  unfold markRequested
  split
  · exact quiet_mark s _
  · have hmarker : Quiet s (markFor .marker Plot.markmapAllMarkers s) :=
      quiet_ite fun _ => (quiet_mark s _).trans (quiet_mark _ _)
    exact hmarker.trans (quiet_markOthers _)

theorem marked_of_pending_area {s : Plot l} (h : s.pending .area) (c : Cell) :
    (markRequested s).marked c := by
  rw [markRequested, if_pos h]
  rfl

theorem markersMarked_markRequested {s : Plot l} (h : s.pending .marker ∨ s.pending .area) :
    MarkersMarked (markRequested s) := by
  by_cases ha : s.pending .area
  · exact ⟨fun _ c _ => marked_of_pending_area ha c, fun c _ => marked_of_pending_area ha c⟩
  · have hm : s.pending .marker := h.resolve_right ha
    have hfirst : markFor .marker Plot.markmapAllMarkers s = s.markmapAllMarkers := if_pos hm
    rw [markRequested, if_neg ha, hfirst]
    exact (markersMarked_markmapAllMarkers s).of_quiet (quiet_markOthers _)
      (@grows_markOthers _ [] _)

/-! ### The drawing of the cells -/

theorem screen_drawMarked {s : Plot l} {c : Cell} (hc : InArea s.area c) (h : s.marked c) :
    (drawMarked s).screen c = some s.view :=
  @redraw_of_dirty _ _ s.screen (some s.view) (fun c => decide (InArea s.area c) && s.marked c) c
    (by simp [hc, h])

theorem shown_drawMarked_of_marked {s : Plot l} {m : Fin 8}
    (h : ∀ c, IconCells s m c → s.marked c) : Shown (drawMarked s) m := by
  refine shows_redraw_of_dirty fun c hc => ?_
  have hcells : IconCells s m c := hc
  simp [hcells.1, h c hcells]

theorem textShown_drawMarked_of_marked {s : Plot l} (h : ∀ c, TextCells s c → s.marked c) :
    TextShown (drawMarked s) := by
  refine shows_redraw_of_dirty fun c hc => ?_
  have hcells : TextCells s c := hc
  simp [hcells.1, h c hcells]

theorem Shown.drawMarked {s : Plot l} {m : Fin 8} (h : Shown s m) : Shown (drawMarked s) m :=
  Shows.redraw h

theorem Shown.of_quiet {s t : Plot l} {m : Fin 8} (h : Shown s m) (hq : Quiet s t)
    (ha : t.area = s.area) : Shown t m := by
  unfold Shown at h ⊢
  rw [hq.view, hq.screen]
  exact Shows.mono h fun c hc => hc.of_view hq.view ha

/-! ### The whole of `draw_all` -/

theorem actOn_eq (b : RedrawBit) (s : Plot l) : ∃ acted, actOn b s = { s with acted := acted } := by
  unfold actOn
  split
  · exact ⟨_, rfl⟩
  · exact ⟨_, rfl⟩

theorem grows_actOn (b : RedrawBit) (s : Plot l) : Grows bits s (actOn b s) :=
  grows_ite fun _ => (Grows.refl s).of_eq rfl rfl rfl rfl rfl

theorem quiet_actOn (b : RedrawBit) (s : Plot l) : Quiet s (actOn b s) :=
  quiet_ite fun _ => ⟨rfl, rfl, rfl, rfl, rfl, rfl⟩

theorem grows_clearScreen (s : Plot l) : Grows bits s (clearScreen s) :=
  grows_ite fun _ => (Grows.refl s).of_eq rfl rfl rfl rfl rfl

theorem dataUpdate_clearScreen (s : Plot l) : (clearScreen s).dataUpdate = s.dataUpdate := by
  unfold clearScreen
  split <;> rfl

theorem grows_plotRequested (e : Measured) (s : Plot l) :
    Grows raisedByCallees s (plotRequested e s) :=
  (grows_actOn .backup s).trans (grows_ite fun _ => grows_plotIntoIndex e _)

theorem plotRequested_of_not_pending (e : Measured) {s : Plot l} (h : ¬ s.pending .plot) :
    plotRequested e s = actOn .backup s := by
  have hp : ¬ (actOn .backup s).pending .plot := by rwa [(quiet_actOn .backup s).pending]
  exact if_neg hp

theorem pending_plotRequested (e : Measured) {s : Plot l} (h : s.pending .plot) :
    (plotRequested e s).pending .marker := by
  have hp : (actOn .backup s).pending .plot := by rwa [(quiet_actOn .backup s).pending]
  rw [plotRequested, if_pos hp]
  exact (pending_plotIntoIndex e _).1

/-- The state in which `draw_all_cells` is called, if it is. -/
def marksMade (e : Measured) (s : Plot l) : Plot l :=
  markRequested (clearScreen (plotRequested e s))

theorem grows_marking (e : Measured) (s : Plot l) :
    Grows raisedByCallees (plotRequested e s) (marksMade e s) :=
  (grows_clearScreen _).trans (grows_markRequested _)

theorem grows_marksMade (e : Measured) (s : Plot l) :
    Grows raisedByCallees s (marksMade e s) :=
  (grows_plotRequested e s).trans (grows_marking e s)

theorem drawAll_visible (e : Measured) {s : Plot l} (h : s.area.width ≠ 0) :
    ∃ acted, drawAll e s =
      { (if drawsCells (marksMade e s) then drawAllCells e (marksMade e s) else marksMade e s) with
        acted := acted, pending := fun _ => false } := by
  have hwidth : (plotRequested e s).area.width ≠ 0 := by rwa [(grows_plotRequested e s).area]
  rw [drawAll, if_neg hwidth]
  obtain ⟨a, ha⟩ := actOn_eq .frequency (drawRequested e (plotRequested e s))
  obtain ⟨a', ha'⟩ := actOn_eq .calStatus { drawRequested e (plotRequested e s) with acted := a }
  obtain ⟨a'', ha''⟩ := actOn_eq .battery { drawRequested e (plotRequested e s) with acted := a' }
  exact ⟨a'', by rw [ha, ha', ha'']; rfl⟩

theorem pending_area_marksMade (e : Measured) {s : Plot l} (h : DrawsArea s) :
    (marksMade e s).pending .area := by
  obtain h | ⟨hplot, hchanged⟩ := h
  · exact (grows_marksMade e s).pending _ h
  · have hp : (actOn .backup s).pending .plot := by rwa [(quiet_actOn .backup s).pending]
    have hgrows : Grows raisedByCallees (requestChangedArea (actOn .backup s))
        (plotRequested e s) := by
      rw [plotRequested, if_pos hp]
      exact ((grows_markmapAllMarkers _).trans (grows_plotted e _)).trans
        (grows_requestToRedraw (by decide) _)
    have harea : (requestChangedArea (actOn .backup s)).pending .area := by
      obtain ⟨acted, hact⟩ := actOn_eq .backup s
      rw [hact, requestChangedArea, if_pos hchanged]
      simp [requestToRedraw]
    exact (grows_marking e s).pending _ (hgrows.pending _ harea)

theorem pending_of_marksMade {e : Measured} {s : Plot l} {b : RedrawBit}
    (h : (marksMade e s).pending b) : (clearScreen (plotRequested e s)).pending b := by
  rwa [marksMade, (quiet_markRequested _).pending] at h

theorem marked_marksMade {e : Measured} {s : Plot l} (h : (marksMade e s).pending .area)
    (c : Cell) : (marksMade e s).marked c :=
  marked_of_pending_area (pending_of_marksMade h) c

theorem movesMarked_marksMade {e : Measured} {s : Plot l} (h : ¬ FilterMoves e s) :
    MovesMarked e (marksMade e s) := by
  by_cases harea : DrawsArea s
  · exact .inr (marked_marksMade (pending_area_marksMade e harea))
  refine .inl fun ⟨hmode, hsweep, ha⟩ => h ⟨(grows_marksMade e s).measure ▸ hmode, ?_, ha, harea⟩
  by_cases hp : s.pending .plot
  · exact .inr hp
  · refine .inl ?_
    rwa [marksMade, (quiet_markRequested _).dataUpdate, dataUpdate_clearScreen,
      plotRequested_of_not_pending e hp, (quiet_actOn _ s).dataUpdate] at hsweep

theorem markersMarked_runMeasureCb {e : Measured} {s : Plot l} (h : MarkersMarked s)
    (hf : MovesMarked e s) : MarkersMarked (runMeasureCb e s) := by
  obtain hq | hm := quiet_or_markersMarked e s hf
  · exact h.of_quiet hq (grows_runMeasureCb e s)
  · exact hm

theorem markersMarked_marksMade {e : Measured} {s : Plot l}
    (h : (marksMade e s).pending .marker ∨ (marksMade e s).pending .area) :
    MarkersMarked (marksMade e s) :=
  markersMarked_markRequested (h.imp pending_of_marksMade pending_of_marksMade)

theorem mem_raisedByCallees_draws {s : Plot l} {b : RedrawBit} (hb : b ∈ raisedByCallees)
    (h : s.pending b) : drawsCells s := by
  simp only [raisedByCallees, List.mem_cons, List.not_mem_nil, or_false] at hb
  obtain rfl | rfl | rfl := hb <;> simp [drawsCells, h]

/-- A request that was pending when the cells were drawn, with its marks made, is acted on. -/
theorem actedOn_drawMarked {e : Measured} {s : Plot l} (hf : ¬ FilterMoves e s) {r : Request}
    (hbit : r.bit ∈ raisedByCallees) (hp : (marksMade e s).pending r.bit)
    (hm : ∀ c, r.marked c → (marksMade e s).marked c) :
    ActedOn r (drawMarked (runMeasureCb e (marksMade e s))) := by
  have hgrows := grows_runMeasureCb e (marksMade e s)
  simp only [raisedByCallees, List.mem_cons, List.not_mem_nil, or_false] at hbit
  unfold ActedOn
  obtain hb | hb | hb := hbit <;> rw [hb] at hp ⊢
  · intro c hc
    exact screen_drawMarked hc (hgrows.marked c (marked_marksMade hp c))
  · intro c hc
    exact ⟨by simp [drawMarked, clearMarkmap], fun ha =>
      screen_drawMarked ha (hgrows.marked c (hm c hc))⟩
  · have hmarkers := markersMarked_runMeasureCb (markersMarked_marksMade (.inl hp)) (movesMarked_marksMade hf)
    exact ⟨fun m => shown_drawMarked_of_marked (hmarkers.icon m),
      textShown_drawMarked_of_marked hmarkers.text⟩

theorem actedOn_of_measure {e : Measured} {s : Plot l} (hf : MovesMarked e s) {rs : List Request}
    (hraised : (runMeasureCb e s).raised = s.raised ++ rs)
    (hbits : ∀ r ∈ rs, r.bit ∈ [RedrawBit.marker]) :
    ∀ r ∈ rs, ActedOn r (drawMarked (runMeasureCb e s)) := by
  intro r hr
  obtain hq | hm := quiet_or_markersMarked e s hf
  · have hnone : rs = [] := by simpa [hq.raised] using hraised
    simp [hnone] at hr
  · have hbit : r.bit = .marker := List.mem_singleton.mp (hbits r hr)
    rw [ActedOn, hbit]
    exact ⟨fun m => shown_drawMarked_of_marked (hm.icon m), textShown_drawMarked_of_marked hm.text⟩

theorem ActedOn.beside {r : Request} {s : Plot l} (h : ActedOn r (drawMarked s))
    (hbit : r.bit ∈ raisedByCallees) (u : UpdateFlags) (acted : List RedrawBit)
    (pending : RedrawBit → Bool) :
    ActedOn r { drawMarked { s with dataUpdate := u } with acted := acted, pending := pending } := by
  simp only [raisedByCallees, List.mem_cons, List.not_mem_nil, or_false] at hbit
  unfold ActedOn at h ⊢
  obtain hb | hb | hb := hbit <;> rw [hb] at h ⊢ <;> exact h

/-- No bit that is raised during `draw_all` is lost while the area is shown, unless the search for
a filter moves markers. -/
theorem noRequestLost {e : Measured} {s : Plot l} (hwidth : s.area.width ≠ 0)
    (hf : ¬ FilterMoves e s) : NoRequestLost e s := by
  obtain ⟨acted, hdraw⟩ := drawAll_visible e hwidth
  obtain ⟨rs, hrs, hr⟩ := (grows_marksMade e s).raised
  unfold NoRequestLost
  rw [hdraw]
  by_cases hd : drawsCells (marksMade e s)
  · obtain ⟨rs', hrs', hr'⟩ := (grows_runMeasureCb e (marksMade e s)).raised
    rw [if_pos hd]
    refine ⟨rs ++ rs', ?_, fun r hmem => .inl ?_⟩
    · exact hrs'.trans (by rw [hrs, List.append_assoc])
    · obtain hmem | hmem := List.mem_append.mp hmem
      · obtain ⟨hbit, hp, hm⟩ := hr r hmem
        exact (actedOn_drawMarked hf hbit hp hm).beside hbit _ acted _
      · have hbit : r.bit = .marker := List.mem_singleton.mp (hr' r hmem).1
        have hacted := actedOn_of_measure (movesMarked_marksMade hf) hrs' (fun r h => (hr' r h).1) r hmem
        exact hacted.beside (by rw [hbit]; decide) _ acted _
  · rw [if_neg hd]
    refine ⟨rs, hrs, fun r hmem => ?_⟩
    obtain ⟨hbit, hp, -⟩ := hr r hmem
    exact absurd (mem_raisedByCallees_draws hbit hp) hd

theorem shown_of_iconCells_marked {e : Measured} {s : Plot l} (hf : MovesMarked e s) {m : Fin 8}
    (h : ∀ c, IconCells s m c → s.marked c) : Shown (drawMarked (runMeasureCb e s)) m := by
  have hg := grows_runMeasureCb e s
  obtain hq | hm := quiet_or_markersMarked e s hf
  · exact shown_drawMarked_of_marked fun c hc => hg.marked c (h c (hc.of_view hq.view hg.area))
  · exact shown_drawMarked_of_marked (hm.icon m)

theorem Shown.drawn {e : Measured} {s : Plot l} (hf : MovesMarked e s) {m : Fin 8}
    (h : Shown s m) : Shown (DrawAll.drawMarked (runMeasureCb e s)) m := by
  obtain hq | hm := quiet_or_markersMarked e s hf
  · exact (h.of_quiet hq (grows_runMeasureCb e s).area).drawMarked
  · exact shown_drawMarked_of_marked (hm.icon m)

theorem drawsCells_of_grows {s t : Plot l} (hg : Grows bits s t) (h : drawsCells s) :
    drawsCells t := by
  simp only [drawsCells, Bool.or_eq_true] at h ⊢
  exact h.imp (Or.imp (Or.imp (Or.imp (hg.pending _) (hg.pending _)) (hg.pending _)) (hg.pending _))
    (hg.pending _)

theorem view_marksMade (e : Measured) {s : Plot l} (h : ¬ s.pending .plot) :
    (marksMade e s).view = s.view := by
  have hclear : ∀ t : Plot l, (clearScreen t).view = t.view := by
    intro t
    unfold clearScreen
    split <;> rfl
  rw [marksMade, (quiet_markRequested _).view, hclear, plotRequested_of_not_pending e h,
    (quiet_actOn _ s).view]

theorem quiet_marksMade (e : Measured) {s : Plot l} (hplot : ¬ s.pending .plot)
    (hclear : ¬ s.pending .clrscr) : Quiet s (marksMade e s) := by
  have hquiet := quiet_actOn .backup s
  have hsame : clearScreen (actOn .backup s) = actOn .backup s :=
    if_neg (by rwa [hquiet.pending])
  rw [marksMade, plotRequested_of_not_pending e hplot, hsame]
  exact hquiet.trans (quiet_markRequested _)

theorem shown_or_marked (e : Measured) {s : Plot l} {m : Fin 8}
    (h : (Shown s m ∧ ¬ s.pending .clrscr) ∨ Awaited s m) :
    Shown (marksMade e s) m ∨ (drawsCells (marksMade e s) ∧
      ∀ c, IconCells (marksMade e s) m c → (marksMade e s).marked c) := by
  have hgrows := grows_marksMade e s
  have hmarkers : (marksMade e s).pending .marker ∨ (marksMade e s).pending .area →
      drawsCells (marksMade e s) ∧
        ∀ c, IconCells (marksMade e s) m c → (marksMade e s).marked c := by
    intro hp
    refine ⟨?_, (markersMarked_marksMade hp).icon m⟩
    obtain hp | hp := hp <;> simp [drawsCells, hp]
  by_cases hplot : s.pending .plot
  · have hmarker := (grows_marking e s).pending _ (pending_plotRequested e hplot)
    exact .inr (hmarkers (.inl hmarker))
  · obtain ⟨hshown, hclear⟩ | hm | ha | hp | ⟨hd, hmarked⟩ := h
    · exact .inl (hshown.of_quiet (quiet_marksMade e hplot hclear) hgrows.area)
    · exact .inr (hmarkers (.inl (hgrows.pending _ hm)))
    · exact .inr (hmarkers (.inr (hgrows.pending _ ha)))
    · exact absurd hp hplot
    · refine .inr ⟨drawsCells_of_grows hgrows hd, fun c hc => hgrows.marked c (hmarked c ?_)⟩
      exact hc.of_view (view_marksMade e hplot) hgrows.area

/-- A marker that was drawn where it is, or for which a redraw was pending, is drawn where it
is. -/
theorem shown_drawAll {e : Measured} {s : Plot l} (hwidth : s.area.width ≠ 0)
    (hf : ¬ FilterMoves e s) {m : Fin 8} (h : (Shown s m ∧ ¬ s.pending .clrscr) ∨ Awaited s m) :
    Shown (drawAll e s) m := by
  obtain ⟨acted, hdraw⟩ := drawAll_visible e hwidth
  have hdue := movesMarked_marksMade hf
  rw [hdraw]
  by_cases hd : drawsCells (marksMade e s)
  · rw [if_pos hd]
    obtain hshown | ⟨-, hmarked⟩ := shown_or_marked e h
    · exact hshown.drawn hdue
    · exact shown_of_iconCells_marked hdue hmarked
  · rw [if_neg hd]
    obtain hshown | ⟨hd', -⟩ := shown_or_marked e h
    · exact hshown
    · exact absurd hd' hd

def Settled (s : Plot l) (m : Fin 8) : Prop := Shown s m ∨ Awaited s m

theorem lost_without_area (board : Board) (e : Measured) {s : Plot (layoutOf board)}
    (hwidth : s.area.width = 0) (hp : s.pending .plot) : ¬ NoRequestLost e s := by
  intro ⟨rs, hrs, h⟩
  have hp' : (actOn .backup s).pending .plot := by rwa [(quiet_actOn .backup s).pending]
  have hplot : plotRequested e s = plotIntoIndex e (actOn .backup s) := if_pos hp'
  have hdraw : drawAll e s = clearRequests (plotRequested e s) :=
    if_pos (by rwa [(grows_plotRequested e s).area])
  rw [hdraw, hplot] at hrs h
  obtain ⟨rs', hrs', hmem⟩ := cells_requested e (actOn .backup s)
  have hsame : rs' = rs := by
    have hraised := hrs'.symm.trans hrs
    rwa [(quiet_actOn .backup s).raised, List.append_cancel_left_eq] at hraised
  -- The text of the markers is marked, whatever the traces are.
  have hcorner : (plotIntoIndex e (actOn .backup s)).marked (0, 0) := by
    have harea : InArea (Area.normal (layoutOf board)) (0, 0) := by cases board <;> decide
    refine (grows_plotted e _).marked _
      (invalidateRectPx_of_meets (by omega) (by omega) harea ⟨⟨?_, ?_⟩, ?_, ?_⟩ _)
    · simp
    · simpa using (layoutOf board).cellWidth_pos
    · simp
    · simpa using (layoutOf board).cellHeight_pos
  obtain hacted | hpending := h _ (hsame ▸ hmem)
  · exact (hacted (0, 0) hcorner).1 hcorner
  · cases hpending

def lineView (index : Nat) : View where
  trace t := ⟨t == 0, 0, fun i => 5 + 3 * i, fun _ => 100⟩
  markers m := ⟨m == 0, index, 50000 + 1000 * index⟩

def linePlot (measure : MeasureMode) (area : Area (layoutOf .f072)) (pending : List RedrawBit) :
    Plot (layoutOf .f072) where
  area := area
  pending b := pending.contains b
  marked := clearMarkmap
  lastPlottedSweepPoints := 101
  lastPlottedTraceMask := 1
  view := lineView 0
  grid := ⟨50000, 1000, 0, 100⟩
  sweepPoints := 101
  currentTrace := some 0
  activeMarker := some 0
  markerTrack := false
  searchMinimum := false
  showGrid := false
  electricalDelay := false
  s21Offset := false
  portz := false
  measure := measure
  dataUpdate := ⟨true, false⟩
  screen _ := some (lineView 0)
  acted := []
  raised := []

def filterAt90 : Measured where
  coord _ i := (5 + 3 * i, 100)
  lcShunt := ⟨none, none, false, none⟩
  lcSeries := ⟨none, none, false, none⟩
  xtalNotch := none
  filter := ⟨90, true, none, none⟩

def resonanceAt90 : Measured where
  coord _ i := (5 + 3 * i, 100)
  lcShunt := ⟨none, none, false, none⟩
  lcSeries := ⟨some 90, some 80, true, some 99⟩
  xtalNotch := none
  filter := ⟨90, true, none, none⟩

theorem lost_with_filter :
    ¬ NoRequestLost filterAt90 (linePlot .filter (Area.normal _) [.cells]) := by
  intro ⟨rs, hrs, h⟩
  have hraised : ∃ r ∈ rs, r.bit = .marker := by
    have hany : (drawAll filterAt90 (linePlot .filter (Area.normal _) [.cells])).raised.any
        (fun r => r.bit = .marker) = true := by decide
    rw [hrs] at hany
    simpa [linePlot] using hany
  obtain ⟨r, hr, hbit⟩ := hraised
  obtain hacted | hpending := h r hr
  · rw [ActedOn, hbit] at hacted
    have hshown := hacted.1 0 (8, 5) (by decide)
    revert hshown
    decide
  · exact absurd hpending (by rw [hbit]; decide)

/-- While the area is shown, and unless the search for a filter moves markers in a part of it, no bit
that is raised during `draw_all` is lost; and every marker that was drawn where it is, or for which a
redraw was pending, is drawn where it is now. -/
theorem redraw_requests_served {e : Measured} {s : Plot l} (hwidth : s.area.width ≠ 0)
    (hf : ¬ FilterMoves e s) :
    NoRequestLost e s ∧
      ∀ m, (s.view.markers m).enabled → ((Shown s m ∧ ¬ s.pending .clrscr) ∨ Awaited s m) →
        Shown (drawAll e s) m :=
  ⟨noRequestLost hwidth hf, fun _ _ h => shown_drawAll hwidth hf h⟩

theorem redraw_requests_served_resonance :
    NoRequestLost resonanceAt90 (linePlot .seriesLc (Area.normal _) [.cells]) ∧
      Shown (drawAll resonanceAt90 (linePlot .seriesLc (Area.normal _) [.cells])) 0 := by
  have h := @redraw_requests_served _ resonanceAt90 (linePlot .seriesLc (Area.normal _) [.cells])
    (by decide) (fun h => by cases h.1)
  have hshown : Shown (linePlot .seriesLc (Area.normal _) [.cells]) 0 := fun c _ => Eq.refl _
  exact ⟨h.1, h.2 0 rfl (.inl ⟨hshown, by decide⟩)⟩

/-- Not so: without an area the requests of `plot_into_index` are dropped, the search for a filter
moves a marker that is not drawn again, and a marker that is not drawn where it is stays so when
nothing asks for it. -/
theorem redraw_requests_dropped :
    ¬ NoRequestLost filterAt90 (linePlot .none (Area.hidden _) [.plot]) ∧
      (¬ NoRequestLost filterAt90 (linePlot .filter (Area.normal _) [.cells]) ∧
        ¬ Settled (drawAll filterAt90 (linePlot .filter (Area.normal _) [.cells])) 0) ∧
      ¬ Settled (drawAll filterAt90
        { linePlot .none (Area.normal _) [] with screen := fun _ => none }) 0 := by
  refine ⟨lost_without_area .f072 _ rfl rfl, ⟨lost_with_filter, ?_⟩, ?_⟩
  · rintro (hshown | hm | ha | hp | ⟨hd, -⟩)
    · have hcell := hshown (8, 5) (by decide)
      revert hcell
      decide
    · cases hm
    · cases ha
    · cases hp
    · cases hd
  · rintro (hshown | hm | ha | hp | ⟨hd, -⟩)
    · have hcell := hshown (0, 5) (by decide)
      revert hcell
      decide
    · cases hm
    · cases ha
    · cases hp
    · cases hd

end NanoVNA.RedrawRequests
