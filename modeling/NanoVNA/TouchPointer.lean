import NanoVNA.TouchPanel

namespace NanoVNA.TouchPointer

open NanoVNA.DeviceState NanoVNA.PlotLayout NanoVNA.TouchPanel

section Cache

variable {l : Layout} {s t : State}

structure Coherent (l : Layout) (s : State) : Prop where
  unused : s.scaleReady = false → s.calCache = ⟨0, 0, 0, 0⟩
  scales : s.scaleReady = true → (s.scaleX, s.scaleY) = scalesOf l s.calCache

def pointOf (l : Layout) (cal : TouchCal) (x y : Int16) : Int × Int :=
  (onAxis l.lcdWidth (scalesOf l cal).1 cal.x0 x, onAxis l.lcdHeight (scalesOf l cal).2 cal.y0 y)

structure SameScales (s t : State) : Prop where
  touchCal : t.touchCal = s.touchCal
  calCache : t.calCache = s.calCache
  scaleX : t.scaleX = s.scaleX
  scaleY : t.scaleY = s.scaleY
  scaleReady : t.scaleReady = s.scaleReady

theorem SameScales.trans {u : State} (h : SameScales s t) (h' : SameScales t u) :
    SameScales s u where
  touchCal := h'.touchCal.trans h.touchCal
  calCache := h'.calCache.trans h.calCache
  scaleX := h'.scaleX.trans h.scaleX
  scaleY := h'.scaleY.trans h.scaleY
  scaleReady := h'.scaleReady.trans h.scaleReady

theorem Coherent.same (h : Coherent l s) (hsame : SameScales s t) : Coherent l t where
  unused hready := by
    rw [hsame.calCache]
    exact h.unused (hsame.scaleReady.symm.trans hready)
  scales hready := by
    rw [hsame.scaleX, hsame.scaleY, hsame.calCache]
    exact h.scales (hsame.scaleReady.symm.trans hready)

theorem coherent_calibration (h : Coherent l s) (cal : TouchCal) :
    Coherent l { s with touchCal := cal } := ⟨h.unused, h.scales⟩

theorem scalesOf_zero (l : Layout) : scalesOf l ⟨0, 0, 0, 0⟩ = (65536, 65536) :=
  if_neg fun h => h.1 rfl

theorem refreshScales_spec (h : Coherent l s) :
    let t := refreshScales l s
    (t.scaleX, t.scaleY) = scalesOf l s.touchCal ∧ t.calCache = s.touchCal ∧
      t.scaleReady = true ∧ t.touchCal = s.touchCal ∧ t.touchRemote = s.touchRemote ∧
      t.lastTouchX = s.lastTouchX ∧ t.lastTouchY = s.lastTouchY := by
  unfold refreshScales
  cases hready : s.scaleReady with
  | true =>
    by_cases hcache : s.calCache = s.touchCal
    · have hscales := h.scales hready
      rw [hcache] at hscales
      simp [hcache, hready, hscales]
    · simp [hcache, hready]
  | false =>
    by_cases hcache : s.calCache = s.touchCal
    · have hzero := h.unused hready
      simp [hcache, ← hzero.symm.trans hcache, scalesOf_zero]
    · simp [hcache]

theorem coherent_refresh (h : Coherent l s) : Coherent l (refreshScales l s) := by
  obtain ⟨hscales, hcache, hready, -⟩ := refreshScales_spec h
  refine ⟨fun hnot => ?_, fun _ => ?_⟩
  · rw [hready] at hnot
    exact absurd hnot (by decide)
  · rw [hscales, hcache]

theorem coherent_position (h : Coherent l s) : Coherent l (touchPosition l s).2 := by
  unfold touchPosition
  split
  · exact h
  · exact coherent_refresh h

/-- Whatever has been in the cache, the panel is read with the calibration in force. -/
theorem touchPosition_eq (h : Coherent l s) (hpanel : s.touchRemote = .none) :
    (touchPosition l s).1 = pointOf l s.touchCal s.lastTouchX s.lastTouchY := by
  obtain ⟨hscales, -, -, hcal, -, hx, hy⟩ := refreshScales_spec h
  obtain ⟨hscaleX, hscaleY⟩ := Prod.ext_iff.mp hscales
  simp only at hscaleX hscaleY
  unfold touchPosition
  rw [if_neg fun h => h hpanel]
  simp only [pointOf]
  rw [hscaleX, hscaleY, hcal, hx, hy]

theorem same_position (h : Coherent l s) :
    (touchPosition l s).2.touchCal = s.touchCal ∧
      (touchPosition l s).2.touchRemote = s.touchRemote ∧
      (touchPosition l s).2.lastTouchX = s.lastTouchX ∧
      (touchPosition l s).2.lastTouchY = s.lastTouchY := by
  obtain ⟨-, -, -, hkept⟩ := refreshScales_spec h
  unfold touchPosition
  split
  · exact ⟨rfl, rfl, rfl, rfl⟩
  · exact hkept

theorem same_touchRead (r : Reading) (s : State) : SameScales s (touchRead r s) := by
  unfold touchRead
  split
  · split <;> exact ⟨rfl, rfl, rfl, rfl, rfl⟩
  · exact ⟨rfl, rfl, rfl, rfl, rfl⟩

theorem touchCheck_state (r : Reading) (s : State) :
    (touchCheck r s).2 =
      { touchRead r s with
        lastTouchStatus := touched r || (touchRead r s).touchRemote = .press } := by
  by_cases hstat : (touched r || (touchRead r s).touchRemote = .press) =
      (touchRead r s).lastTouchStatus
  · simp only [touchCheck]
    rw [if_pos hstat, hstat]
  · simp only [touchCheck]
    rw [if_neg hstat]

theorem same_touchCheck (r : Reading) (s : State) : SameScales s (touchCheck r s).2 := by
  rw [touchCheck_state]
  exact (same_touchRead r s).trans ⟨rfl, rfl, rfl, rfl, rfl⟩

theorem same_remoteTouchSet (board : Board) (press : Bool) (x y : Int16) (s : State) :
    SameScales s (remoteTouchSet board press x y s) := by
  cases board <;> exact ⟨rfl, rfl, rfl, rfl, rfl⟩

theorem same_input (board : Board) (s : State) (i : Input) :
    SameScales s (inputStep board s i) := by
  cases i with
  | sample r => exact same_touchCheck r s
  | remote press x y => exact same_remoteTouchSet board press x y s

theorem same_inputs (board : Board) (inputs : List Input) (s : State) :
    SameScales s (inputs.foldl (inputStep board) s) := by
  induction inputs generalizing s with
  | nil => exact ⟨rfl, rfl, rfl, rfl, rfl⟩
  | cons i inputs ih => exact (same_input board s i).trans (ih _)

theorem touchWaitRelease_eq (board : Board) {inputs : List Input}
    (h : touchWaitRelease board inputs s = some t) :
    t = inputs.foldl (inputStep board) s := by
  induction inputs generalizing s with
  | nil => exact absurd h (by simp [touchWaitRelease])
  | cons i inputs ih =>
    cases i with
    | remote press x y => exact ih h
    | sample r =>
      rw [touchWaitRelease] at h
      by_cases hreleased : (touchCheck r s).1 = .released
      · cases inputs with
        | nil => simpa [hreleased, inputStep] using h.symm
        | cons j rest => simp [hreleased] at h
      · simp only [hreleased, if_false] at h
        exact ih h

theorem uiTouchCalExec_cases (board : Board) {first second : List Input}
    (h : uiTouchCalExec board first second s = some t) :
    let u := first.foldl (inputStep board) s
    let v := second.foldl (inputStep board)
      { u with touchCal := { u.touchCal with x0 := u.lastTouchX, y0 := u.lastTouchY } }
    t = { v with touchCal := ⟨u.lastTouchX, u.lastTouchY, v.lastTouchX, v.lastTouchY⟩ } := by
  obtain ⟨u, hu, hrest⟩ := Option.bind_eq_some_iff.mp h
  obtain ⟨v, hv, rfl⟩ := Option.map_eq_some_iff.mp hrest
  have hfirst := touchWaitRelease_eq board hu
  have hsecond := touchWaitRelease_eq board hv
  have hcal : v.touchCal = { u.touchCal with x0 := u.lastTouchX, y0 := u.lastTouchY } := by
    rw [hsecond]
    exact (same_inputs board second _).touchCal
  intro u' v'
  obtain rfl : u = u' := hfirst
  obtain rfl : v = v' := hsecond
  rw [hcal]

theorem coherent_step {board : Board} {e : Event} (h : Coherent (layoutOf board) s)
    (hstep : step board s e = some t) : Coherent (layoutOf board) t := by
  cases e with
  | input i =>
    obtain rfl := Option.some.inj hstep
    exact h.same (same_input board s i)
  | position =>
    obtain rfl := Option.some.inj hstep
    exact coherent_position h
  | configure cal =>
    obtain rfl := Option.some.inj hstep
    exact coherent_calibration h cal
  | calibrate first second =>
    rw [uiTouchCalExec_cases board hstep]
    refine coherent_calibration (Coherent.same ?_ (same_inputs board second _)) _
    exact coherent_calibration (h.same (same_inputs board first s)) _

theorem run_cons {board : Board} {e : Event} {events : List Event}
    (h : run board s (e :: events) = some t) :
    ∃ u, step board s e = some u ∧ run board u events = some t := by
  rw [run, List.foldlM_cons] at h
  exact Option.bind_eq_some_iff.mp h

theorem coherent_run {board : Board} {events : List Event} (h : Coherent (layoutOf board) s)
    (hrun : run board s events = some t) : Coherent (layoutOf board) t := by
  induction events generalizing s with
  | nil =>
    obtain rfl := Option.some.inj hrun
    exact h
  | cons e events ih =>
    obtain ⟨u, hstep, hrest⟩ := run_cons hrun
    exact ih (coherent_step h hstep) hrest

theorem coherent_initial (board : Board) : Coherent (layoutOf board) (initial board) where
  unused _ := rfl
  scales hready := absurd hready (by simp [initial])

end Cache

section Pointer

variable {board : Board} {s t : State}

/-- A place on the panel in the units of the converter, or one on the screen that came over the
remote desktop. -/
inductive Point
  | panel (x y : Fin 4096)
  | desktop (x y : Int16)
  deriving DecidableEq

/-- As `last_touch_x` and `last_touch_y` hold it. -/
def Point.stored : Point → Int16 × Int16
  | .panel x y => (Int16.ofNat x, Int16.ofNat y)
  | .desktop x y => (x, y)

def Point.after (board : Board) (p : Point) : Input → Point
  | .sample r => if touchThreshold < r.contact ∧ touchThreshold < r.again then .panel r.x r.y else p
  | .remote _ x y =>
    match board with
    | .f072 => p
    | .f303 => .desktop x y

/-- What the touch panel is for: the last point that was given, and the calibration in force. -/
structure Pointer where
  point : Point
  cal : TouchCal

/-- A calibration takes the points at the two releases. -/
def Pointer.step (board : Board) (a : Pointer) : Event → Pointer
  | .input i => { a with point := a.point.after board i }
  | .position => a
  | .configure cal => { a with cal := cal }
  | .calibrate first second =>
    let p := first.foldl (Point.after board) a.point
    let q := second.foldl (Point.after board) p
    ⟨q, ⟨p.stored.1, p.stored.2, q.stored.1, q.stored.2⟩⟩

def Pointer.run (board : Board) (a : Pointer) (events : List Event) : Pointer :=
  events.foldl (Pointer.step board) a

def Pointer.initial (board : Board) : Pointer := ⟨.panel 0 0, defaultTouchConfig board⟩

/-- A point of the panel is shown where the calibration in force puts it, one of the remote desktop
where it was sent to. -/
def Pointer.shown (l : Layout) (a : Pointer) : Int × Int :=
  match a.point with
  | .panel x y => pointOf l a.cal (Int16.ofNat x) (Int16.ofNat y)
  | .desktop x y => (x.toInt, y.toInt)

/-- A contact lasts while its coordinates are read; a remote command gives both coordinates. -/
def Clear : Input → Prop
  | .sample r => touchThreshold < r.contact → touchThreshold < r.again
  | .remote _ x y => x ≠ -1 ∧ y ≠ -1

instance : DecidablePred Clear
  | .sample _ => inferInstanceAs (Decidable (_ → _))
  | .remote _ _ _ => inferInstanceAs (Decidable (_ ∧ _))

def inputsOf : Event → List Input
  | .input i => [i]
  | .position => []
  | .configure _ => []
  | .calibrate first second => first ++ second

/-- The coordinates are in the units in which `touch_position` takes them. -/
def Holds (s : State) (p : Point) : Prop :=
  (s.lastTouchX, s.lastTouchY) = p.stored ∧
    match p with
    | .panel _ _ => s.touchRemote = .none
    | .desktop _ _ => s.touchRemote ≠ .none

/-- A contact that does not last takes the coordinates back from the remote desktop, and no new ones
are kept. -/
theorem sample_cases (p : Point) (s : State) (r : Reading) :
    let t := (touchCheck r s).2
    (p.after board (.sample r) = .panel r.x r.y ∧
        (t.lastTouchX, t.lastTouchY) = (Int16.ofNat r.x, Int16.ofNat r.y) ∧
        t.touchRemote = .none) ∨
      p.after board (.sample r) = p ∧
        (t.lastTouchX, t.lastTouchY) = (s.lastTouchX, s.lastTouchY) ∧
        (t.touchRemote = s.touchRemote ∨ ¬ Clear (.sample r) ∧ t.touchRemote = .none) := by
  rw [touchCheck_state]
  by_cases hcontact : touchThreshold < r.contact.val
  · by_cases hagain : touchThreshold < r.again.val
    · refine .inl ⟨if_pos ⟨hcontact, hagain⟩, ?_⟩
      simp [touchRead, touched, hcontact, hagain]
    · refine .inr ⟨if_neg fun hboth => hagain hboth.2, ?_⟩
      simp [touchRead, touched, hcontact, hagain, Clear]
  · refine .inr ⟨if_neg fun hboth => hcontact hboth.1, ?_⟩
    simp [touchRead, touched, hcontact]

theorem holds_sample {p : Point} (h : Holds s p) {r : Reading} (hclear : Clear (.sample r)) :
    Holds (touchCheck r s).2 (p.after board (.sample r)) := by
  obtain ⟨hafter, hstored, hremote⟩ | ⟨hafter, hkept, hremote⟩ := @sample_cases board p s r
  · rw [hafter]
    exact ⟨hstored, hremote⟩
  · have hsame := hremote.resolve_right fun hlost => hlost.1 hclear
    rw [hafter]
    unfold Holds at h ⊢
    rw [hkept, hsame]
    exact h

theorem holds_remote {p : Point} (h : Holds s p) {press : Bool} {x y : Int16}
    (hclear : Clear (.remote press x y)) :
    Holds (remoteTouchSet board press x y s) (p.after board (.remote press x y)) := by
  cases board with
  | f072 => exact h
  | f303 =>
    constructor
    · simp [remoteTouchSet, Point.after, Point.stored, hclear.1, hclear.2]
    · cases press <;> simp [remoteTouchSet, Point.after]

theorem holds_input {p : Point} (h : Holds s p) {i : Input} (hclear : Clear i) :
    Holds (inputStep board s i) (p.after board i) := by
  cases i with
  | sample r => exact holds_sample h hclear
  | remote press x y => exact holds_remote h hclear

theorem holds_inputs (board : Board) {inputs : List Input} {p : Point} (h : Holds s p)
    (hclear : ∀ i ∈ inputs, Clear i) :
    Holds (inputs.foldl (inputStep board) s) (inputs.foldl (Point.after board) p) := by
  induction inputs generalizing s p with
  | nil => exact h
  | cons i inputs ih =>
    exact ih (holds_input h (hclear i (List.mem_cons_self ..)))
      fun j hj => hclear j (List.mem_cons_of_mem i hj)

structure Follows (s : State) (a : Pointer) : Prop where
  cal : s.touchCal = a.cal
  point : Holds s a.point

theorem follows_step {a : Pointer} (hcoherent : Coherent (layoutOf board) s) (h : Follows s a)
    {e : Event} (hclear : ∀ i ∈ inputsOf e, Clear i) (hstep : step board s e = some t) :
    Follows t (a.step board e) := by
  cases e with
  | input i =>
    obtain rfl := Option.some.inj hstep
    exact ⟨(same_input board s i).touchCal.trans h.cal,
      holds_input h.point (hclear i (List.mem_singleton_self i))⟩
  | position =>
    obtain rfl := Option.some.inj hstep
    obtain ⟨hcal, hremote, hx, hy⟩ := same_position hcoherent
    refine ⟨hcal.trans h.cal, ?_⟩
    have hpoint := h.point
    unfold Holds at hpoint ⊢
    rw [hremote, hx, hy]
    exact hpoint
  | configure cal =>
    obtain rfl := Option.some.inj hstep
    exact ⟨rfl, h.point⟩
  | calibrate first second =>
    have hfirst := holds_inputs board h.point fun i hi =>
      hclear i (List.mem_append_left second hi)
    rw [uiTouchCalExec_cases board hstep]
    generalize first.foldl (inputStep board) s = u at hfirst ⊢
    have hmarked : Holds
        { u with touchCal := { u.touchCal with x0 := u.lastTouchX, y0 := u.lastTouchY } }
        (first.foldl (Point.after board) a.point) := hfirst
    have hsecond := holds_inputs board hmarked fun i hi =>
      hclear i (List.mem_append_right first hi)
    refine ⟨?_, hsecond⟩
    obtain ⟨hx, hy⟩ := Prod.ext_iff.mp hfirst.1
    obtain ⟨hx', hy'⟩ := Prod.ext_iff.mp hsecond.1
    simp only at hx hy hx' hy'
    simp only [Pointer.step]
    rw [← hx, ← hy, ← hx', ← hy']

theorem follows_run {events : List Event} {a : Pointer} (hcoherent : Coherent (layoutOf board) s)
    (h : Follows s a) (hclear : ∀ e ∈ events, ∀ i ∈ inputsOf e, Clear i)
    (hrun : TouchPanel.run board s events = some t) : Follows t (a.run board events) := by
  induction events generalizing s a with
  | nil =>
    obtain rfl := Option.some.inj hrun
    exact h
  | cons e events ih =>
    obtain ⟨u, hstep, hrest⟩ := run_cons hrun
    exact ih (coherent_step hcoherent hstep)
      (follows_step hcoherent h (hclear e (List.mem_cons_self ..)) hstep)
      (fun d hd => hclear d (List.mem_cons_of_mem e hd)) hrest

theorem follows_initial (board : Board) :
    Follows (TouchPanel.initial board) (Pointer.initial board) where
  cal := rfl
  point := ⟨rfl, rfl⟩

theorem shown_of_follows {a : Pointer} (hcoherent : Coherent (layoutOf board) s)
    (h : Follows s a) : (touchPosition (layoutOf board) s).1 = a.shown (layoutOf board) := by
  obtain ⟨hcal, hstored, hremote⟩ := h
  obtain ⟨hx, hy⟩ := Prod.ext_iff.mp hstored
  cases hpoint : a.point with
  | panel x y =>
    simp only [hpoint, Point.stored] at hx hy hremote
    rw [touchPosition_eq hcoherent hremote, hcal, hx, hy, Pointer.shown, hpoint]
  | desktop x y =>
    simp only [hpoint, Point.stored] at hx hy hremote
    rw [touchPosition, if_pos hremote, hx, hy, Pointer.shown, hpoint]

/-- In every run the position is that of the last point given, under the calibration in force. -/
theorem position_follows (board : Board) (events : List Event)
    (hclear : ∀ e ∈ events, ∀ i ∈ inputsOf e, Clear i)
    (hrun : TouchPanel.run board (TouchPanel.initial board) events = some s) :
    (touchPosition (layoutOf board) s).1 =
      ((Pointer.initial board).run board events).shown (layoutOf board) :=
  shown_of_follows (coherent_run (coherent_initial board) hrun)
    (follows_run (coherent_initial board) (follows_initial board) hclear hrun)

/-- A calibration at two points, a touch, and a press over the remote desktop. -/
theorem position_follows_press :
    let events : List Event :=
      [.calibrate [.sample ⟨3000, 700, 400, 3000⟩, .sample ⟨0, 0, 0, 0⟩]
        [.sample ⟨3000, 3400, 3500, 3000⟩, .sample ⟨0, 0, 0, 0⟩],
        .input (.sample ⟨3000, 2000, 2000, 3000⟩), .position, .input (.remote true 100 50)]
    ∃ s, TouchPanel.run .f303 (TouchPanel.initial .f303) events = some s ∧
      (touchPosition (layoutOf .f303) s).1 =
        ((Pointer.initial .f303).run .f303 events).shown (layoutOf .f303) :=
  ⟨_, rfl, position_follows .f303 _ (by decide) rfl⟩

/-- A contact that ends before its coordinates are read makes the coordinates of a remote press
those of the panel. -/
example : (run .f303 (initial .f303)
    [.input (.remote true 100 50), .input (.sample ⟨3000, 0, 0, 0⟩)]).map
      (fun s => (touchPosition (layoutOf .f303) s).1) = some (0, 0) := by decide

end Pointer

end NanoVNA.TouchPointer
