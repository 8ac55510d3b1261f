import Mathlib.Algebra.Order.Field.Basic
import Mathlib.Algebra.Order.Ring.Abs
import Mathlib.Algebra.Order.Field.Rat
import Mathlib.Algebra.Order.Group.MinMax
import Mathlib.Tactic.FieldSimp
import Mathlib.Tactic.Linarith
import Mathlib.Tactic.Ring
import NanoVNA.TouchPointer

namespace NanoVNA.TouchAccuracy

open NanoVNA.DeviceState NanoVNA.PlotLayout NanoVNA.TouchPanel NanoVNA.TouchPointer

section Axis

variable {size : Nat} {lo hi : Int16}

/-- The line through the two marks: the first lies `calibrationOffset` from the near edge of the
screen, the second as far from the other edge. -/
def idealOf (size : Nat) (lo hi raw : Int16) : ℚ :=
  calibrationOffset + ((size : ℚ) - 1 - 2 * calibrationOffset) * (raw.toInt - lo.toInt) /
    (hi.toInt - lo.toInt)

def clampTo (size : Nat) (e : ℚ) : ℚ := max 0 (min e (size - 1))

theorem onAxis_eq (hsize : 0 < size) (scale : Int) (lo raw : Int16) :
    onAxis size scale lo raw =
      max 0 (min (scale * (raw.toInt - lo.toInt) / 65536 + calibrationOffset) (size - 1)) := by
  simp only [onAxis]
  split
  · omega
  · split <;> omega

theorem onAxis_mem (hsize : 0 < size) (scale : Int) (lo raw : Int16) :
    0 ≤ onAxis size scale lo raw ∧ onAxis size scale lo raw < size := by
  rw [onAxis_eq hsize]
  omega

theorem clamp_near (size : Nat) {t : Int} {e : ℚ} {b : ℚ} (h : |(t : ℚ) - e| < b) :
    |((max 0 (min t (size - 1)) : Int) : ℚ) - clampTo size e| < b := by
  have hmin : |min (t : ℚ) (size - 1) - min e (size - 1)| ≤ |(t : ℚ) - e| := by
    refine (abs_min_sub_min_le_max ..).trans ?_
    rw [sub_self, abs_zero]
    exact max_le le_rfl (abs_nonneg _)
  have hmax : |max 0 (min (t : ℚ) (size - 1)) - max 0 (min e (size - 1))| ≤
      |min (t : ℚ) (size - 1) - min e (size - 1)| := by
    refine (abs_max_sub_max_le_max ..).trans ?_
    rw [sub_self, abs_zero]
    exact max_le (abs_nonneg _) le_rfl
  push_cast
  exact (hmax.trans hmin).trans_lt h

theorem tdiv_near (n : Int) {d : Int} (hd : d ≠ 0) :
    |((n.tdiv d : Int) : ℚ) - (n : ℚ) / d| < 1 := by
  have hdq : (d : ℚ) ≠ 0 := Int.cast_ne_zero.mpr hd
  have hsplit : (d : ℚ) * (n.tdiv d : Int) + (n.tmod d : Int) = n := by
    exact_mod_cast Int.mul_tdiv_add_tmod n d
  have hrest : |((n.tmod d : Int) : ℚ)| < |(d : ℚ)| := by
    have hnat : (n.tmod d).natAbs < d.natAbs := by
      rw [Int.natAbs_tmod]
      exact Nat.mod_lt _ (Int.natAbs_pos.mpr hd)
    rw [← Int.cast_abs, ← Int.cast_abs, Int.abs_eq_natAbs, Int.abs_eq_natAbs]
    exact_mod_cast hnat
  have hoff : ((n.tdiv d : Int) : ℚ) - (n : ℚ) / d = -((n.tmod d : Int) : ℚ) / d := by
    rw [← hsplit]
    field_simp
    ring
  rw [hoff, abs_div, abs_neg]
  exact (div_lt_one (abs_pos.mpr hdq)).mpr hrest

theorem shift_near (a : Int) : ((a / 65536 : Int) : ℚ) ≤ a / 65536 ∧
    (a : ℚ) / 65536 < ((a / 65536 : Int) : ℚ) + 1 := by
  have hlow : ((a / 65536 * 65536 : Int) : ℚ) ≤ a := by
    exact_mod_cast Int.ediv_mul_le a (by decide)
  have hhigh : (a : ℚ) < ((a / 65536 * 65536 + 65536 : Int) : ℚ) := by
    exact_mod_cast Int.lt_ediv_add_one_mul_self a (by decide : (0 : Int) < 65536) |>.trans_eq
      (by ring)
  push_cast at hlow hhigh
  constructor
  · rw [le_div_iff₀ (by norm_num)]
    exact hlow
  · rw [div_lt_iff₀ (by norm_num)]
    linarith

theorem span_ne_zero (h : lo ≠ hi) : hi.toInt - lo.toInt ≠ 0 := by
  intro hzero
  exact h (Int16.toInt_inj.mp (by omega))

theorem raw_near (lo raw : Int16) : |(raw.toInt : ℚ) - lo.toInt| ≤ 65536 := by
  have hbounds : |raw.toInt - lo.toInt| ≤ 65536 := by
    have h₁ := raw.toInt_lt
    have h₂ := raw.le_toInt
    have h₃ := lo.toInt_lt
    have h₄ := lo.le_toInt
    exact abs_le.mpr ⟨by omega, by omega⟩
  exact_mod_cast hbounds

theorem product_near {scale ratio raw : ℚ} (hscale : |scale - ratio| < 1) (hraw : |raw| ≤ 65536) :
    |scale * raw / 65536 - ratio * raw / 65536| ≤ 1 := by
  have hfactor : scale * raw / 65536 - ratio * raw / 65536 = (scale - ratio) * (raw / 65536) := by
    ring
  have hfraction : |raw / 65536| ≤ 1 := by
    rw [abs_div, abs_of_pos (by norm_num : (0 : ℚ) < 65536), div_le_one (by norm_num)]
    exact hraw
  rw [hfactor, abs_mul]
  exact mul_le_one₀ hscale.le (abs_nonneg _) hfraction

/-- The rounding of the scale and of the product together are less than two pixels. -/
theorem onAxis_near (hsize : 0 < size) (hspan : lo ≠ hi) (raw : Int16) :
    |((onAxis size (scaleOf size lo hi) lo raw : Int) : ℚ) -
      clampTo size (idealOf size lo hi raw)| < 2 := by
  have hd := span_ne_zero hspan
  have hdq : ((hi.toInt : ℚ) - lo.toInt) ≠ 0 := by exact_mod_cast hd
  have hscale := tdiv_near (((size : Int) - 1 - 2 * calibrationOffset) * 65536) hd
  have hshift := shift_near (scaleOf size lo hi * (raw.toInt - lo.toInt))
  rw [← scaleOf] at hscale
  rw [onAxis_eq hsize]
  apply clamp_near
  push_cast at hscale hshift ⊢
  have hproduct := abs_le.mp (product_near hscale (raw_near lo raw))
  have hideal : idealOf size lo hi raw = ((size : ℚ) - 1 - 2 * calibrationOffset) * 65536 /
      (hi.toInt - lo.toInt) * (raw.toInt - lo.toInt) / 65536 + calibrationOffset := by
    rw [idealOf]
    field_simp
    ring
  rw [hideal, abs_lt]
  constructor <;> linarith [hproduct.1, hproduct.2, hshift.1, hshift.2]

theorem onAxis_first (hsize : calibrationOffset < size) (scale : Int) (lo : Int16) :
    onAxis size scale lo lo = calibrationOffset := by
  rw [onAxis_eq (Nat.zero_lt_of_lt hsize), sub_self, mul_zero, Int.zero_ediv, zero_add]
  omega

/-- The scale is rounded towards zero, so the second mark is met or missed by one pixel. -/
theorem onAxis_second (hsize : 2 * calibrationOffset < size) (hspan : lo ≠ hi) :
    |onAxis size (scaleOf size lo hi) lo hi - (size - 1 - calibrationOffset)| ≤ 1 := by
  have hd := span_ne_zero hspan
  have hrange : (0 : Int) ≤ ((size : Int) - 1 - 2 * calibrationOffset) * 65536 := by omega
  have hsplit := Int.mul_tdiv_add_tmod
    (((size : Int) - 1 - 2 * calibrationOffset) * 65536) (hi.toInt - lo.toInt)
  have hlow := Int.tmod_nonneg (hi.toInt - lo.toInt) hrange
  have hhigh : (((size : Int) - 1 - 2 * calibrationOffset) * 65536).tmod (hi.toInt - lo.toInt) <
      65536 := by
    have h₁ := hi.toInt_lt
    have h₂ := hi.le_toInt
    have h₃ := lo.toInt_lt
    have h₄ := lo.le_toInt
    have hnat := Int.natAbs_tmod (((size : Int) - 1 - 2 * calibrationOffset) * 65536)
      (hi.toInt - lo.toInt)
    have hmod := Nat.mod_lt (((size : Int) - 1 - 2 * calibrationOffset) * 65536).natAbs
      (Int.natAbs_pos.mpr hd)
    omega
  rw [onAxis_eq (by omega), scaleOf, mul_comm]
  generalize (hi.toInt - lo.toInt) * _ = product at *
  rw [abs_le]
  omega

end Axis

section Runs

variable {s : State}

theorem scalesOf_span (l : Layout) {cal : TouchCal} (hx : cal.x0 ≠ cal.x1) (hy : cal.y0 ≠ cal.y1) :
    scalesOf l cal = (scaleOf l.lcdWidth cal.x0 cal.x1, scaleOf l.lcdHeight cal.y0 cal.y1) :=
  if_pos ⟨span_ne_zero hx, span_ne_zero hy⟩

theorem screen_size (board : Board) :
    2 * calibrationOffset < (layoutOf board).lcdWidth ∧
      2 * calibrationOffset < (layoutOf board).lcdHeight := by
  cases board <;> decide

/-- In every run a touch of the panel is placed on the screen, and less than two pixels off the
line through the calibration in force, whatever calibrations the scales were made for before. -/
theorem position_near (board : Board) (events : List Event)
    (hrun : run board (initial board) events = some s) (hpanel : s.touchRemote = .none) :
    let l := layoutOf board
    let p := (touchPosition l s).1
    let c := s.touchCal
    (0 ≤ p.1 ∧ p.1 < l.lcdWidth ∧ 0 ≤ p.2 ∧ p.2 < l.lcdHeight) ∧
      (c.x0 ≠ c.x1 → c.y0 ≠ c.y1 →
        |(p.1 : ℚ) - clampTo l.lcdWidth (idealOf l.lcdWidth c.x0 c.x1 s.lastTouchX)| < 2 ∧
        |(p.2 : ℚ) - clampTo l.lcdHeight (idealOf l.lcdHeight c.y0 c.y1 s.lastTouchY)| < 2) := by
  intro l p c
  obtain ⟨hwidth, hheight⟩ := screen_size board
  have hw : 0 < l.lcdWidth := Nat.zero_lt_of_lt hwidth
  have hh : 0 < l.lcdHeight := Nat.zero_lt_of_lt hheight
  have hp : p = pointOf l c s.lastTouchX s.lastTouchY :=
    touchPosition_eq (coherent_run (coherent_initial board) hrun) hpanel
  rw [hp]
  constructor
  · exact ⟨(onAxis_mem hw ..).1, (onAxis_mem hw ..).2, (onAxis_mem hh ..).1, (onAxis_mem hh ..).2⟩
  · intro hx hy
    simp only [pointOf]
    rw [scalesOf_span l hx hy]
    exact ⟨onAxis_near hw hx s.lastTouchX, onAxis_near hh hy s.lastTouchY⟩

/-- A touch near the middle of the screen of the larger board. -/
theorem position_near_middle :
    let events : List Event :=
      [.position, .configure ⟨300, 600, 3700, 3500⟩, .input (.sample ⟨3000, 2000, 2000, 3000⟩)]
    ∃ s, run .f303 (initial .f303) events = some s ∧
      let p := (touchPosition (layoutOf .f303) s).1
      (0 ≤ p.1 ∧ p.1 < 480 ∧ 0 ≤ p.2 ∧ p.2 < 320) ∧
        |(p.1 : ℚ) - clampTo 480 (idealOf 480 300 3700 2000)| < 2 ∧
        |(p.2 : ℚ) - clampTo 320 (idealOf 320 600 3500 2000)| < 2 := by
  intro events
  refine ⟨_, rfl, ?_⟩
  obtain ⟨hscreen, hnear⟩ := position_near .f303 events rfl rfl
  exact ⟨hscreen, hnear (by decide) (by decide)⟩

def Quiet : Event → Prop
  | .input _ => True
  | .position => True
  | .configure _ => False
  | .calibrate _ _ => False

instance : DecidablePred Quiet
  | .input _ => inferInstanceAs (Decidable True)
  | .position => inferInstanceAs (Decidable True)
  | .configure _ => inferInstanceAs (Decidable False)
  | .calibrate _ _ => inferInstanceAs (Decidable False)

theorem touchCal_of_quiet {board : Board} {t : State} {events : List Event}
    (hcoherent : Coherent (layoutOf board) s) (hquiet : ∀ e ∈ events, Quiet e)
    (hrun : run board s events = some t) : t.touchCal = s.touchCal := by
  induction events generalizing s with
  | nil =>
    obtain rfl := Option.some.inj hrun
    rfl
  | cons e events ih =>
    obtain ⟨u, hstep, hrest⟩ := run_cons hrun
    have hkept : u.touchCal = s.touchCal := by
      cases e with
      | input i =>
        obtain rfl := Option.some.inj hstep
        exact (same_input board s i).touchCal
      | position =>
        obtain rfl := Option.some.inj hstep
        exact (same_position hcoherent).1
      | configure cal => exact (hquiet _ (List.mem_cons_self ..)).elim
      | calibrate first second => exact (hquiet _ (List.mem_cons_self ..)).elim
    exact (ih (coherent_step hcoherent hstep)
      (fun d hd => hquiet d (List.mem_cons_of_mem e hd)) hrest).trans hkept

/-- Whatever came before, a point of the panel is in the two words of the last reading. -/
def OnPanel (s : State) (p : Point) : Prop :=
  ∀ x y, p = .panel x y → (s.lastTouchX, s.lastTouchY) = p.stored ∧ s.touchRemote = .none

theorem onPanel_input {board : Board} {p : Point} (h : OnPanel s p) (i : Input) :
    OnPanel (inputStep board s i) (p.after board i) := by
  cases i with
  | sample r =>
    obtain ⟨hafter, hstored, hremote⟩ | ⟨hafter, hkept, hremote⟩ := @sample_cases board p s r
    · rw [hafter]
      exact fun x y _ => ⟨hstored, hremote⟩
    · rw [hafter]
      intro x y hpanel
      obtain ⟨hlast, hnone⟩ := h x y hpanel
      exact ⟨hkept.trans hlast, hremote.elim (fun hsame => hsame.trans hnone) And.right⟩
  | remote press x y =>
    cases board with
    | f072 => exact h
    | f303 =>
      intro _ _ hpanel
      exact absurd hpanel (by simp [Point.after])

theorem onPanel_inputs {board : Board} {inputs : List Input} {p : Point} (h : OnPanel s p) :
    OnPanel (inputs.foldl (inputStep board) s) (inputs.foldl (Point.after board) p) := by
  induction inputs generalizing s p with
  | nil => exact h
  | cons i inputs ih => exact ih (onPanel_input h i)

theorem onPanel_step {board : Board} {t : State} {a : Pointer}
    (hcoherent : Coherent (layoutOf board) s) (h : OnPanel s a.point) {e : Event}
    (hstep : step board s e = some t) : OnPanel t (a.step board e).point := by
  cases e with
  | input i =>
    obtain rfl := Option.some.inj hstep
    exact onPanel_input h i
  | position =>
    obtain rfl := Option.some.inj hstep
    obtain ⟨-, hremote, hx, hy⟩ := same_position hcoherent
    intro x y hpanel
    rw [hremote, hx, hy]
    exact h x y hpanel
  | configure cal =>
    obtain rfl := Option.some.inj hstep
    exact h
  | calibrate first second =>
    rw [uiTouchCalExec_cases board hstep]
    have hfirst : OnPanel (first.foldl (inputStep board) s)
        (first.foldl (Point.after board) a.point) := onPanel_inputs h
    exact onPanel_inputs hfirst

theorem onPanel_run {board : Board} {t : State} {events : List Event} {a : Pointer}
    (hcoherent : Coherent (layoutOf board) s) (h : OnPanel s a.point)
    (hrun : run board s events = some t) : OnPanel t (a.run board events).point := by
  induction events generalizing s a with
  | nil =>
    obtain rfl := Option.some.inj hrun
    exact h
  | cons e events ih =>
    obtain ⟨u, hstep, hrest⟩ := run_cons hrun
    exact ih (coherent_step hcoherent hstep) (onPanel_step hcoherent h hstep) hrest

theorem onPanel_initial (board : Board) : OnPanel (initial board) (Pointer.initial board).point :=
  fun _ _ _ => ⟨rfl, rfl⟩

theorem stored_ne {x y : Fin 4096} (h : x ≠ y) : Int16.ofNat x.val ≠ Int16.ofNat y.val := by
  intro heq
  have hint := congrArg Int16.toInt heq
  rw [Int16.toInt_ofNat_of_lt (by omega), Int16.toInt_ofNat_of_lt (by omega)] at hint
  exact h (Fin.ext (Int.ofNat.inj hint))

theorem lowerRight_middle (board : Board) :
    let l := layoutOf board
    (((lowerRight l).1 + touchMarkX : Nat) : Int) = l.lcdWidth - 1 - calibrationOffset ∧
      (((lowerRight l).2 + touchMarkY : Nat) : Int) = l.lcdHeight - 1 - calibrationOffset := by
  cases board <;> decide

theorem touchCal_of_calibration {board : Board} {events later : List Event}
    {first second : List Input} {px py qx qy : Fin 4096} (hquiet : ∀ e ∈ later, Quiet e)
    (hrun : run board (initial board) (events ++ .calibrate first second :: later) = some s)
    (hp : first.foldl (Point.after board) ((Pointer.initial board).run board events).point =
      .panel px py)
    (hq : second.foldl (Point.after board) (.panel px py) = .panel qx qy) :
    s.touchCal = ⟨Int16.ofNat px, Int16.ofNat py, Int16.ofNat qx, Int16.ofNat qy⟩ := by
  rw [run, List.foldlM_append] at hrun
  obtain ⟨u, hbefore, hafter⟩ := Option.bind_eq_some_iff.mp hrun
  obtain ⟨v, hcalibrate, hlater⟩ := run_cons hafter
  have hcoherent := coherent_run (coherent_initial board) hbefore
  have hpanel := onPanel_run (coherent_initial board) (onPanel_initial board) hbefore
  have hfirst : OnPanel (first.foldl (inputStep board) u)
      (first.foldl (Point.after board) ((Pointer.initial board).run board events).point) :=
    onPanel_inputs hpanel
  rw [hp] at hfirst
  rw [touchCal_of_quiet (coherent_step hcoherent hcalibrate) hquiet hlater,
    uiTouchCalExec_cases board hcalibrate]
  generalize first.foldl (inputStep board) u = w at hfirst ⊢
  have hmarked : OnPanel
      { w with touchCal := { w.touchCal with x0 := w.lastTouchX, y0 := w.lastTouchY } }
      (.panel px py) := hfirst
  have hsecond := @onPanel_inputs _ board second _ hmarked
  rw [hq] at hsecond
  obtain ⟨hpx, hpy⟩ := Prod.ext_iff.mp (hfirst px py rfl).1
  obtain ⟨hqx, hqy⟩ := Prod.ext_iff.mp (hsecond qx qy rfl).1
  rw [TouchCal.mk.injEq]
  exact ⟨hpx, hpy, hqx, hqy⟩

/-- After a calibration a touch at the first of its two points is placed at the middle of the first
mark, and one at the second point at most one pixel off the middle of the second mark. -/
theorem marks_shown (board : Board) (events later : List Event) (first second : List Input)
    (px py qx qy : Fin 4096) (hquiet : ∀ e ∈ later, Quiet e)
    (hrun : run board (initial board) (events ++ .calibrate first second :: later) = some s)
    (hp : first.foldl (Point.after board) ((Pointer.initial board).run board events).point =
      .panel px py)
    (hq : second.foldl (Point.after board) (.panel px py) = .panel qx qy)
    (hx : px ≠ qx) (hy : py ≠ qy) :
    let l := layoutOf board
    let p := (touchPosition l s).1
    let a := (Pointer.initial board).run board (events ++ .calibrate first second :: later)
    (a.point = .panel px py →
      p = (((upperLeft.1 + touchMarkX : Nat) : Int), ((upperLeft.2 + touchMarkY : Nat) : Int))) ∧
    (a.point = .panel qx qy →
      |p.1 - ((lowerRight l).1 + touchMarkX : Nat)| ≤ 1 ∧
      |p.2 - ((lowerRight l).2 + touchMarkY : Nat)| ≤ 1) := by
  intro l p a
  obtain ⟨hwidth, hheight⟩ : 2 * calibrationOffset < l.lcdWidth ∧
      2 * calibrationOffset < l.lcdHeight := screen_size board
  obtain ⟨hmarkX, hmarkY⟩ := lowerRight_middle board
  have hcoherent := coherent_run (coherent_initial board) hrun
  have hpanel : OnPanel s a.point :=
    onPanel_run (coherent_initial board) (onPanel_initial board) hrun
  have hcal := touchCal_of_calibration hquiet hrun hp hq
  have hplace {x y : Fin 4096} (hpoint : a.point = .panel x y) :
      p = pointOf l s.touchCal (Int16.ofNat x) (Int16.ofNat y) := by
    obtain ⟨hstored, hremote⟩ := hpanel x y hpoint
    rw [hpoint] at hstored
    obtain ⟨hlastX, hlastY⟩ := Prod.ext_iff.mp hstored
    simp only [Point.stored] at hlastX hlastY
    rw [← hlastX, ← hlastY]
    exact touchPosition_eq hcoherent hremote
  have hscales : scalesOf l s.touchCal = (scaleOf l.lcdWidth s.touchCal.x0 s.touchCal.x1,
      scaleOf l.lcdHeight s.touchCal.y0 s.touchCal.y1) := by
    apply scalesOf_span <;> rw [hcal]
    · exact stored_ne hx
    · exact stored_ne hy
  constructor
  · intro hpoint
    rw [hplace hpoint]
    simp only [pointOf]
    rw [hcal]
    exact Prod.ext (onAxis_first (by omega) ..) (onAxis_first (by omega) ..)
  · intro hpoint
    rw [hplace hpoint, hmarkX, hmarkY]
    simp only [pointOf]
    rw [hscales, hcal]
    exact ⟨onAxis_second hwidth (stored_ne hx), onAxis_second hheight (stored_ne hy)⟩

/-- The larger board is calibrated, and touched at the second point again. -/
theorem marks_shown_again :
    let first : List Input := [.sample ⟨3000, 700, 400, 3000⟩, .sample ⟨0, 0, 0, 0⟩]
    let second : List Input := [.sample ⟨3000, 3400, 3500, 3000⟩, .sample ⟨0, 0, 0, 0⟩]
    ∃ s, run .f303 (initial .f303)
        [.position, .calibrate first second, .input (.sample ⟨3000, 3400, 3500, 3000⟩)] = some s ∧
      |(touchPosition (layoutOf .f303) s).1.1 - 463| ≤ 1 ∧
      |(touchPosition (layoutOf .f303) s).1.2 - 303| ≤ 1 := by
  intro first second
  refine ⟨_, rfl, ?_⟩
  exact (marks_shown .f303 [.position] [.input (.sample ⟨3000, 3400, 3500, 3000⟩)] first second
    400 700 3500 3400 (by decide) rfl rfl rfl (by decide) (by decide)).2 rfl

end Runs

end NanoVNA.TouchAccuracy
