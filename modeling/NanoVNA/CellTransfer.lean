import Mathlib.Data.List.Flatten
import NanoVNA.DoubleBuffer
import NanoVNA.TraceCells

namespace NanoVNA.CellTransfer

open NanoVNA.TraceCells NanoVNA.DoubleBuffer

abbrev Screen := Nat → Nat → UInt16

/-- The region that `lcd_set_window` opens. -/
structure Window where
  x : Nat
  y : Nat
  w : Nat
  h : Nat

def lcd : Consumer UInt16 Window Screen where
  size win := win.w * win.h
  deliver win k c screen :=
    Function.update screen (win.x + k % win.w)
      (Function.update (screen (win.x + k % win.w)) (win.y + k / win.w) c)

/-- What is drawn into a cell between its background and its transfer; nothing is drawn outside
the buffer of a cell. -/
structure Drawing where
  rcx : RenderCellCtx
  background : UInt16
  writes : List (Nat × UInt16)
  w_pos : 0 < rcx.w
  h_pos : 0 < rcx.h
  inside : ∀ p ∈ writes, p.1 < rcx.cellWidth * rcx.cellHeight

section Code

variable (d : Drawing)

def cellClear : List (Action UInt16 Window) :=
  (List.range (d.rcx.h * d.rcx.cellWidth)).map fun i => .write i d.background

def compactCellBuffer : List (Action UInt16 Window) :=
  if d.rcx.w = d.rcx.cellWidth then []
  else
    (List.range' 1 (d.rcx.h - 1)).flatMap fun y =>
      (List.range d.rcx.w).map fun x => .copy (y * d.rcx.w + x) (y * d.rcx.cellWidth + x)

def windowOf (offsetX offsetY : Nat) : Window :=
  ⟨offsetX + d.rcx.x0, offsetY + d.rcx.y0, d.rcx.w, d.rcx.h⟩

def render : List (Action UInt16 Window) :=
  cellClear d ++ d.writes.map (fun p => .write p.1 p.2) ++ compactCellBuffer d

def drawCell (offsetX offsetY : Nat) : List (Action UInt16 Window) :=
  render d ++ [.submit (windowOf d offsetX offsetY)]

def rendered : Buffer := d.writes.foldl (fun buf p => Function.update buf p.1 p.2) fun _ =>
  d.background

def paint (offsetX offsetY : Nat) (screen : Screen) : Screen := fun px py =>
  if offsetX + d.rcx.x0 ≤ px ∧ px < offsetX + d.rcx.x0 + d.rcx.w ∧ offsetY + d.rcx.y0 ≤ py ∧
      py < offsetY + d.rcx.y0 + d.rcx.h then
    rendered d (cellIndex d.rcx (px - (offsetX + d.rcx.x0)) (py - (offsetY + d.rcx.y0)))
  else screen px py

end Code

section Views

variable (d : Drawing)

theorem foldl_writes (writes : List (Nat × UInt16)) (v : Nat → UInt16) :
    (writes.map fun p => Action.write p.1 p.2).foldl (viewStep (J := Window)) v =
      writes.foldl (fun buf p => Function.update buf p.1 p.2) v := List.foldl_map

theorem foldl_clear (v : Nat → UInt16) (n : Nat) (c : UInt16) (i : Nat) :
    ((List.range n).map fun i => Action.write i c).foldl (viewStep (J := Window)) v i =
      if i < n then c else v i := by
  induction n with
  | zero => rfl
  | succ n ih =>
    rw [List.range_succ, List.map_append, List.foldl_append]
    simp only [List.map_cons, List.map_nil, List.foldl_cons, List.foldl_nil, viewStep,
      Function.update_apply, ih]
    split_ifs <;> first | rfl | omega

theorem foldl_update_congr (writes : List (Nat × UInt16)) {v v' : Nat → UInt16} {i : Nat}
    (h : v i = v' i) :
    writes.foldl (fun buf p => Function.update buf p.1 p.2) v i =
      writes.foldl (fun buf p => Function.update buf p.1 p.2) v' i := by
  induction writes generalizing v v' with
  | nil => exact h
  | cons p writes ih =>
    refine ih ?_
    simp only [Function.update_apply, h]

/-- Rows are moved forwards, so a pixel is read before anything is written over it. -/
theorem foldl_compact {w cellWidth : Nat} (hle : w ≤ cellWidth) (v : Nat → UInt16)
    (count i : Nat) :
    ((List.range' w count).map fun n => Action.copy n (n / w * cellWidth + n % w)).foldl
        (viewStep (J := Window)) v i =
      if i < w + count then v (i / w * cellWidth + i % w) else v i := by
  induction count generalizing i with
  | zero =>
    by_cases hi : i < w
    · simp [hi, Nat.div_eq_of_lt, Nat.mod_eq_of_lt]
    · simp [hi]
  | succ count ih =>
    have hforward : w + count ≤ (w + count) / w * cellWidth + (w + count) % w := by
      calc w + count = (w + count) / w * w + (w + count) % w := (Nat.div_add_mod' _ _).symm
        _ ≤ (w + count) / w * cellWidth + (w + count) % w := by gcongr
    rw [List.range'_concat, List.map_append, List.foldl_append]
    simp only [List.map_cons, List.map_nil, List.foldl_cons, List.foldl_nil, viewStep,
      Function.update_apply, Nat.one_mul]
    by_cases hi : i = w + count
    · subst hi
      rw [if_pos rfl, ih, if_neg (by omega), if_pos (by omega)]
    · have hsame : i < w + (count + 1) ↔ i < w + count := by omega
      rw [if_neg hi, ih, if_congr hsame rfl rfl]

theorem compact_rows (w cellWidth h : Nat) :
    ((List.range' 1 h).flatMap fun y => (List.range w).map fun x =>
        (Action.copy (y * w + x) (y * cellWidth + x) : Action UInt16 Window)) =
      (List.range' w (h * w)).map fun n => Action.copy n (n / w * cellWidth + n % w) := by
  induction h with
  | zero => simp
  | succ h ih =>
    have hsplit : (h + 1) * w = h * w + w := Nat.succ_mul h w
    rw [List.range'_concat, List.flatMap_append, ih, hsplit, ← List.range'_append, List.map_append]
    congr 1
    rw [List.flatMap_singleton, List.range'_eq_map_range, List.map_map]
    refine List.map_congr_left fun x hx => ?_
    have hlt := List.mem_range.mp hx
    have hindex : w + 1 * (h * w) + x = x + (1 + 1 * h) * w := by ring
    rw [Function.comp_apply, hindex, Nat.add_mul_div_right _ _ (by omega),
      Nat.add_mul_mod_self_right, Nat.div_eq_of_lt hlt, Nat.mod_eq_of_lt hlt]
    congr 1 <;> ring

theorem view_before_submit (v : Nat → UInt16) {x y : Nat} (hx : x < d.rcx.w) (hy : y < d.rcx.h) :
    (render d).foldl viewStep v (y * d.rcx.w + x) = rendered d (cellIndex d.rcx x y) := by
  have hdrawn {i : Nat} (hi : i < d.rcx.h * d.rcx.cellWidth) :
      (cellClear d ++ d.writes.map fun p : Nat × UInt16 =>
        Action.write p.1 p.2).foldl viewStep v i = rendered d i := by
    rw [List.foldl_append, foldl_writes, rendered]
    refine foldl_update_congr d.writes ?_
    rw [cellClear, foldl_clear, if_pos hi]
  have hindex : y * d.rcx.cellWidth + x < d.rcx.h * d.rcx.cellWidth := by
    have hlast : (y + 1) * d.rcx.cellWidth ≤ d.rcx.h * d.rcx.cellWidth := Nat.mul_le_mul_right _ hy
    have hwidth := d.rcx.w_le
    rw [Nat.succ_mul] at hlast
    omega
  rw [render, List.foldl_append, compactCellBuffer, cellIndex]
  split_ifs with hfull
  · rw [List.foldl_nil, hfull]
    exact hdrawn hindex
  · have hlt : y * d.rcx.w + x < d.rcx.w + (d.rcx.h - 1) * d.rcx.w := by
      have hlast : (y + 1) * d.rcx.w ≤ d.rcx.h * d.rcx.w := Nat.mul_le_mul_right _ hy
      have hrows : (d.rcx.h - 1 + 1) * d.rcx.w = d.rcx.h * d.rcx.w := by
        rw [Nat.sub_add_cancel d.h_pos]
      rw [Nat.succ_mul] at hlast hrows
      omega
    rw [compact_rows, foldl_compact d.rcx.w_le, if_pos hlt, Nat.add_comm (y * d.rcx.w),
      Nat.add_mul_div_right _ _ d.w_pos, Nat.add_mul_mod_self_right, Nat.div_eq_of_lt hx,
      Nat.mod_eq_of_lt hx, Nat.zero_add]
    exact hdrawn hindex

end Views

section Transfers

theorem foldl_deliver (win : Window) (v : Nat → UInt16) (screen : Screen) (count px py : Nat)
    (hw : 0 < win.w) :
    (List.range count).foldl (fun screen k => lcd.deliver win k (v k) screen) screen px py =
      if win.x ≤ px ∧ px < win.x + win.w ∧ win.y ≤ py ∧
          (py - win.y) * win.w + (px - win.x) < count then
        v ((py - win.y) * win.w + (px - win.x))
      else screen px py := by
  induction count with
  | zero => simp
  | succ count ih =>
    rw [List.range_succ, List.foldl_append, List.foldl_cons, List.foldl_nil]
    set before := (List.range count).foldl (fun screen k => lcd.deliver win k (v k) screen) screen
    have hdivmod := Nat.div_add_mod' count win.w
    have hmod := Nat.mod_lt count hw
    by_cases hat : px = win.x + count % win.w ∧ py = win.y + count / win.w
    · obtain ⟨rfl, rfl⟩ := hat
      rw [Nat.add_sub_cancel_left, Nat.add_sub_cancel_left, hdivmod,
        if_pos ⟨Nat.le_add_right _ _, Nat.add_lt_add_left hmod _, Nat.le_add_right _ _,
          Nat.lt_succ_self count⟩]
      simp [lcd]
    · have hkeep : lcd.deliver win count (v count) before px py = before px py := by
        by_cases hcolumn : px = win.x + count % win.w
        · have hrow : py ≠ win.y + count / win.w := fun hrow => hat ⟨hcolumn, hrow⟩
          simp [lcd, hcolumn, hrow]
        · simp [lcd, hcolumn]
      have hother : win.x ≤ px ∧ px < win.x + win.w ∧ win.y ≤ py →
          (py - win.y) * win.w + (px - win.x) ≠ count := by
        rintro ⟨hleft, hright, htop⟩ heq
        have hlt : px - win.x < win.w := by omega
        have hrow : count / win.w = py - win.y := by
          rw [← heq, Nat.add_comm, Nat.add_mul_div_right _ _ hw, Nat.div_eq_of_lt hlt, Nat.zero_add]
        have hcolumn : count % win.w = px - win.x := by rw [← heq, Nat.mul_add_mod_of_lt hlt]
        exact hat ⟨by omega, by omega⟩
      rw [hkeep, ih]
      congr 1
      refine propext ⟨?_, ?_⟩
      · rintro ⟨hleft, hright, htop, hlt⟩
        exact ⟨hleft, hright, htop, by omega⟩
      · rintro ⟨hleft, hright, htop, hlt⟩
        have := hother ⟨hleft, hright, htop⟩
        exact ⟨hleft, hright, htop, by omega⟩

variable {d : Drawing} {half : Nat} (offsetX offsetY : Nat)

theorem plain_drawCell (s : Plain UInt16 Screen) :
    ((drawCell d offsetX offsetY).foldl (plainStep half lcd) s).sink =
      paint d offsetX offsetY s.sink := by
  have hactions : ∀ action ∈ render d, isSubmit action = false := by
    intro action hmem
    rw [render] at hmem
    rcases List.mem_append.mp hmem with hmem | hmem
    · rcases List.mem_append.mp hmem with hmem | hmem
      · obtain ⟨i, -, rfl⟩ := List.mem_map.mp hmem
        rfl
      · obtain ⟨p, -, rfl⟩ := List.mem_map.mp hmem
        rfl
    · rw [compactCellBuffer] at hmem
      split_ifs at hmem
      · exact absurd hmem List.not_mem_nil
      · obtain ⟨y, -, hmem⟩ := List.mem_flatMap.mp hmem
        obtain ⟨x, -, rfl⟩ := List.mem_map.mp hmem
        rfl
  obtain ⟨hview, hupper, hsink⟩ := foldl_view half lcd _ s hactions
  rw [drawCell, List.foldl_append, List.foldl_cons, List.foldl_nil, plainStep]
  set u := (render d).foldl (plainStep half lcd) s with hu
  have hfinish : finish half lcd u.memory u.upper (windowOf d offsetX offsetY) 0 u.sink =
      (List.range (d.rcx.w * d.rcx.h)).foldl
        (fun screen k => lcd.deliver (windowOf d offsetX offsetY) k (view half u k) screen)
        s.sink := by
    rw [finish, hsink, ← List.range_eq_range']
    rfl
  simp only [hfinish]
  funext px py
  have hshown : (List.range (d.rcx.w * d.rcx.h)).foldl
      (fun screen k => lcd.deliver (windowOf d offsetX offsetY) k (view half u k) screen)
        s.sink px py =
      if offsetX + d.rcx.x0 ≤ px ∧ px < offsetX + d.rcx.x0 + d.rcx.w ∧ offsetY + d.rcx.y0 ≤ py ∧
          (py - (offsetY + d.rcx.y0)) * d.rcx.w + (px - (offsetX + d.rcx.x0)) <
            d.rcx.w * d.rcx.h then
        view half u ((py - (offsetY + d.rcx.y0)) * d.rcx.w + (px - (offsetX + d.rcx.x0)))
      else s.sink px py :=
    foldl_deliver (windowOf d offsetX offsetY) _ _ _ px py d.w_pos
  rw [hshown, hview, paint]
  by_cases hin : offsetX + d.rcx.x0 ≤ px ∧ px < offsetX + d.rcx.x0 + d.rcx.w ∧
      offsetY + d.rcx.y0 ≤ py ∧ py < offsetY + d.rcx.y0 + d.rcx.h
  · obtain ⟨hleft, hright, htop, hbottom⟩ := hin
    have hx : px - (offsetX + d.rcx.x0) < d.rcx.w := by omega
    have hy : py - (offsetY + d.rcx.y0) < d.rcx.h := by omega
    have hlt : (py - (offsetY + d.rcx.y0)) * d.rcx.w + (px - (offsetX + d.rcx.x0)) <
        d.rcx.w * d.rcx.h := by
      have hlast : (py - (offsetY + d.rcx.y0) + 1) * d.rcx.w ≤ d.rcx.h * d.rcx.w :=
        Nat.mul_le_mul_right _ hy
      rw [Nat.succ_mul, Nat.mul_comm d.rcx.h] at hlast
      omega
    rw [if_pos (And.intro hleft (And.intro hright (And.intro htop hlt))),
      if_pos (And.intro hleft (And.intro hright (And.intro htop hbottom))),
      view_before_submit d _ hx hy]
  · rw [if_neg hin, if_neg]
    rintro ⟨hleft, hright, htop, hlt⟩
    refine hin ⟨hleft, hright, htop, ?_⟩
    by_contra hbelow
    have hrows : d.rcx.h * d.rcx.w ≤ (py - (offsetY + d.rcx.y0)) * d.rcx.w :=
      Nat.mul_le_mul_right _ (by omega)
    rw [Nat.mul_comm d.rcx.h] at hrows
    omega

/-- The cells are those of one buffer, cut in two halves. -/
def Fit (half : Nat) (d : Drawing) : Prop := d.rcx.cellWidth * d.rcx.cellHeight ≤ half

theorem inHalf_drawCell (hfit : Fit half d) :
    ∀ action ∈ drawCell d offsetX offsetY, InHalf half lcd action := by
  have harea : d.rcx.h * d.rcx.cellWidth ≤ half := by
    refine le_trans ?_ hfit
    rw [Nat.mul_comm d.rcx.cellWidth]
    exact Nat.mul_le_mul_right _ d.rcx.h_le
  have hwindow : d.rcx.w * d.rcx.h ≤ half := by
    refine le_trans ?_ harea
    rw [Nat.mul_comm]
    exact Nat.mul_le_mul_left _ d.rcx.w_le
  intro action hmem
  rcases List.mem_append.mp hmem with hmem | hmem
  · rw [render] at hmem
    rcases List.mem_append.mp hmem with hmem | hmem
    · rcases List.mem_append.mp hmem with hmem | hmem
      · obtain ⟨i, hi, rfl⟩ := List.mem_map.mp hmem
        exact (List.mem_range.mp hi).trans_le harea
      · obtain ⟨p, hp, rfl⟩ := List.mem_map.mp hmem
        exact (d.inside p hp).trans_le hfit
    · rw [compactCellBuffer] at hmem
      split_ifs at hmem
      · exact absurd hmem List.not_mem_nil
      · obtain ⟨y, hy, hmem⟩ := List.mem_flatMap.mp hmem
        obtain ⟨x, hx, rfl⟩ := List.mem_map.mp hmem
        have hrow : y < d.rcx.h := by
          have hlt := (List.mem_range'_1.mp hy).2
          have hpos := d.h_pos
          omega
        have hcolumn := List.mem_range.mp hx
        have hlast : (y + 1) * d.rcx.w ≤ d.rcx.h * d.rcx.w := Nat.mul_le_mul_right _ hrow
        rw [Nat.succ_mul, Nat.mul_comm d.rcx.h] at hlast
        have hdst : y * d.rcx.w + x < d.rcx.w * d.rcx.h := by omega
        exact hdst.trans_le hwindow
  · rw [List.mem_singleton.mp hmem]
    exact hwindow

theorem plain_drawCells (ds : List Drawing) (s : Plain UInt16 Screen) :
    ((ds.flatMap fun d => drawCell d offsetX offsetY).foldl (plainStep half lcd) s).sink =
      ds.foldl (fun screen d => paint d offsetX offsetY screen) s.sink := by
  induction ds generalizing s with
  | nil => rfl
  | cons d ds ih =>
    rw [List.flatMap_cons, List.foldl_append, ih, plain_drawCell, List.foldl_cons]

/-- However the transfers to the display fall between the writes of the program, when the last is
over the screen shows every cell as it was drawn. -/
theorem drawCells_shown (ds : List Drawing) (hfit : ∀ d ∈ ds, Fit half d)
    {s t : Pipe UInt16 Window Screen} (hidle : s.pending = none)
    {events : List (Event UInt16 Window)}
    (hprogram : events.filterMap actionOf = ds.flatMap fun d => drawCell d offsetX offsetY)
    (hrun : events.foldlM (step half lcd) s = some t) (hlast : t.pending = none) :
    t.sink = ds.foldl (fun screen d => paint d offsetX offsetY screen) s.sink := by
  have hactions : ∀ action ∈ events.filterMap actionOf, InHalf half lcd action := by
    rw [hprogram]
    intro action hmem
    obtain ⟨d, hd, haction⟩ := List.mem_flatMap.mp hmem
    exact inHalf_drawCell offsetX offsetY (hfit d hd) action haction
  have hjob : JobInHalf half lcd s := by simp [JobInHalf, hidle]
  have hplain := run_plain hjob (by simp [hidle]) hactions hrun
  have hsink := congrArg Plain.sink hplain
  rw [hprogram, plain_drawCells] at hsink
  simpa [plainOf, settled, hidle, hlast] using hsink

end Transfers

end NanoVNA.CellTransfer
