import Mathlib.Order.MinMax
import NanoVNA.ChartPositions
import NanoVNA.RedrawRequests
import NanoVNA.TraceCells

namespace NanoVNA.RedrawMarking

open NanoVNA.PlotLayout NanoVNA.DrawAll
open NanoVNA.ChartPositions (markSetIndex_fst nothingFound onePoint)
open NanoVNA.RedrawRequests (marked_markSetIndex)
open NanoVNA.Bresenham (line line_box)
open NanoVNA.TraceCells (RenderCellCtx Buffer InCell segmentPixels wholeTrace wholeTraces cellPut
  foldl_cellPut_outside drawSegment drawSegment_eq rectangular Nondecreasing renderTracesInCell
  renderTracesInCell_eq)

/-! ### The cells of a line -/

section Cells

variable {l : Layout} {c : Cell}

def InBox (l : Layout) (p q : Nat × Nat) (c : Cell) : Prop :=
  (min (p.1 / l.cellWidth) (q.1 / l.cellWidth) ≤ c.1 ∧
      c.1 ≤ max (p.1 / l.cellWidth) (q.1 / l.cellWidth)) ∧
    min (p.2 / l.cellHeight) (q.2 / l.cellHeight) ≤ c.2 ∧
      c.2 ≤ max (p.2 / l.cellHeight) (q.2 / l.cellHeight)

def InMap (l : Layout) (c : Cell) : Prop := c.1 < maxMarkmapX l ∧ c.2 < maxMarkmapY l

theorem markLine_of_inBox (hmap : InMap l c) {p q : Nat × Nat} (h : InBox l p q c)
    (marked : Markmap) : markLine l p.1 p.2 q.1 q.2 marked c := by
  obtain ⟨hx, hy⟩ := hmap
  obtain ⟨⟨hx1, hx2⟩, hy1, hy2⟩ := h
  have hnot : ¬ ((maxMarkmapY l ≤ p.2 / l.cellHeight ∧ maxMarkmapY l ≤ q.2 / l.cellHeight) ∨
      (maxMarkmapX l ≤ p.1 / l.cellWidth ∧ maxMarkmapX l ≤ q.1 / l.cellWidth)) := by
    omega
  unfold markLine
  dsimp only
  rw [if_neg hnot]
  unfold markCells
  rw [Bool.or_eq_true, Bool.and_eq_true, decide_eq_true_eq, decide_eq_true_eq]
  right
  omega

structure ShowsCell (l : Layout) (rcx : RenderCellCtx) (c : Cell) : Prop where
  width : rcx.cellWidth = l.cellWidth
  height : rcx.cellHeight = l.cellHeight
  left : rcx.x0 = c.1 * l.cellWidth
  top : rcx.y0 = c.2 * l.cellHeight

theorem div_between {size a b n x : Nat} (hsize : 0 < size) (hmin : min a b ≤ x)
    (hmax : x ≤ max a b) (hx : n * size ≤ x) (hx' : x < n * size + size) :
    min (a / size) (b / size) ≤ n ∧ n ≤ max (a / size) (b / size) := by
  have hn : x / size = n := by
    rw [Nat.div_eq_iff hsize]
    omega
  subst hn
  have hle {u v : Nat} (h : u ≤ v) : u / size ≤ v / size := Nat.div_le_div_right h
  constructor
  · obtain h | h := min_le_iff.mp hmin
    · exact Nat.le_trans (Nat.min_le_left _ _) (hle h)
    · exact Nat.le_trans (Nat.min_le_right _ _) (hle h)
  · obtain h | h := le_max_iff.mp hmax
    · exact Nat.le_trans (hle h) (Nat.le_max_left _ _)
    · exact Nat.le_trans (hle h) (Nat.le_max_right _ _)

theorem inBox_of_pixel {rcx : RenderCellCtx} (hcell : ShowsCell l rcx c) {p q : Nat × Nat}
    {pixel : Int × Int}
    (hpixel : pixel ∈ line ((p.1 : Int) - rcx.x0) ((p.2 : Int) - rcx.y0) ((q.1 : Int) - rcx.x0)
      ((q.2 : Int) - rcx.y0)) (hin : InCell rcx pixel) : InBox l p q c := by
  obtain ⟨⟨hx0, hx1⟩, hy0, hy1⟩ := line_box _ _ _ _ hpixel
  obtain ⟨⟨hx, hw⟩, hy, hh⟩ := hin
  have hwidth := rcx.w_le
  have hheight := rcx.h_le
  rw [hcell.width] at hwidth
  rw [hcell.height] at hheight
  have hleft := hcell.left
  have htop := hcell.top
  constructor
  · exact div_between (x := (pixel.1 + rcx.x0).toNat) l.cellWidth_pos (by omega) (by omega)
      (by omega) (by omega)
  · exact div_between (x := (pixel.2 + rcx.y0).toNat) l.cellHeight_pos (by omega) (by omega)
      (by omega) (by omega)

end Cells

/-! ### What the loop marks -/

section Marks

variable {l : Layout} {coord old : Nat → Nat × Nat}

def tablePoint (t : DrawAll.Trace) (i : Nat) : Nat × Nat := (t.x i, t.y i)

def SegmentMoved (coord old : Nat → Nat × Nat) (i : Nat) : Prop :=
  old (i + 1) ≠ coord (i + 1) ∨ old i ≠ coord i

/-- After a number of points: the tables are new so far, the last old point and the bits of the
last two comparisons are kept, and every segment that moved is marked in both places. -/
structure Progress (l : Layout) (coord old : Nat → Nat × Nat) (n : Nat) (w : LineState) : Prop where
  table : ∀ j, tablePoint w.trace j = if j < n then coord j else old j
  last : 0 < n → (w.lastX, w.lastY) = old (n - 1)
  diff : 0 < n → (w.diff % 2 = 1 ↔ old (n - 1) ≠ coord (n - 1))
  marked : ∀ i, i + 1 < n → SegmentMoved coord old i → ∀ c, InMap l c →
    InBox l (old i) (old (i + 1)) c ∨ InBox l (coord i) (coord (i + 1)) c → w.marked c

theorem tablePoint_markSetIndex (w : LineState) (n j : Nat) :
    tablePoint (markSetIndex l coord w n).trace j =
      if j = n then coord n else tablePoint w.trace j :=
  markSetIndex_fst coord w n j

variable (l coord) in
theorem markSetIndex_diff (w : LineState) (n : Nat) :
    (markSetIndex l coord w n).diff % 4 =
      2 * (w.diff % 2) + if tablePoint w.trace n = coord n then 0 else 1 := by
  rw [tablePoint]
  by_cases heq : (w.trace.x n, w.trace.y n) = coord n
  · simp only [markSetIndex, if_pos heq]
    omega
  · simp only [markSetIndex, if_neg heq]
    omega

/-- A segment with an end that has moved is marked where it was and where it is. -/
theorem markSetIndex_marked {i : Nat} {w : LineState} (h : Progress l coord old (i + 1) w)
    (hmoved : SegmentMoved coord old i) :
    (markSetIndex l coord w (i + 1)).marked =
      markLine l (coord i).1 (coord i).2 (coord (i + 1)).1 (coord (i + 1)).2
        (markLine l (old i).1 (old i).2 (old (i + 1)).1 (old (i + 1)).2 w.marked) := by
  have hnew : tablePoint w.trace i = coord i := by rw [h.table, if_pos (Nat.lt_succ_self i)]
  have hold : tablePoint w.trace (i + 1) = old (i + 1) := by
    rw [h.table, if_neg (Nat.lt_irrefl _)]
  have hlast := h.last (Nat.succ_pos i)
  have hprevious := h.diff (Nat.succ_pos i)
  rw [Nat.add_sub_cancel] at hlast hprevious
  have hbits : (markSetIndex l coord w (i + 1)).diff % 4 ≠ 0 := by
    rw [markSetIndex_diff, hold]
    split
    next heq =>
      have hbit := hprevious.mpr (hmoved.resolve_left (not_not.mpr heq))
      omega
    next => omega
  rw [← hnew, ← hlast, ← hold]
  exact if_pos ⟨hbits, Nat.succ_pos i⟩

theorem progress_succ {n : Nat} {w : LineState} (h : Progress l coord old n w) :
    Progress l coord old (n + 1) (markSetIndex l coord w n) := by
  have hold : tablePoint w.trace n = old n := by rw [h.table, if_neg (Nat.lt_irrefl n)]
  have hdiff := markSetIndex_diff l coord w n
  rw [hold] at hdiff
  refine ⟨fun j => ?_, fun _ => hold, fun _ => ?_, fun i hi hmoved c hmap hbox => ?_⟩
  · rw [tablePoint_markSetIndex, h.table]
    obtain hlt | rfl | hgt := Nat.lt_trichotomy j n
    · rw [if_neg hlt.ne, if_pos hlt, if_pos (Nat.lt_succ_of_lt hlt)]
    · rw [if_pos rfl, if_pos (Nat.lt_succ_self j)]
    · rw [if_neg hgt.ne', if_neg (by omega), if_neg (by omega)]
  · rw [Nat.add_sub_cancel]
    split at hdiff
    next heq => exact iff_of_false (by omega) (not_not.mpr heq)
    next hne => exact iff_of_true (by omega) hne
  · obtain hlt | rfl : i + 1 < n ∨ i + 1 = n := by omega
    · exact marked_markSetIndex (h.marked i hlt hmoved c hmap hbox)
    · rw [markSetIndex_marked h hmoved]
      obtain hbox | hbox := hbox
      · exact marked_markLine (markLine_of_inBox hmap hbox _)
      · exact markLine_of_inBox hmap hbox _

theorem progress_range (n : Nat) (t : DrawAll.Trace) (marked : Markmap) :
    Progress l coord (tablePoint t) n
      ((List.range n).foldl (markSetIndex l coord) ⟨0, 0, 0, t, marked⟩) := by
  induction n with
  | zero =>
    refine ⟨fun j => rfl, fun h => ?_, fun h => ?_, fun i hi => ?_⟩
    · exact absurd h (Nat.lt_irrefl 0)
    · exact absurd h (Nat.lt_irrefl 0)
    · exact absurd hi (Nat.not_lt_zero _)
  | succ n ih =>
    rw [List.range_succ, List.foldl_append]
    exact progress_succ ih

theorem trace_kept (n : Nat) (w : LineState) :
    ((List.range n).foldl (markSetIndex l coord) w).trace.enabled = w.trace.enabled ∧
      ((List.range n).foldl (markSetIndex l coord) w).trace.type = w.trace.type := by
  induction n with
  | zero => exact ⟨rfl, rfl⟩
  | succ n ih =>
    rw [List.range_succ, List.foldl_append]
    exact ih

end Marks

/-! ### What is drawn in a cell -/

section Drawing

variable {l : Layout} {c : Cell} {rcx : RenderCellCtx}

theorem wholeTrace_congr {n : Nat} {t t' : TraceCells.Trace} (hcolor : t.color = t'.color)
    (h : ∀ i, i + 1 < n → segmentPixels rcx t i = segmentPixels rcx t' i ∨
      (∀ p ∈ segmentPixels rcx t i, ¬ InCell rcx p) ∧
        ∀ p ∈ segmentPixels rcx t' i, ¬ InCell rcx p) (buf : Buffer) :
    wholeTrace rcx n t buf = wholeTrace rcx n t' buf := by
  have hall : ∀ idxs : List Nat, (∀ i ∈ idxs, i + 1 < n) → ∀ buf,
      (idxs.flatMap (segmentPixels rcx t)).foldl (cellPut rcx t.color) buf =
        (idxs.flatMap (segmentPixels rcx t')).foldl (cellPut rcx t'.color) buf := by
    intro idxs
    induction idxs with
    | nil => exact fun _ _ => rfl
    | cons i idxs ih =>
      intro hidxs buf
      rw [List.forall_mem_cons] at hidxs
      rw [List.flatMap_cons, List.flatMap_cons, List.foldl_append, List.foldl_append,
        ih hidxs.2]
      obtain heq | ⟨hout, hout'⟩ := h i hidxs.1
      · rw [heq, hcolor]
      · rw [foldl_cellPut_outside rcx hout, foldl_cellPut_outside rcx hout']
  refine hall _ (fun i hi => ?_) buf
  have hlt := List.mem_range.mp hi
  omega

def drawnTrace (t : DrawAll.Trace) (color : UInt16) : TraceCells.Trace :=
  ⟨t.enabled, false, t.type, color, t.x, t.y⟩

def drawnTraces (v : View) (color : Fin 4 → UInt16) (stored : List TraceCells.Trace) :
    List TraceCells.Trace :=
  (List.finRange 4).map (fun t => drawnTrace (v.trace t) (color t)) ++ stored

theorem segment_inBox (hcell : ShowsCell l rcx c) {t : DrawAll.Trace} {color : UInt16} {i : Nat}
    {p : Int × Int} (hp : p ∈ segmentPixels rcx (drawnTrace t color) i) (hin : InCell rcx p) :
    InBox l (tablePoint t i) (tablePoint t (i + 1)) c :=
  inBox_of_pixel hcell hp hin

theorem wholeTrace_unmarked {n : Nat} {coord : Nat → Nat × Nat} {t : DrawAll.Trace}
    {w : LineState} (h : Progress l coord (tablePoint t) n w) (hmap : InMap l c)
    (hcell : ShowsCell l rcx c) (hmarked : ¬ w.marked c) (color : UInt16) (buf : Buffer) :
    wholeTrace rcx n (drawnTrace t color) buf =
      wholeTrace rcx n (drawnTrace w.trace color) buf := by
  refine @wholeTrace_congr rcx n (drawnTrace t color) (drawnTrace w.trace color) rfl
    (fun i hi => ?_) buf
  have hnew := h.table i
  have hnext := h.table (i + 1)
  rw [if_pos (by omega)] at hnew
  rw [if_pos hi] at hnext
  by_cases hmoved : SegmentMoved coord (tablePoint t) i
  · have hbox := fun hbox => hmarked (h.marked i hi hmoved c hmap hbox)
    refine Or.inr ⟨fun p hp hin => hbox (Or.inl (segment_inBox hcell hp hin)), fun p hp hin => ?_⟩
    have hinBox := segment_inBox hcell hp hin
    rw [hnew, hnext] at hinBox
    exact hbox (Or.inr hinBox)
  · have hkept : tablePoint w.trace i = tablePoint t i ∧
        tablePoint w.trace (i + 1) = tablePoint t (i + 1) := by
      rw [SegmentMoved, not_or, not_not, not_not] at hmoved
      exact ⟨hnew.trans hmoved.2.symm, hnext.trans hmoved.1.symm⟩
    obtain ⟨hthis, hafter⟩ := hkept
    simp only [tablePoint, Prod.mk.injEq] at hthis hafter
    left
    simp only [segmentPixels, drawnTrace, hthis.1, hthis.2, hafter.1, hafter.2]

variable (e : Measured) (s : Plot l) (t : Fin 4)

theorem exists_progress :
    ∃ w, Progress l (e.coord t) (tablePoint (s.view.trace t)) s.sweepPoints w ∧
      (traceIntoIndex e s t).view.trace t = w.trace ∧ (traceIntoIndex e s t).marked = w.marked ∧
      w.trace.enabled = (s.view.trace t).enabled ∧ w.trace.type = (s.view.trace t).type :=
  ⟨_, progress_range s.sweepPoints (s.view.trace t) s.marked, Function.update_self .., rfl,
    trace_kept s.sweepPoints _⟩

theorem trace_traceIntoIndex_of_ne {j : Fin 4} (h : j ≠ t) :
    (traceIntoIndex e s t).view.trace j = s.view.trace j :=
  Function.update_of_ne h _ _

theorem wholeTrace_traceIntoIndex (hmap : InMap l c) (hcell : ShowsCell l rcx c)
    (hmarked : ¬ (traceIntoIndex e s t).marked c) (color : UInt16) (j : Fin 4) (buf : Buffer) :
    (if (drawnTrace (s.view.trace j) color).processed then
      wholeTrace rcx s.sweepPoints (drawnTrace (s.view.trace j) color) buf else buf) =
    if (drawnTrace ((traceIntoIndex e s t).view.trace j) color).processed then
      wholeTrace rcx s.sweepPoints (drawnTrace ((traceIntoIndex e s t).view.trace j) color) buf
      else buf := by
  by_cases hj : j = t
  · subst hj
    obtain ⟨w, hprogress, htrace, hmarks, henabled, -⟩ := exists_progress e s j
    rw [hmarks] at hmarked
    have hdrawn := wholeTrace_unmarked hprogress hmap hcell hmarked color buf
    have hprocessed : (drawnTrace w.trace color).processed =
        (drawnTrace (s.view.trace j) color).processed := henabled
    rw [htrace, hdrawn, hprocessed]
  · rw [trace_traceIntoIndex_of_ne e s t hj]

theorem wholeTraces_unmarked (color : Fin 4 → UInt16) (stored : List TraceCells.Trace)
    (hmap : InMap l c) (hcell : ShowsCell l rcx c) (hmarked : ¬ (traceIntoIndex e s t).marked c)
    (buf : Buffer) :
    wholeTraces rcx s.sweepPoints (drawnTraces s.view color stored) buf =
      wholeTraces rcx s.sweepPoints (drawnTraces (traceIntoIndex e s t).view color stored) buf := by
  simp only [wholeTraces, drawnTraces, List.foldr_append, List.foldr_map,
    wholeTrace_traceIntoIndex e s t hmap hcell hmarked]

end Drawing

/-! ### The soundness of the marks -/

section Soundness

def drawPolyline (rcx : RenderCellCtx) (sweepPoints : Nat) (t : TraceCells.Trace)
    (buf : Buffer) : Buffer :=
  (List.range (sweepPoints - 1)).foldl (drawSegment rcx t) buf

/-- The last trace is drawn first. -/
def drawPolylines (rcx : RenderCellCtx) (sweepPoints : Nat) (traces : List TraceCells.Trace)
    (buf : Buffer) : Buffer :=
  traces.foldr (fun t buf => if t.processed then drawPolyline rcx sweepPoints t buf else buf) buf

theorem drawPolyline_eq (rcx : RenderCellCtx) (sweepPoints : Nat) (t : TraceCells.Trace) :
    drawPolyline rcx sweepPoints t = wholeTrace rcx sweepPoints t := by
  have hdraw : drawSegment rcx t = fun buf i =>
      (segmentPixels rcx t i).foldl (cellPut rcx t.color) buf := by
    funext buf i
    exact drawSegment_eq rcx t buf i
  funext buf
  rw [drawPolyline, wholeTrace, List.foldl_flatMap, hdraw]

theorem drawPolylines_eq (rcx : RenderCellCtx) (sweepPoints : Nat)
    (traces : List TraceCells.Trace) :
    drawPolylines rcx sweepPoints traces = wholeTraces rcx sweepPoints traces := by
  funext buf
  simp only [drawPolylines, wholeTraces, drawPolyline_eq]

/-- The traces whose points `render_traces_in_cell` looks up by their column are in order. -/
def InOrder (sweepPoints : Nat) (traces : List TraceCells.Trace) : Prop :=
  ∀ t ∈ traces, rectangular t = true → Nondecreasing sweepPoints t

variable {l : Layout} {c : Cell} {rcx : RenderCellCtx}

/-- A cell that is not the same after new points of a trace is marked, drawn with all lines of
all traces, or as the code draws it, which leaves out lines beside the cell. -/
theorem marked_of_drawn_ne (hmap : InMap l c) (hcell : ShowsCell l rcx c) (e : Measured)
    (s : Plot l) (t : Fin 4) (color : Fin 4 → UInt16) (stored : List TraceCells.Trace)
    (buf : Buffer) :
    let old := drawnTraces s.view color stored
    let new := drawnTraces (traceIntoIndex e s t).view color stored
    (drawPolylines rcx s.sweepPoints old buf ≠ drawPolylines rcx s.sweepPoints new buf →
      (traceIntoIndex e s t).marked c) ∧
    ∀ storedTraces, InOrder s.sweepPoints old → InOrder s.sweepPoints new →
      renderTracesInCell rcx storedTraces s.sweepPoints old buf ≠
          renderTracesInCell rcx storedTraces s.sweepPoints new buf →
        (traceIntoIndex e s t).marked c := by
  have hsame (hmarked : ¬ (traceIntoIndex e s t).marked c) :=
    wholeTraces_unmarked e s t color stored hmap hcell hmarked buf
  dsimp only
  constructor
  · intro hne
    by_contra hmarked
    rw [drawPolylines_eq, drawPolylines_eq] at hne
    exact hne (hsame hmarked)
  · intro storedTraces hold hnew hne
    by_contra hmarked
    rw [renderTracesInCell_eq storedTraces hold, renderTracesInCell_eq storedTraces hnew] at hne
    exact hne (hsame hmarked)

def twoPoints : Plot (layoutOf .f072) := { onePoint with sweepPoints := 2 }

def secondMoved : Measured := { nothingFound with coord := fun _ i => (3 * i, 0) }

def firstCell : RenderCellCtx :=
  ⟨32, 16, 32, 16, 0, 0, by decide, by decide, by decide⟩

def white : Fin 4 → UInt16 := fun _ => 65535

theorem firstCell_pixel :
    drawPolylines firstCell 2 (drawnTraces twoPoints.view white []) (fun _ => 0) 2 = 0 ∧
      drawPolylines firstCell 2 (drawnTraces (traceIntoIndex secondMoved twoPoints 0).view white [])
        (fun _ => 0) 2 = 65535 := by
  decide +kernel

theorem marked_of_drawn_ne_firstCell :
    (traceIntoIndex secondMoved twoPoints 0).marked (0, 0) := by
  have hcell : ShowsCell (layoutOf .f072) firstCell (0, 0) := ⟨rfl, rfl, rfl, rfl⟩
  refine (marked_of_drawn_ne ⟨by decide, by decide⟩ hcell secondMoved twoPoints 0 white []
    fun _ => 0).1 fun hsame => ?_
  have hpixel := congrFun hsame 2
  rw [show twoPoints.sweepPoints = 2 from rfl, firstCell_pixel.1, firstCell_pixel.2] at hpixel
  exact absurd hpixel (by decide)

end Soundness

end NanoVNA.RedrawMarking
