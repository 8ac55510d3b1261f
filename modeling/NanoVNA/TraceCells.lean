import NanoVNA.Bresenham
import Mathlib.Logic.Function.Basic

namespace NanoVNA.TraceCells

open NanoVNA.Bresenham

/-- The cell that is drawn: the size of the buffer of a cell, the part of it that lies in the plot
area, and its place in the area, whose columns are words of 16 bits. -/
structure RenderCellCtx where
  cellWidth : Nat
  cellHeight : Nat
  w : Nat
  h : Nat
  x0 : Nat
  y0 : Nat
  w_le : w ≤ cellWidth
  h_le : h ≤ cellHeight
  end_lt : x0 + w < 65536

abbrev Buffer := Nat → UInt16

variable (rcx : RenderCellCtx)

def cellIndex (x y : Nat) : Nat := y * rcx.cellWidth + x

/-- One pixel of the loop of `cell_drawline`. -/
def cellPut (c : UInt16) (buf : Buffer) (p : Int × Int) : Buffer :=
  if (0 ≤ p.1 ∧ p.1 < rcx.w) ∧ 0 ≤ p.2 ∧ p.2 < rcx.h then
    Function.update buf (cellIndex rcx p.1.toNat p.2.toNat) c
  else buf

def Outside (x0 y0 x1 y1 : Int) : Prop :=
  (x0 < 0 ∧ x1 < 0) ∨ (y0 < 0 ∧ y1 < 0) ∨ ((rcx.cellWidth : Int) ≤ x0 ∧ (rcx.cellWidth : Int) ≤ x1) ∨
    ((rcx.cellHeight : Int) ≤ y0 ∧ (rcx.cellHeight : Int) ≤ y1)

instance (x0 y0 x1 y1 : Int) : Decidable (Outside rcx x0 y0 x1 y1) :=
  inferInstanceAs (Decidable (_ ∨ _ ∨ _ ∨ _))

def cellDrawline (x0 y0 x1 y1 : Int) (c : UInt16) (buf : Buffer) : Buffer :=
  if Outside rcx x0 y0 x1 y1 then buf else (line x0 y0 x1 y1).foldl (cellPut rcx c) buf

structure TraceIndexRange where
  found : Bool
  i0 : Nat
  i1 : Nat

def notFound : TraceIndexRange := ⟨false, 0, 0⟩

structure Search where
  head : Nat
  tail : Nat
  mid : Nat
  inside : Bool

def searchLoop (x : Nat → Nat) (xStart xEnd : Nat) : Nat → Search → Search
  | 0, s => s
  | rounds + 1, s =>
    let mid := (s.head + s.tail) / 2
    let s := { s with mid := mid }
    if xEnd ≤ x mid then
      if mid = s.tail then s else searchLoop x xStart xEnd rounds { s with tail := mid }
    else if x mid < xStart then
      if mid = s.head then s else searchLoop x xStart xEnd rounds { s with head := mid }
    else { s with inside := true }

/-- What was not met on the way may still be at one of the two ends. -/
def searchEnds (x : Nat → Nat) (xStart xEnd : Nat) (s : Search) : Search :=
  if s.inside then s
  else if xStart ≤ x s.tail ∧ x s.tail < xEnd then { s with mid := s.tail, inside := true }
  else if xStart ≤ x s.head ∧ x s.head < xEnd then { s with mid := s.head, inside := true }
  else s

def goLeft (x : Nat → Nat) (xStart : Nat) : Nat → Nat
  | 0 => 0
  | left + 1 => if xStart ≤ x left then goLeft x xStart left else left + 1

def goRight (x : Nat → Nat) (xEnd : Nat) : Nat → Nat → Nat
  | 0, right => right
  | room + 1, right => if x (right + 1) < xEnd then goRight x xEnd room (right + 1) else right

def searchIndexRangeX (sweepPoints xStart xEnd : Nat) (x : Nat → Nat) : TraceIndexRange :=
  if sweepPoints < 2 then notFound
  else
    let xEnd := if xEnd ≤ xStart then xEnd + 1 else xEnd
    let s := searchEnds x xStart xEnd (searchLoop x xStart xEnd 16 ⟨0, sweepPoints - 1, 0, false⟩)
    if s.inside then
      ⟨true, goLeft x xStart s.mid, goRight x xEnd (sweepPoints - 1 - s.mid) s.mid⟩
    else notFound

/-- What `render_traces_in_cell` reads of a trace. -/
structure Trace where
  processed : Bool
  stored : Bool
  type : Nat
  color : UInt16
  x : Nat → Nat
  y : Nat → Nat

def trcSmith : Nat := 3

def trcPolar : Nat := 4

/-- `RECTANGULAR_GRID_MASK`: all of the thirty types but the two round ones. -/
def rectangularGridMask : Nat := 2 ^ 30 - 1 - 2 ^ trcSmith - 2 ^ trcPolar

def rectangular (t : Trace) : Bool := !t.stored && rectangularGridMask.testBit t.type

def drawSegment (t : Trace) (buf : Buffer) (i : Nat) : Buffer :=
  cellDrawline rcx ((t.x i : Int) - rcx.x0) ((t.y i : Int) - rcx.y0) ((t.x (i + 1) : Int) - rcx.x0)
    ((t.y (i + 1) : Int) - rcx.y0) t.color buf

def renderTrace (storedTraces : Bool) (sweepPoints : Nat) (t : Trace) (buf : Buffer) : Buffer :=
  let range :=
    if rectangular t ∧ ¬ storedTraces ∧ 30 < sweepPoints then
      searchIndexRangeX sweepPoints rcx.x0 (rcx.x0 + rcx.w) t.x
    else notFound
  let start := if range.found then range.i0 else 0
  let stop := if range.found then range.i1 else sweepPoints - 1
  let firstSegment := if 0 < start then start - 1 else 0
  let lastSegment := if stop < sweepPoints - 1 then stop + 1 else sweepPoints - 1
  if lastSegment ≤ firstSegment then buf
  else (List.range' firstSegment (lastSegment - firstSegment)).foldl (drawSegment rcx t) buf

/-- The last trace is drawn first. -/
def renderTracesInCell (storedTraces : Bool) (sweepPoints : Nat) (traces : List Trace)
    (buf : Buffer) : Buffer :=
  if sweepPoints < 2 then buf
  else
    traces.foldr (fun t buf =>
      if t.processed then renderTrace rcx storedTraces sweepPoints t buf else buf) buf

def segmentPixels (t : Trace) (i : Nat) : List (Int × Int) :=
  line ((t.x i : Int) - rcx.x0) ((t.y i : Int) - rcx.y0) ((t.x (i + 1) : Int) - rcx.x0)
    ((t.y (i + 1) : Int) - rcx.y0)

def wholeTrace (sweepPoints : Nat) (t : Trace) (buf : Buffer) : Buffer :=
  ((List.range (sweepPoints - 1)).flatMap (segmentPixels rcx t)).foldl (cellPut rcx t.color) buf

def wholeTraces (sweepPoints : Nat) (traces : List Trace) (buf : Buffer) : Buffer :=
  traces.foldr (fun t buf => if t.processed then wholeTrace rcx sweepPoints t buf else buf) buf

def InCell (p : Int × Int) : Prop := (0 ≤ p.1 ∧ p.1 < rcx.w) ∧ 0 ≤ p.2 ∧ p.2 < rcx.h

section Search

variable (x : Nat → Nat) (xStart xEnd : Nat)

/-- The search ends at points of the trace, and an inside one is in the range. -/
structure Sound (sweepPoints : Nat) (s : Search) : Prop where
  head : s.head < sweepPoints
  tail : s.tail < sweepPoints
  mid : s.inside = true → s.mid < sweepPoints ∧ xStart ≤ x s.mid ∧ x s.mid < xEnd

theorem searchLoop_sound {sweepPoints : Nat} (rounds : Nat) {s : Search} (hhead : s.head < sweepPoints)
    (htail : s.tail < sweepPoints) (hinside : s.inside = false) :
    Sound x xStart xEnd sweepPoints (searchLoop x xStart xEnd rounds s) := by
  have hnot {a : Bool} {P : Prop} (ha : a = false) : a = true → P :=
    fun h => absurd (ha.symm.trans h) (by decide)
  induction rounds generalizing s with
  | zero => exact ⟨hhead, htail, hnot hinside⟩
  | succ rounds ih =>
    have hmid : (s.head + s.tail) / 2 < sweepPoints := by omega
    rw [searchLoop]
    dsimp only
    split
    · split
      · exact ⟨hhead, htail, hnot hinside⟩
      · exact ih hhead hmid hinside
    · rename_i hhi
      split
      · split
        · exact ⟨hhead, htail, hnot hinside⟩
        · exact ih hmid htail hinside
      · rename_i hlo
        exact ⟨hhead, htail, fun _ => ⟨hmid, Nat.le_of_not_lt hlo, Nat.lt_of_not_le hhi⟩⟩

variable {x xStart xEnd}

theorem searchEnds_sound {sweepPoints : Nat} {s : Search}
    (h : Sound x xStart xEnd sweepPoints s) :
    Sound x xStart xEnd sweepPoints (searchEnds x xStart xEnd s) := by
  unfold searchEnds
  split
  · exact h
  · split
    · rename_i htail
      exact ⟨h.head, h.tail, fun _ => ⟨h.tail, htail⟩⟩
    · split
      · rename_i hhead
        exact ⟨h.head, h.tail, fun _ => ⟨h.head, hhead⟩⟩
      · exact h

variable (x xStart xEnd)

theorem goLeft_spec (mid : Nat) :
    goLeft x xStart mid ≤ mid ∧
      ∀ i, i + 1 = goLeft x xStart mid → x i < xStart := by
  induction mid with
  | zero => exact ⟨Nat.le_refl 0, fun i hi => absurd hi (Nat.succ_ne_zero i)⟩
  | succ mid ih =>
    rw [goLeft]
    split
    · exact ⟨Nat.le_succ_of_le ih.1, ih.2⟩
    · rename_i hstop
      refine ⟨Nat.le_refl _, fun i hi => ?_⟩
      rw [Nat.succ.inj hi]
      exact Nat.lt_of_not_le hstop

theorem goRight_spec (room right : Nat) :
    right ≤ goRight x xEnd room right ∧ goRight x xEnd room right ≤ right + room ∧
      (goRight x xEnd room right < right + room → xEnd ≤ x (goRight x xEnd room right + 1)) := by
  induction room generalizing right with
  | zero => exact ⟨Nat.le_refl _, Nat.le_refl _, fun h => absurd h (Nat.lt_irrefl _)⟩
  | succ room ih =>
    obtain ⟨hle, hroom, hstop⟩ := ih (right + 1)
    rw [goRight]
    split
    · exact ⟨by omega, by omega, fun h => hstop (by omega)⟩
    · rename_i hend
      exact ⟨Nat.le_refl _, Nat.le_add_right _ _, fun _ => Nat.le_of_not_lt hend⟩

structure Covers (sweepPoints : Nat) (r : TraceIndexRange) : Prop where
  left : ∀ i, i + 1 = r.i0 → x i < xStart
  order : r.i0 ≤ r.i1
  within : r.i1 < sweepPoints
  right : r.i1 + 1 < sweepPoints → xEnd ≤ x (r.i1 + 1)

theorem searchIndexRangeX_covers {sweepPoints : Nat}
    (hfound : (searchIndexRangeX sweepPoints xStart xEnd x).found = true) :
    Covers x xStart xEnd sweepPoints (searchIndexRangeX sweepPoints xStart xEnd x) := by
  revert hfound
  unfold searchIndexRangeX
  split
  · exact fun h => nomatch h
  · rename_i hpoints
    dsimp only
    have hend : xEnd ≤ if xEnd ≤ xStart then xEnd + 1 else xEnd := by
      split <;> omega
    generalize (if xEnd ≤ xStart then xEnd + 1 else xEnd) = last at hend ⊢
    have hsound := searchEnds_sound (searchLoop_sound x xStart last 16
      (s := ⟨0, sweepPoints - 1, 0, false⟩)
      (show 0 < sweepPoints by omega) (show sweepPoints - 1 < sweepPoints by omega) rfl)
    split
    · rename_i hinside
      intro _
      obtain ⟨hmid, hlo, hhi⟩ := hsound.mid hinside
      generalize (searchEnds x xStart last (searchLoop x xStart last 16
        ⟨0, sweepPoints - 1, 0, false⟩)).mid = mid at hmid hlo hhi ⊢
      obtain ⟨hleft, hstart⟩ := goLeft_spec x xStart mid
      obtain ⟨hright, hroom, hstop⟩ := goRight_spec x last (sweepPoints - 1 - mid) mid
      refine ⟨hstart, Nat.le_trans hleft hright, by dsimp only; omega, fun hmore => ?_⟩
      exact Nat.le_trans hend (hstop (by dsimp only at hmore; omega))
    · exact fun h => nomatch h

end Search

section Pixels

theorem cellPut_of_not_inCell {p : Int × Int} (h : ¬ InCell rcx p) (c : UInt16) (buf : Buffer) :
    cellPut rcx c buf p = buf := if_neg h

theorem foldl_cellPut_outside {pixels : List (Int × Int)} (h : ∀ p ∈ pixels, ¬ InCell rcx p)
    (c : UInt16) (buf : Buffer) : pixels.foldl (cellPut rcx c) buf = buf := by
  induction pixels with
  | nil => rfl
  | cons p pixels ih =>
    rw [List.forall_mem_cons] at h
    rw [List.foldl_cons, cellPut_of_not_inCell rcx h.1, ih h.2]

/-- The quick test only drops lines without a pixel in the cell. -/
theorem not_inCell_of_outside {x0 y0 x1 y1 : Int} (h : Outside rcx x0 y0 x1 y1) :
    ∀ p ∈ line x0 y0 x1 y1, ¬ InCell rcx p := by
  intro p hp hin
  obtain ⟨⟨hx0, hx1⟩, hy0, hy1⟩ := line_box x0 y0 x1 y1 hp
  obtain ⟨⟨hx, hw⟩, hy, hh⟩ := hin
  have hwidth := rcx.w_le
  have hheight := rcx.h_le
  unfold Outside at h
  omega

variable (t : Trace)

theorem drawSegment_eq (buf : Buffer) (i : Nat) :
    drawSegment rcx t buf i = (segmentPixels rcx t i).foldl (cellPut rcx t.color) buf := by
  unfold drawSegment cellDrawline
  split
  · rename_i hout
    exact (foldl_cellPut_outside rcx (not_inCell_of_outside rcx hout) t.color buf).symm
  · rfl

theorem segment_outside {t : Trace} {i : Nat}
    (h : t.x i < rcx.x0 ∧ t.x (i + 1) < rcx.x0 ∨
      rcx.x0 + rcx.w ≤ t.x i ∧ rcx.x0 + rcx.w ≤ t.x (i + 1)) :
    ∀ p ∈ segmentPixels rcx t i, ¬ InCell rcx p := by
  intro p hp hin
  obtain ⟨⟨hx0, hx1⟩, -⟩ := line_box _ _ _ _ hp
  obtain ⟨⟨hx, hw⟩, -⟩ := hin
  omega

theorem foldl_segments_outside {t : Trace} {idxs : List Nat}
    (h : ∀ i ∈ idxs, ∀ p ∈ segmentPixels rcx t i, ¬ InCell rcx p) (buf : Buffer) :
    (idxs.flatMap (segmentPixels rcx t)).foldl (cellPut rcx t.color) buf = buf := by
  apply foldl_cellPut_outside
  intro p hp
  obtain ⟨i, hi, hp⟩ := List.mem_flatMap.mp hp
  exact h i hi p hp

/-- Drawing the segments from `first` to `last` is drawing the whole trace if the others have no
pixel in the cell. -/
theorem wholeTrace_eq {sweepPoints first last : Nat} (hfirst : first ≤ last)
    (hlast : last ≤ sweepPoints - 1)
    (hbefore : ∀ i < first, ∀ p ∈ segmentPixels rcx t i, ¬ InCell rcx p)
    (hafter : ∀ i, last ≤ i → i + 1 < sweepPoints → ∀ p ∈ segmentPixels rcx t i, ¬ InCell rcx p)
    (buf : Buffer) :
    wholeTrace rcx sweepPoints t buf =
      (List.range' first (last - first)).foldl (drawSegment rcx t) buf := by
  have hsplit : List.range (sweepPoints - 1) = List.range' 0 first ++
      (List.range' first (last - first) ++ List.range' last (sweepPoints - 1 - last)) := by
    have hmiddle := @List.range'_append_1 first (last - first) (sweepPoints - 1 - last)
    have hall := @List.range'_append_1 0 first (last - first + (sweepPoints - 1 - last))
    rw [Nat.add_sub_cancel' hfirst] at hmiddle
    rw [Nat.zero_add] at hall
    rw [hmiddle, hall, List.range_eq_range']
    congr 1
    omega
  have hdraw : drawSegment rcx t = fun buf i =>
      (segmentPixels rcx t i).foldl (cellPut rcx t.color) buf := by
    funext buf i
    exact drawSegment_eq rcx t buf i
  have hprefix : ∀ i ∈ List.range' 0 first, ∀ p ∈ segmentPixels rcx t i, ¬ InCell rcx p := by
    intro i hi
    rw [List.mem_range'_1] at hi
    exact hbefore i (by omega)
  have hsuffix : ∀ i ∈ List.range' last (sweepPoints - 1 - last),
      ∀ p ∈ segmentPixels rcx t i, ¬ InCell rcx p := by
    intro i hi
    rw [List.mem_range'_1] at hi
    exact hafter i hi.1 (by omega)
  rw [wholeTrace, hsplit, List.flatMap_append, List.flatMap_append, List.foldl_append,
    List.foldl_append, foldl_segments_outside rcx hprefix, foldl_segments_outside rcx hsuffix,
    List.foldl_flatMap, hdraw]

end Pixels

def Nondecreasing (sweepPoints : Nat) (t : Trace) : Prop :=
  ∀ i j, i ≤ j → j < sweepPoints → t.x i ≤ t.x j

section Render

variable {rcx} {t : Trace} {sweepPoints : Nat}

theorem renderTrace_eq_foldl (storedTraces : Bool) (t : Trace) {first last : Nat} {buf : Buffer}
    (h : renderTrace rcx storedTraces sweepPoints t buf =
      if last ≤ first then buf
      else (List.range' first (last - first)).foldl (drawSegment rcx t) buf) :
    renderTrace rcx storedTraces sweepPoints t buf =
      (List.range' first (last - first)).foldl (drawSegment rcx t) buf := by
  rw [h]
  split
  · rename_i hle
    rw [Nat.sub_eq_zero_of_le hle]
    rfl
  · rfl

/-- The segments next to a found range reach into the cell, those beyond them do not. -/
theorem renderTrace_found (hsorted : Nondecreasing sweepPoints t) {r : TraceIndexRange}
    (h : Covers t.x rcx.x0 (rcx.x0 + rcx.w) sweepPoints r) (buf : Buffer) :
    let first := if 0 < r.i0 then r.i0 - 1 else 0
    let last := if r.i1 < sweepPoints - 1 then r.i1 + 1 else sweepPoints - 1
    wholeTrace rcx sweepPoints t buf =
      (List.range' first (last - first)).foldl (drawSegment rcx t) buf := by
  have hwithin := h.within
  have horder := h.order
  dsimp only
  apply wholeTrace_eq
  · split <;> split <;> omega
  · split <;> omega
  · intro i hi
    split at hi
    · rename_i hpos
      have hleft := h.left (r.i0 - 1) (Nat.sub_add_cancel hpos)
      have hnext := hsorted (i + 1) (r.i0 - 1) (by omega) (by omega)
      have hthis := hsorted i (i + 1) (Nat.le_succ i) (by omega)
      exact segment_outside rcx (.inl ⟨by omega, by omega⟩)
    · exact absurd hi (Nat.not_lt_zero i)
  · intro i hi hpoint
    split at hi
    · rename_i hmore
      have hright := h.right (by omega)
      have hthis := hsorted (r.i1 + 1) i hi (by omega)
      have hnext := hsorted i (i + 1) (Nat.le_succ i) hpoint
      exact segment_outside rcx (.inr ⟨by omega, by omega⟩)
    · omega

theorem renderTrace_eq (storedTraces : Bool)
    (hsorted : rectangular t = true → Nondecreasing sweepPoints t) (buf : Buffer) :
    renderTrace rcx storedTraces sweepPoints t buf = wholeTrace rcx sweepPoints t buf := by
  generalize hrange : (if rectangular t ∧ ¬ storedTraces ∧ 30 < sweepPoints then
      searchIndexRangeX sweepPoints rcx.x0 (rcx.x0 + rcx.w) t.x else notFound) = r
  have hrender := @renderTrace_eq_foldl rcx sweepPoints storedTraces t _ _ buf rfl
  rw [hrange] at hrender
  rw [hrender]
  cases hfound : r.found with
  | true =>
    obtain ⟨hrect, hcovers⟩ : rectangular t = true ∧
        Covers t.x rcx.x0 (rcx.x0 + rcx.w) sweepPoints r := by
      revert hrange
      split
      · rename_i hsearch
        rintro rfl
        exact ⟨hsearch.1, searchIndexRangeX_covers _ _ _ hfound⟩
      · rintro rfl
        exact absurd hfound (by decide)
    have hwhole := renderTrace_found (hsorted hrect) hcovers buf
    simp only [if_true]
    exact hwhole.symm
  | false =>
    simp only [Bool.false_eq_true, if_false, Nat.lt_irrefl]
    symm
    apply wholeTrace_eq
    · exact Nat.zero_le _
    · exact Nat.le_refl _
    · exact fun i hi => absurd hi (Nat.not_lt_zero i)
    · intro i hi hpoint
      omega

theorem wholeTraces_few (hfew : sweepPoints < 2) (traces : List Trace) (buf : Buffer) :
    wholeTraces rcx sweepPoints traces buf = buf := by
  have hnone : sweepPoints - 1 = 0 := by omega
  induction traces with
  | nil => rfl
  | cons t traces ih =>
    rw [wholeTraces] at ih ⊢
    rw [List.foldr_cons, ih, wholeTrace, hnone]
    exact ite_self buf

theorem renderTracesInCell_eq (storedTraces : Bool) {traces : List Trace}
    (hsorted : ∀ t ∈ traces, rectangular t = true → Nondecreasing sweepPoints t) (buf : Buffer) :
    renderTracesInCell rcx storedTraces sweepPoints traces buf =
      wholeTraces rcx sweepPoints traces buf := by
  unfold renderTracesInCell
  split
  · rename_i hfew
    exact (wholeTraces_few hfew traces buf).symm
  · rw [wholeTraces]
    induction traces with
    | nil => rfl
    | cons t traces ih =>
      rw [List.forall_mem_cons] at hsorted
      rw [List.foldr_cons, List.foldr_cons, ih hsorted.2]
      split
      · exact renderTrace_eq storedTraces hsorted.1 _
      · rfl

end Render

end NanoVNA.TraceCells
