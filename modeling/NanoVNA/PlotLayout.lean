import NanoVNA.DeviceState

namespace NanoVNA.PlotLayout

open NanoVNA.DeviceState

/-- The sizes of the screen, of its cells, of the marker icons and of the texts. -/
structure Layout where
  lcdWidth : Nat
  lcdHeight : Nat
  cellWidth : Nat
  cellHeight : Nat
  offsetX : Nat
  offsetY : Nat
  cellOffsetX : Nat
  areaWidthNormal : Nat
  areaHeightNormal : Nat
  gridXText : Nat
  menuButtonWidth : Nat
  fontWidth : Nat
  fontStrHeight : Nat
  markerWidth : Nat
  markerHeight : Nat
  xMarkerOffset : Nat
  yMarkerOffset : Nat
  cellWidth_pos : 0 < cellWidth
  cellHeight_pos : 0 < cellHeight
  markerWidth_pos : 0 < markerWidth
  markerHeight_pos : 0 < markerHeight
  areaWidthNormal_le : areaWidthNormal ≤ lcdWidth
  areaHeightNormal_le : areaHeightNormal ≤ lcdHeight

def layoutOf : Board → Layout
  | .f072 => ⟨320, 240, 32, 16, 10, 0, 5, 310, 233, 275, 79, 6, 11, 11, 12, 5, 12, by decide,
      by decide, by decide, by decide, by decide, by decide⟩
  | .f303 => ⟨480, 320, 32, 64, 15, 0, 5, 465, 305, 420, 91, 7, 11, 11, 14, 5, 14, by decide,
      by decide, by decide, by decide, by decide, by decide⟩

variable (l : Layout)

def cellsOf (size length : Nat) : Nat := (length + size - 1) / size

def maxMarkmapX : Nat := cellsOf l.cellWidth l.lcdWidth

def maxMarkmapY : Nat := cellsOf l.cellHeight l.lcdHeight

def strMeasureX : Nat := l.offsetX

def strMeasureY : Nat := l.offsetY + 80

def strMeasureWidth : Nat := l.fontWidth * 10

def strMeasureHeight : Nat := l.fontStrHeight + 1

/-- The sizes that `set_area_size` is called with all fit the screen; none is `(0, 0)`. -/
structure Area where
  width : Nat
  height : Nat
  width_le : width ≤ l.lcdWidth
  height_le : height ≤ l.lcdHeight

/-- Under the keypad or the file browser. -/
def Area.hidden : Area l := ⟨0, 0, Nat.zero_le _, Nat.zero_le _⟩

def Area.normal : Area l :=
  ⟨l.areaWidthNormal, l.areaHeightNormal, l.areaWidthNormal_le, l.areaHeightNormal_le⟩

abbrev Cell := Nat × Nat

abbrev Markmap := Cell → Bool

def clearMarkmap : Markmap := fun _ => false

def forceSetMarkmap : Markmap := fun _ => true

/-- The columns of `markmap_mask` in a range of rows. -/
def markCells (x0 x1 y0 y1 : Nat) (marked : Markmap) : Markmap := fun c =>
  marked c || (decide (x0 ≤ c.1 ∧ c.1 ≤ x1) && decide (y0 ≤ c.2 ∧ c.2 ≤ y1))

def clampU16 (value : Int) (lo hi : Nat) : Nat :=
  if value < lo then lo else if (hi : Int) < value then hi else value.toNat

def invalidateRectPx (x0 y0 x1 y1 : Int) (marked : Markmap) : Markmap :=
  let xs := if x1 < x0 then (x1, x0) else (x0, x1)
  let ys := if y1 < y0 then (y1, y0) else (y0, y1)
  markCells (clampU16 (xs.1.tdiv l.cellWidth) 0 (maxMarkmapX l - 1))
    (clampU16 (xs.2.tdiv l.cellWidth) 0 (maxMarkmapX l - 1))
    (clampU16 (ys.1.tdiv l.cellHeight) 0 (maxMarkmapY l - 1))
    (clampU16 (ys.2.tdiv l.cellHeight) 0 (maxMarkmapY l - 1)) marked

def markLine (x1 y1 x2 y2 : Nat) (marked : Markmap) : Markmap :=
  let cellX1 := x1 / l.cellWidth
  let cellX2 := x2 / l.cellWidth
  let cellY1 := y1 / l.cellHeight
  let cellY2 := y2 / l.cellHeight
  if (maxMarkmapY l ≤ cellY1 ∧ maxMarkmapY l ≤ cellY2) ∨
      (maxMarkmapX l ≤ cellX1 ∧ maxMarkmapX l ≤ cellX2) then marked
  else
    let cellX1 := min cellX1 (maxMarkmapX l - 1)
    let cellX2 := min cellX2 (maxMarkmapX l - 1)
    let cellY1 := min cellY1 (maxMarkmapY l - 1)
    let cellY2 := min cellY2 (maxMarkmapY l - 1)
    markCells (min cellX1 cellX2) (max cellX1 cellX2) (min cellY1 cellY2) (max cellY1 cellY2) marked

variable {l}

def InArea (a : Area l) (c : Cell) : Prop :=
  c.1 < cellsOf l.cellWidth a.width ∧ c.2 < cellsOf l.cellHeight a.height

instance (a : Area l) (c : Cell) : Decidable (InArea a c) := inferInstanceAs (Decidable (_ ∧ _))

def Meets (l : Layout) (x0 y0 x1 y1 : Int) (c : Cell) : Prop :=
  ((c.1 : Int) * l.cellWidth ≤ x1 ∧ x0 < ((c.1 : Int) + 1) * l.cellWidth) ∧
    (c.2 : Int) * l.cellHeight ≤ y1 ∧ y0 < ((c.2 : Int) + 1) * l.cellHeight

instance (x0 y0 x1 y1 : Int) (c : Cell) : Decidable (Meets l x0 y0 x1 y1 c) :=
  inferInstanceAs (Decidable (_ ∧ _))

theorem cellsOf_mono (size : Nat) {m n : Nat} (h : m ≤ n) : cellsOf size m ≤ cellsOf size n :=
  Nat.div_le_div_right (by omega)

theorem InArea.lt_max {a : Area l} {c : Cell} (h : InArea a c) :
    c.1 < maxMarkmapX l ∧ c.2 < maxMarkmapY l :=
  ⟨Nat.lt_of_lt_of_le h.1 (cellsOf_mono _ a.width_le),
    Nat.lt_of_lt_of_le h.2 (cellsOf_mono _ a.height_le)⟩

theorem marked_markCells {x0 x1 y0 y1 : Nat} {marked : Markmap} {c : Cell} (h : marked c) :
    markCells x0 x1 y0 y1 marked c := by
  simp [markCells, h]

theorem marked_invalidateRectPx {x0 y0 x1 y1 : Int} {marked : Markmap} {c : Cell}
    (h : marked c) : invalidateRectPx l x0 y0 x1 y1 marked c :=
  marked_markCells h

theorem marked_markLine {x1 y1 x2 y2 : Nat} {marked : Markmap} {c : Cell} (h : marked c) :
    markLine l x1 y1 x2 y2 marked c := by
  unfold markLine
  split
  · exact h
  · exact marked_markCells h

/-- The division is towards zero, so a place left of the area falls into its first cell. -/
theorem clamp_div_le {size : Nat} (hsize : 0 < size) {x : Int} {n : Nat} (hi : Nat)
    (h : x < ((n : Int) + 1) * size) : clampU16 (x.tdiv size) 0 hi ≤ n := by
  have hd : x.tdiv size ≤ n := by
    obtain hx | hx := Int.lt_or_le x 0
    · have h0 : 0 ≤ (-x).tdiv size := Int.tdiv_nonneg (by omega) (by omega)
      rw [Int.neg_tdiv] at h0
      omega
    · rw [Int.tdiv_eq_ediv_of_nonneg hx]
      exact Int.lt_add_one_iff.mp (Int.ediv_lt_of_lt_mul (by omega) h)
  unfold clampU16
  split <;> (try split) <;> omega

theorem le_clamp_div {size : Nat} (hsize : 0 < size) {x : Int} {n hi : Nat}
    (h : (n : Int) * size ≤ x) (hn : n ≤ hi) : n ≤ clampU16 (x.tdiv size) 0 hi := by
  have hx : 0 ≤ x := Int.le_trans (Int.mul_nonneg (by omega) (by omega)) h
  have hd : (n : Int) ≤ x.tdiv size := by
    rw [Int.tdiv_eq_ediv_of_nonneg hx]
    exact Int.le_ediv_of_mul_le (by omega) h
  unfold clampU16
  split <;> (try split) <;> omega

theorem invalidateRectPx_of_meets {a : Area l} {x0 y0 x1 y1 : Int} {c : Cell} (hx : x0 ≤ x1)
    (hy : y0 ≤ y1) (hc : InArea a c) (h : Meets l x0 y0 x1 y1 c) (marked : Markmap) :
    invalidateRectPx l x0 y0 x1 y1 marked c := by
  have hmax := hc.lt_max
  have hX0 := clamp_div_le l.cellWidth_pos (maxMarkmapX l - 1) h.1.2
  have hX1 := le_clamp_div l.cellWidth_pos h.1.1 (Nat.le_sub_one_of_lt hmax.1)
  have hY0 := clamp_div_le l.cellHeight_pos (maxMarkmapY l - 1) h.2.2
  have hY1 := le_clamp_div l.cellHeight_pos h.2.1 (Nat.le_sub_one_of_lt hmax.2)
  simp [invalidateRectPx, markCells, Int.not_lt.mpr hx, Int.not_lt.mpr hy, hX0, hX1, hY0, hY1]

end NanoVNA.PlotLayout
