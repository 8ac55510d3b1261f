import NanoVNA.ChartPositions
import NanoVNA.SweepDivisions

namespace NanoVNA.GridLayers

open NanoVNA.DeviceState NanoVNA.PlotLayout NanoVNA.ChartPositions NanoVNA.SweepDivisions
open NanoVNA.TraceCells (RenderCellCtx cellIndex)

/-- `unspecified` stands for the test of a column that divides by a `grid_width` of zero. -/
structure RectangularGrid where
  board : Board
  lines : GridLines
  dotted : Bool
  unspecified : Nat → Bool

inductive RoundGrid
  | smith
  | admittance
  | polar

inductive Grid
  | rectangular (g : RectangularGrid)
  | round (board : Board) (g : RoundGrid)

section Code

def rectangularGridX (g : RectangularGrid) (x : Nat) : Bool :=
  (checkedRectangularGridX g.board g.lines x).getD (g.unspecified x)

def rectangularGridY (g : RectangularGrid) (y : Nat) : Bool :=
  let height := (height (layoutOf g.board)).toNat
  decide (y ≤ height ∧ y % (height / 8) = 0)

/-- Offsets are from the centre of the chart, as in `smithGridPixel`. -/
def polarGridPixel (r x y : Int) : Bool :=
  let distance := x * x + y * y
  let radiusSq := r * r
  if radiusSq + r < distance then false
  else if radiusSq - r < distance then true
  else if x = 0 ∨ y = 0 then true
  else if distance < radiusSq / 25 - r / 5 then false
  else if distance < radiusSq / 25 + r / 5 then true
  else if distance < radiusSq * 4 / 25 - r * 2 / 5 then false
  else if distance < radiusSq * 4 / 25 + r * 2 / 5 then true
  else if x = y ∨ x = -y then true
  else if distance < radiusSq * 9 / 25 - r * 3 / 5 then false
  else if distance < radiusSq * 9 / 25 + r * 3 / 5 then true
  else if distance < radiusSq * 16 / 25 - r * 4 / 5 then false
  else distance < radiusSq * 16 / 25 + r * 4 / 5

/-- The admittance chart is the other one in a mirror. -/
def roundGridPixel (r : Int) : RoundGrid → Int → Int → Bool
  | .smith, x, y => smithGridPixel r x y
  | .admittance, x, y => smithGridPixel r (-x) y
  | .polar, x, y => polarGridPixel r x y

variable (rcx : RenderCellCtx) (c : UInt16)

def stepsTo (step bound : Nat) : List Nat := List.range' 0 ((bound + step - 1) / step) step

def RectangularGrid.step (g : RectangularGrid) : Nat := if g.dotted then 2 else 1

def renderRectangularGridLayer (g : RectangularGrid) : List (Nat × UInt16) :=
  ((List.range rcx.w).filter fun x => rectangularGridX g (rcx.x0 + x)).flatMap (fun x =>
      (stepsTo g.step rcx.h).map fun y => (cellIndex rcx x y, c)) ++
    ((List.range rcx.h).filter fun y => rectangularGridY g (rcx.y0 + y)).flatMap fun y =>
      (stepsTo g.step rcx.w).map fun x => (cellIndex rcx x y, c)

def renderRoundGridCell (board : Board) (g : RoundGrid) : List (Nat × UInt16) :=
  let l := layoutOf board
  (List.range rcx.h).flatMap fun (y : Nat) =>
    ((List.range rcx.w).filter fun (x : Nat) =>
      roundGridPixel (pRadius l) g (rcx.x0 + x - pCenterX l) (rcx.y0 + y - pCenterY l)).map
        fun (x : Nat) => (cellIndex rcx x y, c)

def renderGrid : Grid → List (Nat × UInt16)
  | .rectangular g => renderRectangularGridLayer rcx c g
  | .round board g => renderRoundGridCell rcx c board g

end Code

/-- The grid as a picture: its lines have a pixel at every place, or at every other one. -/
def Grid.shows : Grid → Int → Int → Bool
  | .rectangular g, x, y =>
    (rectangularGridX g x.toNat && decide (g.step ∣ y.toNat)) ||
      (rectangularGridY g y.toNat && decide (g.step ∣ x.toNat))
  | .round board g, x, y =>
    roundGridPixel (pRadius (layoutOf board)) g (x - pCenterX (layoutOf board))
      (y - pCenterY (layoutOf board))

theorem mem_stepsTo {step bound n : Nat} (hstep : 0 < step) :
    n ∈ stepsTo step bound ↔ n < bound ∧ step ∣ n := by
  rw [stepsTo, List.mem_range']
  constructor
  · rintro ⟨i, hi, rfl⟩
    rw [Nat.lt_div_iff_mul_lt hstep, Nat.mul_comm] at hi
    exact ⟨by omega, by rw [Nat.zero_add]; exact Nat.dvd_mul_right step i⟩
  · rintro ⟨hlt, i, rfl⟩
    refine ⟨i, ?_, (Nat.zero_add _).symm⟩
    rw [Nat.lt_div_iff_mul_lt hstep, Nat.mul_comm]
    omega

theorem step_cases (g : RectangularGrid) : g.step = 2 ∨ g.step = 1 := by
  cases h : g.dotted <;> simp [RectangularGrid.step, h]

theorem step_dvd (g : RectangularGrid) {a : Nat} (h : 2 ∣ a) : g.step ∣ a := by
  rcases step_cases g with hstep | hstep
  · rwa [hstep]
  · rw [hstep]
    exact one_dvd a

variable {rcx : RenderCellCtx} {c : UInt16}

theorem mem_renderRectangularGridLayer (g : RectangularGrid) {p : Nat × UInt16} :
    p ∈ renderRectangularGridLayer rcx c g ↔ ∃ px < rcx.w, ∃ py < rcx.h,
      (rectangularGridX g (rcx.x0 + px) = true ∧ g.step ∣ py ∨
        rectangularGridY g (rcx.y0 + py) = true ∧ g.step ∣ px) ∧
        p = (cellIndex rcx px py, c) := by
  have hstep : 0 < g.step := by
    rcases step_cases g with h | h <;> rw [h] <;> decide
  rw [renderRectangularGridLayer, List.mem_append]
  simp only [List.mem_flatMap, List.mem_filter, List.mem_range, List.mem_map, mem_stepsTo hstep]
  constructor
  · rintro (⟨px, ⟨hpx, hgrid⟩, py, ⟨hpy, hdots⟩, rfl⟩ | ⟨py, ⟨hpy, hgrid⟩, px, ⟨hpx, hdots⟩, rfl⟩)
    · exact ⟨px, hpx, py, hpy, Or.inl ⟨hgrid, hdots⟩, rfl⟩
    · exact ⟨px, hpx, py, hpy, Or.inr ⟨hgrid, hdots⟩, rfl⟩
  · rintro ⟨px, hpx, py, hpy, ⟨hgrid, hdots⟩ | ⟨hgrid, hdots⟩, rfl⟩
    · exact Or.inl ⟨px, ⟨hpx, hgrid⟩, py, ⟨hpy, hdots⟩, rfl⟩
    · exact Or.inr ⟨py, ⟨hpy, hgrid⟩, px, ⟨hpx, hdots⟩, rfl⟩

/-- A cell that starts at even places gets of a grid what lies in the cell; in any other cell the
dots of a line would not continue those of the next cell. -/
theorem mem_renderGrid (hx : 2 ∣ rcx.x0) (hy : 2 ∣ rcx.y0) (g : Grid) {p : Nat × UInt16} :
    p ∈ renderGrid rcx c g ↔ ∃ px < rcx.w, ∃ py < rcx.h,
      g.shows (rcx.x0 + px) (rcx.y0 + py) = true ∧ p = (cellIndex rcx px py, c) := by
  cases g with
  | rectangular g =>
    have hcast (a b : Nat) : ((a : Int) + b).toNat = a + b := by omega
    have hdvdX (px : Nat) : g.step ∣ rcx.x0 + px ↔ g.step ∣ px :=
      Nat.dvd_add_right (step_dvd g hx)
    have hdvdY (py : Nat) : g.step ∣ rcx.y0 + py ↔ g.step ∣ py :=
      Nat.dvd_add_right (step_dvd g hy)
    rw [renderGrid, mem_renderRectangularGridLayer]
    simp only [Grid.shows, hcast, Bool.or_eq_true, Bool.and_eq_true, decide_eq_true_eq, hdvdX,
      hdvdY]
  | round board g =>
    simp only [renderGrid, renderRoundGridCell, List.mem_flatMap, List.mem_map, List.mem_filter,
      List.mem_range, Grid.shows]
    constructor
    · rintro ⟨py, hpy, px, ⟨hpx, hpixel⟩, rfl⟩
      exact ⟨px, hpx, py, hpy, hpixel, rfl⟩
    · rintro ⟨px, hpx, py, hpy, hpixel, rfl⟩
      exact ⟨py, hpy, px, ⟨hpx, hpixel⟩, rfl⟩

end NanoVNA.GridLayers
