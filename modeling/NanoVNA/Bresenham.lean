import Mathlib.Tactic.Linarith
import Mathlib.Tactic.Ring

namespace NanoVNA.Bresenham

structure Pen where
  x : Int
  y : Int
  err : Int

def direction (d : Int) : Int := if 0 < d then 1 else -1

/-- Both tests look at the error term from before the step. -/
def step (dx dy : Nat) (sx sy : Int) (p : Pen) : Pen :=
  let q : Pen := if -(dy : Int) < 2 * p.err then ⟨p.x + sx, p.y, p.err - dy⟩ else p
  if 2 * p.err < dx then ⟨q.x, q.y + sy, q.err + dx⟩ else q

def walk (dx dy : Nat) (sx sy x1 y1 : Int) : Nat → Pen → List (Int × Int)
  | 0, p => [(p.x, p.y)]
  | steps + 1, p =>
    (p.x, p.y) ::
      if p.x = x1 ∧ p.y = y1 then [] else walk dx dy sx sy x1 y1 steps (step dx dy sx sy p)

def line (x0 y0 x1 y1 : Int) : List (Int × Int) :=
  let dx := (x1 - x0).natAbs
  let dy := (y1 - y0).natAbs
  walk dx dy (direction (x1 - x0)) (direction (y1 - y0)) x1 y1 (dx + dy) ⟨x0, y0, dx - dy⟩

example : line 0 0 3 1 = [(0, 0), (1, 0), (2, 1), (3, 1)] := by decide

section Walk

variable (x0 y0 : Int) (dx dy : Nat) (sx sy : Int)

/-- The pen after `nx` steps along x and `ny` along y. -/
structure On (p : Pen) (nx ny : Nat) : Prop where
  x : p.x = x0 + sx * nx
  y : p.y = y0 + sy * ny
  err : p.err = dx * (ny + 1) - dy * (nx + 1)
  along : nx ≤ dx
  across : ny ≤ dy

variable {x0 y0 dx dy sx sy} {p : Pen} {nx ny : Nat}

theorem On.x_left (h : On x0 y0 dx dy sx sy p nx ny) (hend : nx ≠ dx ∨ ny ≠ dy)
    (htest : -(dy : Int) < 2 * p.err) : nx < dx := by
  obtain hlt | rfl := Nat.lt_or_eq_of_le h.along
  · exact hlt
  · have hy : ny + 1 ≤ dy := Nat.lt_of_le_of_ne h.across (hend.resolve_left fun hne => hne rfl)
    have hmul : (nx : Int) * (ny + 1) ≤ nx * dy :=
      Int.mul_le_mul_of_nonneg_left (by exact_mod_cast hy) (Int.natCast_nonneg nx)
    have herr := h.err
    rw [Int.mul_add (dy : Int) nx 1, Int.mul_one, Int.mul_comm (dy : Int) nx] at herr
    omega

theorem On.y_left (h : On x0 y0 dx dy sx sy p nx ny) (hend : nx ≠ dx ∨ ny ≠ dy)
    (htest : 2 * p.err < dx) : ny < dy := by
  obtain hlt | rfl := Nat.lt_or_eq_of_le h.across
  · exact hlt
  · have hx : nx + 1 ≤ dx := Nat.lt_of_le_of_ne h.along (hend.resolve_right fun hne => hne rfl)
    have hmul : (ny : Int) * (nx + 1) ≤ ny * dx :=
      Int.mul_le_mul_of_nonneg_left (by exact_mod_cast hx) (Int.natCast_nonneg ny)
    have herr := h.err
    rw [Int.mul_add (dx : Int) ny 1, Int.mul_one, Int.mul_comm (dx : Int) ny] at herr
    omega

theorem On.moveX (h : On x0 y0 dx dy sx sy p nx ny) (hlt : nx < dx) :
    On x0 y0 dx dy sx sy ⟨p.x + sx, p.y, p.err - dy⟩ (nx + 1) ny where
  x := by
    rw [h.x]
    push_cast
    ring
  y := h.y
  err := by
    rw [h.err]
    push_cast
    ring
  along := hlt
  across := h.across

theorem On.moveY (h : On x0 y0 dx dy sx sy p nx ny) (hlt : ny < dy) :
    On x0 y0 dx dy sx sy ⟨p.x, p.y + sy, p.err + dx⟩ nx (ny + 1) where
  x := h.x
  y := by
    rw [h.y]
    push_cast
    ring
  err := by
    rw [h.err]
    push_cast
    ring
  along := h.along
  across := hlt

/-- Before the end one of the tests asks for a step, and no step passes the end. -/
theorem On.step (h : On x0 y0 dx dy sx sy p nx ny) (hend : nx ≠ dx ∨ ny ≠ dy) :
    ∃ nx' ny', On x0 y0 dx dy sx sy (step dx dy sx sy p) nx' ny' ∧ nx + ny < nx' + ny' := by
  have hxleft := h.x_left hend
  have hyleft := h.y_left hend
  unfold Bresenham.step
  by_cases hxtest : -(dy : Int) < 2 * p.err
  · have hx := h.moveX (hxleft hxtest)
    by_cases hytest : 2 * p.err < dx
    · rw [if_pos hxtest, if_pos hytest]
      exact ⟨nx + 1, ny + 1, hx.moveY (hyleft hytest), by omega⟩
    · rw [if_pos hxtest, if_neg hytest]
      exact ⟨nx + 1, ny, hx, by omega⟩
  · by_cases hytest : 2 * p.err < dx
    · rw [if_neg hxtest, if_pos hytest]
      exact ⟨nx, ny + 1, h.moveY (hyleft hytest), by omega⟩
    · have halong := h.along
      have hacross := h.across
      omega

variable {x1 y1 : Int}

theorem On.mem_walk {steps : Nat} (h : On x0 y0 dx dy sx sy p nx ny)
    (hx1 : x1 = x0 + sx * dx) (hy1 : y1 = y0 + sy * dy) {q : Int × Int}
    (hq : q ∈ walk dx dy sx sy x1 y1 steps p) :
    ∃ kx ky : Nat, q = (x0 + sx * kx, y0 + sy * ky) ∧ kx ≤ dx ∧ ky ≤ dy := by
  induction steps generalizing p nx ny with
  | zero =>
    rw [walk, List.mem_singleton] at hq
    exact ⟨nx, ny, by rw [hq, h.x, h.y], h.along, h.across⟩
  | succ steps ih =>
    rw [walk, List.mem_cons] at hq
    obtain rfl | hq := hq
    · exact ⟨nx, ny, by rw [h.x, h.y], h.along, h.across⟩
    · split at hq
      · exact absurd hq List.not_mem_nil
      · rename_i hgoon
        have hend : nx ≠ dx ∨ ny ≠ dy := by
          by_cases hnx : nx = dx
          · refine .inr fun hny => hgoon ⟨?_, ?_⟩
            · rw [h.x, hx1, hnx]
            · rw [h.y, hy1, hny]
          · exact .inl hnx
        obtain ⟨nx', ny', hstep, -⟩ := h.step hend
        exact ih hstep hq

theorem On.getLast_walk {steps : Nat} (h : On x0 y0 dx dy sx sy p nx ny)
    (hx1 : x1 = x0 + sx * dx) (hy1 : y1 = y0 + sy * dy) (hsteps : dx + dy ≤ steps + (nx + ny)) :
    (walk dx dy sx sy x1 y1 steps p).getLast? = some (x1, y1) := by
  induction steps generalizing p nx ny with
  | zero =>
    have halong := h.along
    have hacross := h.across
    have hnx : nx = dx := by omega
    have hny : ny = dy := by omega
    rw [walk, List.getLast?_singleton, h.x, h.y, hx1, hy1, hnx, hny]
  | succ steps ih =>
    rw [walk]
    split
    · rename_i hlast
      rw [List.getLast?_singleton, hlast.1, hlast.2]
    · rename_i hgoon
      have hend : nx ≠ dx ∨ ny ≠ dy := by
        by_cases hnx : nx = dx
        · refine .inr fun hny => hgoon ⟨?_, ?_⟩
          · rw [h.x, hx1, hnx]
          · rw [h.y, hy1, hny]
        · exact .inl hnx
      obtain ⟨nx', ny', hstep, hprogress⟩ := h.step hend
      rw [List.getLast?_cons, ih hstep (by omega)]
      rfl

end Walk

section Line

variable (x0 y0 x1 y1 : Int)

theorem direction_mul_natAbs (d : Int) : direction d * d.natAbs = d := by
  unfold direction
  split <;> omega

theorem on_start (sx sy : Int) (dx dy : Nat) : On x0 y0 dx dy sx sy ⟨x0, y0, dx - dy⟩ 0 0 where
  x := by simp
  y := by simp
  err := by simp
  along := Nat.zero_le _
  across := Nat.zero_le _

theorem end_eq (a b : Int) : b = a + direction (b - a) * (b - a).natAbs := by
  rw [direction_mul_natAbs]
  omega

theorem between_ends (a b : Int) {k : Nat} (hk : k ≤ (b - a).natAbs) :
    min a b ≤ a + direction (b - a) * k ∧ a + direction (b - a) * k ≤ max a b := by
  unfold direction
  split <;> omega

theorem line_box {q : Int × Int} (hq : q ∈ line x0 y0 x1 y1) :
    (min x0 x1 ≤ q.1 ∧ q.1 ≤ max x0 x1) ∧ min y0 y1 ≤ q.2 ∧ q.2 ≤ max y0 y1 := by
  obtain ⟨kx, ky, rfl, hkx, hky⟩ := (on_start x0 y0 _ _ _ _).mem_walk (end_eq x0 x1) (end_eq y0 y1) hq
  exact ⟨between_ends x0 x1 hkx, between_ends y0 y1 hky⟩

theorem line_last : (line x0 y0 x1 y1).getLast? = some (x1, y1) :=
  (on_start x0 y0 _ _ _ _).getLast_walk (end_eq x0 x1) (end_eq y0 y1) (Nat.le_refl _)

end Line

end NanoVNA.Bresenham
