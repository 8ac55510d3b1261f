import NanoVNA.CellTransfer

namespace NanoVNA.LcdLine

open NanoVNA.CellTransfer

/-- The variables of `lcd_line`, the window that is open, and how many pixels were sent into it. -/
structure Pen where
  x0 : Int
  y0 : Int
  err : Int
  win : Window
  sent : Nat

section Code

variable (lcdWidth : Nat) (color : UInt16) (x1 y1 dx dy sy : Int)

/-- A horizontal line is open up to the right border of the screen. -/
def setWindow (x0 y0 : Int) : Window := ⟨x0.toNat, y0.toNat, lcdWidth - x0.toNat, 1⟩

/-- Both tests look at the error from before the step; a new line begins with a new window. -/
def step (p : Pen) : Pen :=
  let q : Pen := if dx < p.err then { p with x0 := p.x0 + 1, err := p.err - dy } else p
  if p.err < dy then ⟨q.x0, q.y0 + sy, q.err - dx, setWindow lcdWidth q.x0 (q.y0 + sy), 0⟩
  else { q with sent := q.sent + 1 }

def lineLoop : Nat → Pen → Screen → Option Screen
  | 0, _, _ => none
  | rounds + 1, p, screen =>
    let screen := lcd.deliver p.win p.sent color screen
    if p.x0 = x1 ∧ p.y0 = y1 then some screen
    else lineLoop rounds (step lcdWidth dx dy sy p) screen

def drawFrom (x0 y0 : Int) (screen : Screen) : Option Screen :=
  let dx := -(x1 - x0)
  let dy := if y1 - y0 < 0 then -(y1 - y0) else y1 - y0
  let sy : Int := if y1 - y0 < 0 then -1 else 1
  let err := (-(if dx + dy < 0 then dx else dy)).tdiv 2
  lineLoop lcdWidth color x1 y1 dx dy sy ((x1 - x0).natAbs + (y1 - y0).natAbs + 1)
    ⟨x0, y0, err, setWindow lcdWidth x0 y0, 0⟩ screen

def lcdLine (x0 y0 x1 y1 : Int) (screen : Screen) : Option Screen :=
  if x1 < x0 then drawFrom lcdWidth color x0 y0 x1 y1 screen
  else drawFrom lcdWidth color x1 y1 x0 y0 screen

end Code

def paintPath (color : UInt16) (path : List (Nat × Nat)) (screen : Screen) : Screen := fun px py =>
  if (px, py) ∈ path then color else screen px py

/-- Within half a pixel of a point that lies a part of the way from one end to the other; the way of
a line of one point counts as one part. -/
def NearPoint (total part : Nat) (m n x y : Int) : Prop :=
  let total := max 1 total
  |2 * (x * total - part * m)| ≤ total ∧ |2 * (y * total - part * n)| ≤ total

section Line

variable (lcdWidth : Nat) (color : UInt16) (xl yl m n : Nat) (sy : Int)

/-- The error term after some rounds with steps along x and y: a flat line steps along x in every
round, a steep one along y. -/
structure Balanced (m n k a b : Nat) (err : Int) : Prop where
  flat : n < m → k = a ∧ err = m / 2 - n * a + m * b ∧ 0 ≤ err ∧ err < m
  steep : m ≤ n → k = b ∧ err = -(n / 2) - n * a + m * b ∧ -(n : Int) < err ∧ err ≤ 0

/-- The pen stands on the line, and the next pixel that is sent arrives there. -/
structure Along (k a b : Nat) (p : Pen) : Prop where
  x0 : p.x0 = xl + a
  y0 : p.y0 = yl + sy * b
  row : p.win.y = p.y0.toNat
  column : p.win.x + p.sent = p.x0.toNat
  room : p.win.w = lcdWidth - p.win.x
  balanced : Balanced m n k a b p.err

end Line

section Errors

variable {m n k a b : Nat} {err sy : Int}

theorem nearPoint_iff {total part : Nat} {x y u v : Int} (hpos : 0 < total) :
    NearPoint total part u v x y ↔
      |2 * (x * total - part * u)| ≤ total ∧ |2 * (y * total - part * v)| ≤ total := by
  rw [NearPoint, max_eq_right (Nat.succ_le_of_lt hpos)]

theorem Balanced.near (h : Balanced m n k a b err) (hsy : sy = 1 ∨ sy = -1) :
    NearPoint (max m n) k m (sy * n) a (sy * b) := by
  by_cases hflat : n < m
  · obtain ⟨rfl, herr, hlo, hhi⟩ := h.flat hflat
    rw [max_eq_left hflat.le, nearPoint_iff (by omega)]
    have hb : (b * m - k * n : Int) = err - m / 2 := by rw [herr]; ring
    have hhalf : |2 * (b * m - k * n : Int)| ≤ m := by
      rw [hb, abs_le]
      omega
    refine ⟨by simp, ?_⟩
    have hsign : (sy * b * m - k * (sy * n) : Int) = sy * (b * m - k * n) := by ring
    rw [hsign]
    rcases hsy with rfl | rfl
    · rwa [one_mul]
    · rwa [neg_one_mul, mul_neg, abs_neg]
  · obtain ⟨rfl, herr, hlo, hhi⟩ := h.steep (not_lt.mp hflat)
    rw [max_eq_right (not_lt.mp hflat), nearPoint_iff (by omega)]
    have ha : (a * n - k * m : Int) = -(n / 2) - err := by rw [herr]; ring
    refine ⟨?_, ?_⟩
    · rw [ha, abs_le]
      omega
    · have hsame : (sy * k * n - k * (sy * n) : Int) = 0 := by ring
      rw [hsame]
      simp

theorem Balanced.le (h : Balanced m n k a b err) (hk : k ≤ max m n) : a ≤ m ∧ b ≤ n := by
  by_cases hflat : n < m
  · obtain ⟨rfl, herr, hlo, hhi⟩ := h.flat hflat
    rw [max_eq_left hflat.le] at hk
    have hmul : (n * k : Int) ≤ n * m := by exact_mod_cast Nat.mul_le_mul_left n hk
    refine ⟨hk, ?_⟩
    by_contra hpast
    have hover : (m * (n + 1) : Int) ≤ m * b := by
      exact_mod_cast Nat.mul_le_mul_left m (not_le.mp hpast)
    rw [mul_add, mul_one, mul_comm (m : Int) n] at hover
    omega
  · obtain ⟨rfl, herr, hlo, hhi⟩ := h.steep (not_lt.mp hflat)
    rw [max_eq_right (not_lt.mp hflat)] at hk
    have hmul : (m * k : Int) ≤ m * n := by exact_mod_cast Nat.mul_le_mul_left m hk
    refine ⟨?_, hk⟩
    by_contra hpast
    have hover : (n * (m + 1) : Int) ≤ n * a := by
      exact_mod_cast Nat.mul_le_mul_left n (not_le.mp hpast)
    rw [mul_add, mul_one, mul_comm (n : Int) m] at hover
    omega

/-- After as many rounds as the longer side has pixels the pen is at the end, and not before. -/
theorem Balanced.last_iff (h : Balanced m n k a b err) (hk : k ≤ max m n) :
    a = m ∧ b = n ↔ k = max m n := by
  obtain ⟨ham, hbn⟩ := h.le hk
  by_cases hflat : n < m
  · obtain ⟨rfl, herr, hlo, hhi⟩ := h.flat hflat
    rw [max_eq_left hflat.le]
    refine ⟨fun hend => hend.1, fun hend => ⟨hend, ?_⟩⟩
    subst hend
    by_contra hne
    have hshort : (k * (b + 1) : Int) ≤ k * n := by
      exact_mod_cast Nat.mul_le_mul_left k (lt_of_le_of_ne hbn hne)
    rw [mul_add, mul_one, mul_comm (k : Int) n] at hshort
    omega
  · obtain ⟨rfl, herr, hlo, hhi⟩ := h.steep (not_lt.mp hflat)
    rw [max_eq_right (not_lt.mp hflat)]
    refine ⟨fun hend => hend.2, fun hend => ⟨?_, hend⟩⟩
    subst hend
    by_contra hne
    have hshort : (k * (a + 1) : Int) ≤ k * m := by
      exact_mod_cast Nat.mul_le_mul_left k (lt_of_le_of_ne ham hne)
    rw [mul_add, mul_one, mul_comm (k : Int) m] at hshort
    omega

theorem Balanced.step (h : Balanced m n k a b err) :
    Balanced m n (k + 1) (if -(m : Int) < err then a + 1 else a) (if err < n then b + 1 else b)
      ((if -(m : Int) < err then err - n else err) + if err < n then (m : Int) else 0) := by
  refine ⟨fun hflat => ?_, fun hsteep => ?_⟩
  · obtain ⟨rfl, herr, hlo, hhi⟩ := h.flat hflat
    have hx : -(m : Int) < err := by omega
    rw [if_pos hx, if_pos hx]
    refine ⟨rfl, ?_, ?_⟩
    · split_ifs <;> rw [herr] <;> push_cast <;> ring
    · split_ifs <;> omega
  · obtain ⟨rfl, herr, hlo, hhi⟩ := h.steep hsteep
    have hy : err < n := by omega
    rw [if_pos hy, if_pos hy]
    refine ⟨rfl, ?_, ?_⟩
    · split_ifs <;> rw [herr] <;> push_cast <;> ring
    · split_ifs <;> omega

end Errors

section Line

variable {lcdWidth : Nat} (color : UInt16) {xl yl m n : Nat} {sy : Int} {k a b : Nat} {p : Pen}

theorem Along.step (h : Along lcdWidth xl yl m n sy k a b p) (hk : k < max m n) :
    Along lcdWidth xl yl m n sy (k + 1) (if -(m : Int) < p.err then a + 1 else a)
      (if p.err < n then b + 1 else b) (step lcdWidth (-m) n sy p) := by
  have hb := h.balanced.step
  have hx0 := h.x0
  have hy0 := h.y0
  have hcolumn := h.column
  unfold LcdLine.step
  by_cases hx : -(m : Int) < p.err
  · by_cases hy : p.err < n
    · simp only [hx, hy, if_true] at hb ⊢
      refine ⟨by simp [hx0]; ring, by simp [hy0]; ring, rfl, rfl, rfl, ?_⟩
      simpa using hb
    · simp only [hx, hy, if_true, if_false] at hb ⊢
      refine ⟨by simp [hx0]; ring, hy0, h.row, ?_, h.room, by simpa using hb⟩
      dsimp only
      omega
  · have hy : p.err < n := by omega
    simp only [hx, hy, if_true, if_false] at hb ⊢
    refine ⟨hx0, by simp [hy0]; ring, rfl, rfl, rfl, by simpa using hb⟩

theorem paintPath_cons (q : Nat × Nat) (path : List (Nat × Nat)) (screen : Screen) :
    paintPath color (q :: path) screen = paintPath color path (paintPath color [q] screen) := by
  funext px py
  by_cases hlater : (px, py) ∈ path
  · simp [paintPath, hlater]
  · simp [paintPath, hlater]

theorem deliver_at {win : Window} {sent x y : Nat} (hcolumn : win.x + sent = x) (hrow : win.y = y)
    (hroom : win.w = lcdWidth - win.x) (hx : x < lcdWidth) (screen : Screen) :
    lcd.deliver win sent color screen = paintPath color [(x, y)] screen := by
  have hlt : sent < win.w := by omega
  funext px py
  simp only [lcd, Nat.mod_eq_of_lt hlt, Nat.div_eq_of_lt hlt, hcolumn, hrow, Nat.add_zero,
    paintPath, List.mem_singleton, Prod.mk.injEq, Function.update_apply]
  by_cases hpx : px = x
  · subst hpx
    simp [Function.update_apply]
  · simp [hpx]

variable (hsy : sy = 1 ∨ sy = -1) (hright : xl + m < lcdWidth) (htop : 0 ≤ yl + sy * n)

include hsy hright htop

theorem lineLoop_path {rounds : Nat} (h : Along lcdWidth xl yl m n sy k a b p)
    (hk : k ≤ max m n) (hrounds : max m n - k < rounds) (screen : Screen) :
    ∃ path : List (Nat × Nat),
      lineLoop lcdWidth color (xl + m) (yl + sy * n) (-m) n sy rounds p screen =
        some (paintPath color path screen) ∧ path.length = max m n - k + 1 ∧
      ∀ j (hj : j < path.length),
        NearPoint (max m n) (k + j) m (sy * n) (path[j].1 - xl) (path[j].2 - yl) := by
  induction rounds generalizing k a b p screen with
  | zero => exact absurd hrounds (Nat.not_lt_zero _)
  | succ rounds ih =>
    obtain ⟨ham, hbn⟩ := h.balanced.le hk
    have hx0 := h.x0
    have hy0 := h.y0
    have hy : 0 ≤ p.y0 := by
      rcases hsy with rfl | rfl <;> omega
    have hplace : NearPoint (max m n) k m (sy * n) ((xl + a : Nat) - xl) (p.y0.toNat - yl) := by
      have hnear := h.balanced.near hsy
      rwa [Int.toNat_of_nonneg hy, hy0, add_sub_cancel_left, Nat.cast_add, add_sub_cancel_left]
    have hend : p.x0 = xl + m ∧ p.y0 = yl + sy * n ↔ k = max m n := by
      rw [← h.balanced.last_iff hk, hx0, hy0]
      rcases hsy with rfl | rfl <;> omega
    have hcolumn : p.win.x + p.sent = xl + a := by
      have := h.column
      omega
    rw [lineLoop, deliver_at color hcolumn h.row h.room (by omega)]
    by_cases hlast : k = max m n
    · refine ⟨[(xl + a, p.y0.toNat)], if_pos (hend.mpr hlast), by simp [hlast], fun j hj => ?_⟩
      obtain rfl : j = 0 := Nat.lt_one_iff.mp hj
      exact hplace
    · obtain ⟨path, hpath, hlength, hnear⟩ := ih (h.step (by omega)) (by omega) (by omega)
        (paintPath color [(xl + a, p.y0.toNat)] screen)
      refine ⟨(xl + a, p.y0.toNat) :: path, ?_, ?_, fun j hj => ?_⟩
      · rw [if_neg (mt hend.mp hlast), hpath, ← paintPath_cons]
      · rw [List.length_cons, hlength]
        omega
      · cases j with
        | zero => exact hplace
        | succ j =>
          have hrest := hnear j (by simpa using hj)
          rwa [Nat.add_right_comm] at hrest

end Line

section Ends

variable {lcdWidth : Nat} (color : UInt16)

theorem start_err (m n : Nat) :
    (-(if -(m : Int) + n < 0 then -(m : Int) else n)).tdiv 2 =
      if n < m then (m / 2 : Int) else -(n / 2 : Int) := by
  by_cases hflat : n < m
  · rw [if_pos (by omega), if_pos hflat, neg_neg, Int.tdiv_eq_ediv_of_nonneg (by omega)]
  · rw [if_neg (by omega), if_neg hflat, Int.neg_tdiv, Int.tdiv_eq_ediv_of_nonneg (by omega)]

theorem balanced_start {m n : Nat} (hpos : 0 < max m n) :
    Balanced m n 0 0 0 (if n < m then (m / 2 : Int) else -(n / 2 : Int)) := by
  refine ⟨fun hflat => ?_, fun hsteep => ?_⟩
  · rw [if_pos hflat]
    exact ⟨rfl, by simp, by omega, by omega⟩
  · rw [if_neg (not_lt.mpr hsteep)]
    exact ⟨rfl, by simp, by omega, by omega⟩

theorem drawFrom_path {xl yl xr yr : Nat} (hle : xl ≤ xr) (hright : xr < lcdWidth)
    (screen : Screen) :
    ∃ path : List (Nat × Nat),
      drawFrom lcdWidth color xr yr xl yl screen = some (paintPath color path screen) ∧
      path.length = max (xr - xl) (yr - yl : Int).natAbs + 1 ∧
      ∀ j (hj : j < path.length), NearPoint (max (xr - xl) (yr - yl : Int).natAbs) j (xr - xl)
        (yr - yl) (path[j].1 - xl) (path[j].2 - yl) := by
  obtain ⟨m, rfl⟩ := Nat.exists_eq_add_of_le hle
  generalize hn : (yr - yl : Int).natAbs = n
  generalize hsign : (if (yr - yl : Int) < 0 then -1 else 1 : Int) = sy
  have hsy : sy = 1 ∨ sy = -1 := by
    rw [← hsign]
    split <;> simp
  have hdy : (if (yr - yl : Int) < 0 then -(yr - yl : Int) else yr - yl) = n := by
    split <;> omega
  have hyr : (yr : Int) = yl + sy * n := by
    rw [← hsign]
    split <;> omega
  have hdx : ((xl + m : Nat) : Int) - xl = m := by
    rw [Nat.cast_add, add_sub_cancel_left]
  have hrounds : (m : Int).natAbs + n + 1 = m + n + 1 := by rw [Int.natAbs_natCast]
  rw [drawFrom, hsign, hdy, hn, hdx, start_err, hrounds, Nat.add_sub_cancel_left, Nat.cast_add]
  have hyl : (yr : Int) - yl = sy * n := by rw [hyr, add_sub_cancel_left]
  rw [hyl]
  by_cases hpos : 0 < max m n
  · have hstart : Along lcdWidth xl yl m n sy 0 0 0
        ⟨xl, yl, if n < m then (m / 2 : Int) else -(n / 2 : Int), setWindow lcdWidth xl yl, 0⟩ :=
      ⟨by simp, by simp, rfl, rfl, rfl, balanced_start hpos⟩
    obtain ⟨path, hpath, hlength, hnear⟩ := lineLoop_path color hsy hright
      (by rw [← hyr]; exact Int.natCast_nonneg yr) hstart (Nat.zero_le _)
      (by omega : max m n - 0 < m + n + 1) screen
    rw [hyr]
    refine ⟨path, hpath, hlength, fun j hj => ?_⟩
    have hplace := hnear j hj
    rwa [Nat.zero_add] at hplace
  · obtain rfl : m = 0 := by omega
    obtain rfl : n = 0 := by omega
    have hsent := @deliver_at lcdWidth color (setWindow lcdWidth xl yl) 0 xl yl rfl rfl rfl hright
      screen
    refine ⟨[(xl, yl)], ?_, rfl, fun j hj => ?_⟩
    · rw [lineLoop, hsent, if_pos (by simp [hyr])]
    · obtain rfl : j = 0 := Nat.lt_one_iff.mp hj
      simp [NearPoint]

/-- A line is drawn as a path of as many pixels as its longer side has, from its left end to its
right end, each within half a pixel of its part of the line; nothing else changes. -/
theorem lcdLine_path {x0 y0 x1 y1 : Nat} (hx0 : x0 < lcdWidth) (hx1 : x1 < lcdWidth)
    (screen : Screen) :
    ∃ path : List (Nat × Nat),
      lcdLine lcdWidth color x0 y0 x1 y1 screen = some (paintPath color path screen) ∧
      path.length = max (x1 - x0 : Int).natAbs (y1 - y0 : Int).natAbs + 1 ∧
      ∀ j (hj : j < path.length),
        let left := if x1 < x0 then (x1, y1) else (x0, y0)
        let right := if x1 < x0 then (x0, y0) else (x1, y1)
        NearPoint (max (x1 - x0 : Int).natAbs (y1 - y0 : Int).natAbs) j (right.1 - left.1)
          (right.2 - left.2) (path[j].1 - left.1) (path[j].2 - left.2) := by
  by_cases hswap : x1 < x0
  · have htotal : max (x1 - x0 : Int).natAbs (y1 - y0 : Int).natAbs =
        max (x0 - x1) (y0 - y1 : Int).natAbs := by omega
    have hcall : lcdLine lcdWidth color x0 y0 x1 y1 screen =
        drawFrom lcdWidth color x0 y0 x1 y1 screen := if_pos (by omega)
    rw [htotal, hcall, if_pos hswap, if_pos hswap]
    exact drawFrom_path color hswap.le hx0 screen
  · have htotal : max (x1 - x0 : Int).natAbs (y1 - y0 : Int).natAbs =
        max (x1 - x0) (y1 - y0 : Int).natAbs := by omega
    have hcall : lcdLine lcdWidth color x0 y0 x1 y1 screen =
        drawFrom lcdWidth color x1 y1 x0 y0 screen := if_neg (by omega)
    rw [htotal, hcall, if_neg hswap, if_neg hswap]
    exact drawFrom_path color (not_lt.mp hswap) hx1 screen

theorem lcdLine_path_steep : ∃ path : List (Nat × Nat),
    lcdLine 320 7 12 3 10 8 (fun _ _ => 0) = some (paintPath 7 path fun _ _ => 0) ∧
      path.length = 6 :=
  (lcdLine_path 7 (by decide : 12 < 320) (by decide : 10 < 320) fun _ _ => 0).imp
    fun _ h => ⟨h.1, h.2.1⟩

end Ends

end NanoVNA.LcdLine
