import NanoVNA.SineTable

namespace NanoVNA.SinCosAccuracy

open NanoVNA.DeviceState NanoVNA.SinCosTable NanoVNA.SineTable

section Interpolation

noncomputable def parabola (t y0 y1 y2 : ℝ) : ℝ :=
  y0 + t * (y1 - y0) + t * (t - 1) * (y2 - 2 * y1 + y0) * (1 / 2)

theorem cast_quadratic (t y0 y1 y2 : ℚ) : (quadratic t y0 y1 y2 : ℝ) = parabola t y0 y1 y2 := by
  rw [quadratic, parabola]
  push_cast
  ring

variable {h t : ℝ}

theorem cos_near {x : ℝ} (hpos : 0 ≤ x) (hone : x ≤ 1) :
    |Real.cos x - (1 - x ^ 2 / 2)| ≤ 5 / 96 * x ^ 4 := by
  have hbound := @Real.cos_bound x (by rw [abs_of_nonneg hpos]; exact hone)
  rw [abs_of_nonneg hpos] at hbound
  linarith

theorem sin_near {x : ℝ} (hpos : 0 ≤ x) (hone : x ≤ 1) :
    |Real.sin x - (x - x ^ 3 / 6)| ≤ x ^ 5 / 100 := by
  have hbound := @Real.sin_bound x (by rw [abs_of_nonneg hpos]; exact hone)
  rwa [abs_of_nonneg hpos] at hbound

theorem even_error {s : ℝ} (hh : 0 ≤ h) (hone : h ≤ 1) (hs : 0 ≤ s) (hs1 : s ≤ 1) :
    |1 + s ^ 2 * (Real.cos h - 1) - Real.cos (s * h)| ≤ h ^ 4 / 9 := by
  have hsh : s * h ≤ 1 := mul_le_one₀ hs1 hh hone
  have hwhole := abs_le.mp (cos_near hh hone)
  have hpart := abs_le.mp (cos_near (mul_nonneg hs hh) hsh)
  have hs2 : s ^ 2 ≤ 1 := pow_le_one₀ hs hs1
  have hs4 : (s * h) ^ 4 ≤ h ^ 4 := pow_le_pow_left₀ (mul_nonneg hs hh)
    (mul_le_of_le_one_left hh hs1) 4
  have hupper := mul_le_mul_of_nonneg_left hwhole.2 (sq_nonneg s)
  have hlower := mul_le_mul_of_nonneg_left hwhole.1 (sq_nonneg s)
  have hshrink : s ^ 2 * (5 / 96 * h ^ 4) ≤ 5 / 96 * h ^ 4 :=
    mul_le_of_le_one_left (by positivity) hs2
  rw [abs_le]
  constructor <;> nlinarith [hupper, hlower, hshrink, hpart.1, hpart.2, hs4]

theorem odd_error {s : ℝ} (hh : 0 ≤ h) (hone : h ≤ 1) (hs : 0 ≤ s) (hs1 : s ≤ 1) :
    |Real.sin (s * h) - s * Real.sin h| ≤ h ^ 3 / 6 + h ^ 5 / 50 := by
  have hsh : s * h ≤ 1 := mul_le_one₀ hs1 hh hone
  have hwhole := abs_le.mp (sin_near hh hone)
  have hpart := abs_le.mp (sin_near (mul_nonneg hs hh) hsh)
  have hs5 : (s * h) ^ 5 ≤ h ^ 5 := pow_le_pow_left₀ (mul_nonneg hs hh)
    (mul_le_of_le_one_left hh hs1) 5
  have hupper := mul_le_mul_of_nonneg_left hwhole.2 hs
  have hlower := mul_le_mul_of_nonneg_left hwhole.1 hs
  have hshrink : s * (h ^ 5 / 100) ≤ h ^ 5 / 100 := mul_le_of_le_one_left (by positivity) hs1
  have hcube : 0 ≤ s * h ^ 3 - (s * h) ^ 3 ∧ s * h ^ 3 - (s * h) ^ 3 ≤ h ^ 3 := by
    have hsplit : s * h ^ 3 - (s * h) ^ 3 = s * (1 - s ^ 2) * h ^ 3 := by ring
    have hs2 : s ^ 2 ≤ 1 := pow_le_one₀ hs hs1
    have hfactor : s * (1 - s ^ 2) ≤ 1 := mul_le_one₀ hs1 (by linarith) (by nlinarith)
    rw [hsplit]
    exact ⟨mul_nonneg (mul_nonneg hs (by linarith)) (pow_nonneg hh 3),
      mul_le_of_le_one_left (pow_nonneg hh 3) hfactor⟩
  rw [abs_le]
  constructor <;> linarith [hcube.1, hcube.2, hpart.1, hpart.2]

theorem parabola_sin (hh : 0 ≤ h) (hone : h ≤ 1) (ht : 0 ≤ t) (ht1 : t ≤ 1) (a : ℝ) :
    |parabola t (Real.sin a) (Real.sin (a + h)) (Real.sin (a + 2 * h)) - Real.sin (a + t * h)| ≤
      h ^ 3 := by
  have hsplit : parabola t (Real.sin a) (Real.sin (a + h)) (Real.sin (a + 2 * h)) -
      Real.sin (a + t * h) =
      Real.sin (a + h) * (1 + (1 - t) ^ 2 * (Real.cos h - 1) - Real.cos ((1 - t) * h)) +
        Real.cos (a + h) * (Real.sin ((1 - t) * h) - (1 - t) * Real.sin h) := by
    have hfirst : Real.sin a = Real.sin (a + h - h) := by ring_nf
    have hthird : a + 2 * h = a + h + h := by ring
    have hplace : a + t * h = a + h - (1 - t) * h := by ring
    rw [parabola, hthird, hplace, hfirst, Real.sin_sub (a + h) h, Real.sin_add (a + h) h,
      Real.sin_sub (a + h)]
    ring
  have heven := even_error hh hone (sub_nonneg.mpr ht1) (by linarith : 1 - t ≤ 1)
  have hodd := odd_error hh hone (sub_nonneg.mpr ht1) (by linarith : 1 - t ≤ 1)
  have hsin := mul_le_mul (Real.abs_sin_le_one (a + h)) heven (abs_nonneg _) zero_le_one
  have hcos := mul_le_mul (Real.abs_cos_le_one (a + h)) hodd (abs_nonneg _) zero_le_one
  have hfourth : h ^ 4 ≤ h ^ 3 := pow_le_pow_of_le_one hh hone (by decide)
  have hfifth : h ^ 5 ≤ h ^ 3 := pow_le_pow_of_le_one hh hone (by decide)
  have hcube := pow_nonneg hh 3
  rw [hsplit]
  refine (abs_add_le _ _).trans ?_
  rw [abs_mul, abs_mul]
  linarith

/-- In the last step before a quarter of a turn the last value stands for the one past the end. -/
theorem parabola_last (hh : 0 ≤ h) (hone : h ≤ 1) (ht : 0 ≤ t) (ht1 : t ≤ 1) :
    |parabola t (Real.cos h) 1 1 - Real.cos ((1 - t) * h)| ≤ h ^ 2 / 16 + h ^ 4 / 9 := by
  obtain ⟨s, rfl⟩ : ∃ s, t = 1 - s := ⟨1 - t, by ring⟩
  have hs : 0 ≤ s := by linarith
  have hs1 : s ≤ 1 := by linarith
  have hplace : 1 - (1 - s) = s := by ring
  have hsh : s * h ≤ 1 := mul_le_one₀ hs1 hh hone
  have hwhole := abs_le.mp (cos_near hh hone)
  have hpart := abs_le.mp (cos_near (mul_nonneg hs hh) hsh)
  have hs4 : (s * h) ^ 4 ≤ h ^ 4 := pow_le_pow_left₀ (mul_nonneg hs hh)
    (mul_le_of_le_one_left hh hs1) 4
  have hweight : 0 ≤ s * (1 + s) / 2 ∧ s * (1 + s) / 2 ≤ 1 := by
    constructor <;> nlinarith
  have hupper := mul_le_mul_of_nonneg_left hwhole.2 hweight.1
  have hlower := mul_le_mul_of_nonneg_left hwhole.1 hweight.1
  have hshrink : s * (1 + s) / 2 * (5 / 96 * h ^ 4) ≤ 5 / 96 * h ^ 4 :=
    mul_le_of_le_one_left (by positivity) hweight.2
  have hsecond : 0 ≤ s * (1 - s) * h ^ 2 ∧ s * (1 - s) * h ^ 2 ≤ h ^ 2 / 4 := by
    have hquarter : s * (1 - s) ≤ 1 / 4 := by nlinarith [sq_nonneg (s - 1 / 2)]
    constructor
    · exact mul_nonneg (mul_nonneg hs (by linarith)) (sq_nonneg h)
    · nlinarith [sq_nonneg h]
  have hvalue : parabola (1 - s) (Real.cos h) 1 1 - Real.cos (s * h) =
      1 - s * (1 + s) / 2 + s * (1 + s) / 2 * Real.cos h - Real.cos (s * h) := by
    rw [parabola]
    ring
  rw [hplace, hvalue, abs_le]
  constructor <;> nlinarith [hupper, hlower, hshrink, hpart.1, hpart.2, hs4, hsecond.1, hsecond.2]

theorem parabola_close {y0 y1 y2 z0 z1 z2 τ : ℝ} (ht : 0 ≤ t) (ht1 : t ≤ 1)
    (h0 : |y0 - z0| ≤ τ) (h1 : |y1 - z1| ≤ τ) (h2 : |y2 - z2| ≤ τ) :
    |parabola t y0 y1 y2 - parabola t z0 z1 z2| ≤ 5 / 4 * τ := by
  have hτ : 0 ≤ τ := (abs_nonneg _).trans h0
  have hsplit : parabola t y0 y1 y2 - parabola t z0 z1 z2 =
      (1 - t) * (2 - t) / 2 * (y0 - z0) + t * (2 - t) * (y1 - z1) -
        t * (1 - t) / 2 * (y2 - z2) := by
    rw [parabola, parabola]
    ring
  have hw0 : 0 ≤ (1 - t) * (2 - t) / 2 := by nlinarith
  have hw1 : 0 ≤ t * (2 - t) := by nlinarith
  have hw2 : 0 ≤ t * (1 - t) / 2 := by nlinarith
  have hquarter : t * (1 - t) ≤ 1 / 4 := by nlinarith [sq_nonneg (t - 1 / 2)]
  have hterm0 := mul_le_mul_of_nonneg_left h0 hw0
  have hterm1 := mul_le_mul_of_nonneg_left h1 hw1
  have hterm2 := mul_le_mul_of_nonneg_left h2 hw2
  rw [hsplit]
  refine (abs_sub _ _).trans ((add_le_add (abs_add_le _ _) le_rfl).trans ?_)
  rw [abs_mul _ (y0 - z0), abs_mul _ (y1 - z1), abs_mul _ (y2 - z2), abs_of_nonneg hw0,
    abs_of_nonneg hw1, abs_of_nonneg hw2]
  nlinarith

end Interpolation

section Table

variable {x : ℚ} {j : Nat}

def value (j : Nat) : ℚ := (digit j : ℚ) / unit

theorem value_near (hj : j ≤ 512) : |(value j : ℝ) - Real.sin (j * stepAngle)| ≤ 1 / 10 ^ 8 := by
  rw [value]
  push_cast
  exact values_near hj

theorem quarter_turn : 512 * stepAngle = Real.pi / 2 := by
  rw [stepAngle]
  ring

theorem interpolation_eq (hj : j < 512) (hlo : (j : ℚ) ≤ x) (hhi : x < j + 1) :
    quadraticInterpolation512 sinTableQtr.values x =
      some (quadratic (x - j) (value j) (value (j + 1))
        (if 511 ≤ j then value (j + 1) else value (j + 2))) := by
  have hsign : ¬ (j : ℤ) < 0 := by omega
  have hlow : ¬ 512 ≤ j := by omega
  have hsecond := values_getElem? (j := j + 1) (by omega)
  have hentries : entries sinTableQtr.values 513 j =
      some (value j, value (j + 1), if 511 ≤ j then value (j + 1) else value (j + 2)) := by
    by_cases hlast : 511 ≤ j
    · simp only [entries, values_getElem? hj.le, hsecond, if_pos hlast, Nat.reduceSub,
        Option.bind_eq_bind, Option.bind_some, value]
    · simp only [entries, values_getElem? hj.le, hsecond, if_neg hlast, Nat.reduceSub,
        values_getElem? (j := j + 2) (by omega), Option.bind_eq_bind, Option.bind_some, value]
  simp only [quadraticInterpolation512, toInt_eq (by omega) hlo hhi, Option.bind_eq_bind,
    Option.bind_some, if_neg hsign, Int.toNat_natCast, if_neg hlow, hentries, Int.cast_natCast]

theorem interpolation_near (hlo : 0 ≤ x) (hhi : x ≤ 512) :
    ∃ v, quadraticInterpolation512 sinTableQtr.values x = some v ∧
      |(v : ℝ) - Real.sin (x * stepAngle)| ≤ 7 / 10 ^ 7 := by
  obtain rfl | hlt := hhi.eq_or_lt
  · refine ⟨1, interpolation512_last sinTableQtr, ?_⟩
    push_cast
    rw [quarter_turn, Real.sin_pi_div_two]
    norm_num
  obtain ⟨j, hbelow, habove⟩ := exists_step hlo
  have hj : j < 512 := by
    have hcast : (j : ℚ) < 512 := lt_of_le_of_lt hbelow hlt
    exact_mod_cast hcast
  refine ⟨_, interpolation_eq hj hbelow habove, ?_⟩
  obtain ⟨t, rfl⟩ : ∃ t, x = j + t := ⟨x - j, by ring⟩
  have ht : (0 : ℝ) ≤ t := by exact_mod_cast (by linarith : 0 ≤ t)
  have ht1 : (t : ℝ) ≤ 1 := by exact_mod_cast (by linarith : t ≤ 1)
  obtain ⟨-, hstep⟩ := stepAngle_bounds
  have hone : stepAngle ≤ 1 := hstep.trans (by norm_num)
  have hsquare := pow_le_pow_left₀ stepAngle_nonneg hstep 2
  have hcube := pow_le_pow_left₀ stepAngle_nonneg hstep 3
  have hfourth := pow_le_pow_left₀ stepAngle_nonneg hstep 4
  norm_num at hsquare hcube hfourth
  have hfirst := value_near hj.le
  have hsecond := value_near (j := j + 1) hj
  rw [cast_quadratic]
  push_cast at hsecond ⊢
  rw [add_sub_cancel_left]
  by_cases hlast : 511 ≤ j
  · obtain rfl : j = 511 := by omega
    have hbefore : Real.sin ((511 : Nat) * stepAngle) = Real.cos stepAngle := by
      rw [← Real.sin_pi_div_two_sub, ← quarter_turn]
      congr 1
      push_cast
      ring
    have hquarter : ((511 : Nat) + 1 : ℝ) * stepAngle = Real.pi / 2 := by
      rw [← quarter_turn]
      push_cast
      ring
    have hplace : Real.sin (((511 : Nat) + t : ℝ) * stepAngle) =
        Real.cos ((1 - t) * stepAngle) := by
      rw [← Real.sin_pi_div_two_sub, ← hquarter]
      congr 1
      ring
    rw [hbefore] at hfirst
    rw [hquarter, Real.sin_pi_div_two] at hsecond
    rw [if_pos hlast, hplace]
    have hclose := parabola_close ht ht1 hfirst hsecond hsecond
    have hexact := parabola_last stepAngle_nonneg hone ht ht1
    refine (abs_sub_le _ (parabola t (Real.cos stepAngle) 1 1) _).trans ?_
    linarith
  · have hthird := value_near (j := j + 2) (by omega)
    have hnext : ((j : ℝ) + 1) * stepAngle = j * stepAngle + stepAngle := by ring
    have hafter : ((j : ℝ) + 2) * stepAngle = j * stepAngle + 2 * stepAngle := by ring
    have hplace : ((j : ℝ) + t) * stepAngle = j * stepAngle + t * stepAngle := by ring
    push_cast at hthird
    rw [hafter] at hthird
    rw [hnext] at hsecond
    rw [if_neg hlast, hplace]
    have hclose := parabola_close ht ht1 hfirst hsecond hthird
    have hexact := parabola_sin stepAngle_nonneg hone ht ht1 (j * stepAngle)
    refine (abs_sub_le _ (parabola t (Real.sin (j * stepAngle))
      (Real.sin (j * stepAngle + stepAngle)) (Real.sin (j * stepAngle + 2 * stepAngle))) _).trans ?_
    linarith

end Table

section Turns

variable {x : ℚ} {n : ℤ} {q : Nat}

theorem sincos_turned (hq : q < 4) (y : ℝ) (s c : ℚ) {ε : ℝ} (hs : |(s : ℝ) - Real.sin y| ≤ ε)
    (hc : |(c : ℝ) - Real.cos y| ≤ ε) :
    |((turned q s c).1 : ℝ) - Real.sin (y + q * (Real.pi / 2))| ≤ ε ∧
      |((turned q s c).2 : ℝ) - Real.cos (y + q * (Real.pi / 2))| ≤ ε := by
  have hneg {u v : ℝ} (h : |u - v| ≤ ε) : |-u - -v| ≤ ε := by
    rwa [neg_sub_neg, abs_sub_comm]
  obtain rfl | rfl | rfl | rfl : q = 0 ∨ q = 1 ∨ q = 2 ∨ q = 3 := by omega
  · simpa [turned] using And.intro hs hc
  · have hangle : y + (1 : Nat) * (Real.pi / 2) = y + Real.pi / 2 := by
      push_cast
      ring
    rw [hangle, Real.sin_add_pi_div_two, Real.cos_add_pi_div_two]
    refine ⟨hc, ?_⟩
    simpa [turned] using hneg hs
  · have hangle : y + (2 : Nat) * (Real.pi / 2) = y + Real.pi := by
      push_cast
      ring
    rw [hangle, Real.sin_add_pi, Real.cos_add_pi]
    simpa [turned] using And.intro (hneg hs) (hneg hc)
  · have hangle : y + (3 : Nat) * (Real.pi / 2) = y + Real.pi / 2 + Real.pi := by
      push_cast
      ring
    rw [hangle, Real.sin_add_pi, Real.cos_add_pi, Real.sin_add_pi_div_two,
      Real.cos_add_pi_div_two, neg_neg]
    refine ⟨?_, hs⟩
    simpa [turned] using hneg hc

/-- The sine and the cosine of every angle, in turns, from the table of the source. -/
theorem vnaSincosf_near (a : ℚ) :
    ∃ s c, vnaSincosf .f303 sinTableQtr.values a = some (s, c) ∧
      |(s : ℝ) - Real.sin (2 * Real.pi * a)| ≤ 7 / 10 ^ 7 ∧
      |(c : ℝ) - Real.cos (2 * Real.pi * a)| ≤ 7 / 10 ^ 7 := by
  obtain ⟨n, q, hq, x, hlo, hhi, ha⟩ := exists_quadrant a
  obtain ⟨s, hs, hsine⟩ := interpolation_near hlo hhi.le
  obtain ⟨c, hc, hcosine⟩ := interpolation_near (x := 512 - x) (by linarith) (by linarith)
  have hcomplement : Real.sin ((512 - x : ℚ) * stepAngle) = Real.cos (x * stepAngle) := by
    rw [← Real.sin_pi_div_two_sub, ← quarter_turn]
    congr 1
    push_cast
    ring
  rw [hcomplement] at hcosine
  have hangle : 2 * Real.pi * (a : ℝ) =
      x * stepAngle + q * (Real.pi / 2) + n * (2 * Real.pi) := by
    have hreal : (a : ℝ) * 2048 = 2048 * n + 512 * q + x := by exact_mod_cast ha
    rw [stepAngle]
    linear_combination Real.pi / 1024 * hreal
  obtain ⟨hfirst, hsecond⟩ := sincos_turned hq (x * stepAngle) s c hsine hcosine
  refine ⟨_, _, sincos_of_turns hq hlo hhi ha hs hc, ?_, ?_⟩
  · rw [hangle, Real.sin_add_int_mul_two_pi]
    exact hfirst
  · rw [hangle, Real.cos_add_int_mul_two_pi]
    exact hsecond

/-- As a point of the circle the result is a millionth off. -/
theorem vnaSincosf_accurate (a : ℚ) :
    ∃ s c, vnaSincosf .f303 sinTableQtr.values a = some (s, c) ∧
      ‖(⟨c, s⟩ : ℂ) - circle (2 * Real.pi * a)‖ ≤ 1 / 10 ^ 6 := by
  obtain ⟨s, c, hvalue, hs, hc⟩ := vnaSincosf_near a
  refine ⟨s, c, hvalue, ?_⟩
  have hsin := sq_le_sq' (abs_le.mp hs).1 (abs_le.mp hs).2
  have hcos := sq_le_sq' (abs_le.mp hc).1 (abs_le.mp hc).2
  have hsq : ‖(⟨c, s⟩ : ℂ) - circle (2 * Real.pi * a)‖ ^ 2 ≤ (1 / 10 ^ 6) ^ 2 := by
    rw [Complex.sq_norm, Complex.normSq_apply, Complex.sub_re, Complex.sub_im, circle]
    dsimp only
    norm_num at hsin hcos ⊢
    linarith
  exact le_of_sq_le_sq hsq (by norm_num)

end Turns

end NanoVNA.SinCosAccuracy
