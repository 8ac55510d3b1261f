import Mathlib.Tactic.FieldSimp
import Mathlib.Tactic.Ring

namespace NanoVNA.ErrorModel

/-- The errors of a two-port measured from one side: directivity, source match, reflection
tracking, isolation and transmission tracking. -/
structure ErrorBox (K : Type) where
  ed : K
  es : K
  er : K
  ex : K
  t : K

variable {K : Type} [Field K] (b : ErrorBox K) {g s21 : K}

def ErrorBox.reflection (g : K) : K := b.ed + b.er * g / (1 - b.es * g)

def ErrorBox.transmission (matched : Bool) (s11 s21 : K) : K :=
  if matched then b.ex + b.t * s21 / (1 - b.es * s11) else b.ex + b.t * s21

variable {b}

theorem reflection_recovered (her : b.er ≠ 0) (hg : 1 - b.es * g ≠ 0) :
    (b.reflection g - b.ed) / (b.er + (b.reflection g - b.ed) * b.es) = g := by
  have hg' : 1 - g * b.es ≠ 0 := by rwa [mul_comm]
  have hden : b.er + b.er * g / (1 - b.es * g) * b.es = b.er / (1 - b.es * g) := by
    field_simp
    ring
  rw [ErrorBox.reflection, add_sub_cancel_left, hden]
  field_simp

theorem sourceMatch_of_open_short (h2 : (2 : K) ≠ 0) (her : b.er ≠ 0) (hopen : 1 - b.es ≠ 0)
    (hshort : 1 + b.es ≠ 0) :
    (b.reflection 1 - b.ed + (b.reflection (-1) - b.ed)) /
      (b.reflection 1 - b.reflection (-1)) = b.es := by
  have hneg : 1 - b.es * -1 = 1 + b.es := by ring
  have hdiff : b.er * 1 / (1 - b.es * 1) - b.er * -1 / (1 + b.es) =
      2 * b.er / ((1 - b.es) * (1 + b.es)) := by
    rw [mul_one b.es]
    field_simp
    ring
  have hsum : b.er * 1 / (1 - b.es * 1) + b.er * -1 / (1 + b.es) =
      2 * b.er * b.es / ((1 - b.es) * (1 + b.es)) := by
    rw [mul_one b.es]
    field_simp
    ring
  simp only [ErrorBox.reflection, add_sub_cancel_left, add_sub_add_left_eq_sub, hneg]
  rw [hdiff, hsum]
  field_simp

theorem tracking_of_short (hshort : 1 + b.es ≠ 0) :
    -((1 + b.es) * (b.reflection (-1) - b.ed)) = b.er := by
  have hneg : 1 - b.es * -1 = 1 + b.es := by ring
  rw [ErrorBox.reflection, add_sub_cancel_left, hneg]
  field_simp

theorem tracking_of_open (hopen : 1 - b.es ≠ 0) :
    (1 - b.es) * (b.reflection 1 - b.ed) = b.er := by
  rw [ErrorBox.reflection, add_sub_cancel_left, mul_one, mul_one]
  field_simp

theorem transmission_recovered (ht : b.t ≠ 0) :
    (b.transmission false g s21 - b.ex) * (1 / b.t) = s21 := by
  simp only [ErrorBox.transmission, Bool.false_eq_true, if_false, add_sub_cancel_left]
  field_simp

theorem matched_transmission_recovered (ht : b.t ≠ 0) (hg : 1 - b.es * g ≠ 0) :
    (1 - b.es * g) * ((b.transmission true g s21 - b.ex) * (1 / b.t)) = s21 := by
  simp only [ErrorBox.transmission, if_true, add_sub_cancel_left]
  field_simp

end NanoVNA.ErrorModel
