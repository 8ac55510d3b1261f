import NanoVNA.SweepGrid

namespace NanoVNA.GridFrequencies

open NanoVNA.Word32 NanoVNA.DeviceState NanoVNA.SweepGrid

/-- A range of 32-bit frequencies with two points or more, as many as 16 bits count. -/
structure Spans (start stop points : Nat) : Prop where
  le : start ≤ stop
  lt : stop < 2 ^ 32
  two : 2 ≤ points
  counted : points < 65536

instance (start stop points : Nat) : Decidable (Spans start stop points) :=
  decidable_of_iff (start ≤ stop ∧ stop < 2 ^ 32 ∧ 2 ≤ points ∧ points < 65536)
    ⟨fun ⟨a, b, c, d⟩ => ⟨a, b, c, d⟩, fun ⟨a, b, c, d⟩ => ⟨a, b, c, d⟩⟩

def gridFrequency (start stop points i : Nat) : Nat :=
  start + ((stop - start) * i + (points - 1) / 2) / (points - 1)

variable {start stop points i j : Nat}

section Rounding

variable (h : Spans start stop points)

include h

theorem Spans.steps_pos : 0 < points - 1 := by
  have := h.two
  omega

theorem Spans.points_pos : 0 < points := Nat.lt_of_lt_of_le (by decide) h.two

theorem gridFrequency_zero : gridFrequency start stop points 0 = start := by
  have hhalf : (points - 1) / 2 / (points - 1) = 0 :=
    Nat.div_eq_of_lt (Nat.div_lt_self h.steps_pos (by decide))
  rw [gridFrequency, Nat.mul_zero, Nat.zero_add, hhalf, Nat.add_zero]

theorem gridFrequency_last : gridFrequency start stop points (points - 1) = stop := by
  have hhalf : (points - 1) / 2 / (points - 1) = 0 :=
    Nat.div_eq_of_lt (Nat.div_lt_self h.steps_pos (by decide))
  rw [gridFrequency, Nat.add_comm (_ * _), Nat.add_mul_div_right _ _ h.steps_pos, hhalf,
    Nat.zero_add, Nat.add_sub_cancel' h.le]

omit h in
theorem gridFrequency_mono (hij : i ≤ j) :
    gridFrequency start stop points i ≤ gridFrequency start stop points j :=
  Nat.add_le_add_left (Nat.div_le_div_right (Nat.add_le_add_right (Nat.mul_le_mul_left _ hij) _)) _

omit h in
theorem start_le_gridFrequency : start ≤ gridFrequency start stop points i := Nat.le_add_right _ _

theorem gridFrequency_le (hi : i < points) : gridFrequency start stop points i ≤ stop := by
  have hlast := gridFrequency_last h
  exact Nat.le_trans (gridFrequency_mono (Nat.le_sub_one_of_lt hi)) (Nat.le_of_eq hlast)

theorem gridFrequency_lt (hdistinct : points - 1 ≤ stop - start) (hij : i < j) :
    gridFrequency start stop points i < gridFrequency start stop points j := by
  refine Nat.lt_of_lt_of_le ?_ (gridFrequency_mono hij)
  have hstep : (stop - start) * i + (points - 1) / 2 + (points - 1) ≤
      (stop - start) * (i + 1) + (points - 1) / 2 := by
    rw [Nat.mul_succ]
    omega
  have hnext := Nat.div_le_div_right (c := points - 1) hstep
  rw [Nat.add_div_right _ h.steps_pos] at hnext
  exact Nat.add_lt_add_left hnext _

theorem getFrequency_grid (hi : i < points) :
    getFrequency (appMeasurementSetFrequencies start stop points) i =
      gridFrequency start stop points i := by
  have hle := gridFrequency_le h hi
  have hlt := h.lt
  have hsteps : (points + 65535) % 65536 = points - 1 := by
    have := h.two
    have := h.counted
    omega
  have hpos := h.steps_pos
  have hspan : sub32 stop start = stop - start := sub32_of_le h.lt h.le
  have herror : (stop - start) % (points - 1) * i ≤ 65534 * i := by
    have hmod := Nat.mod_lt (stop - start) hpos
    have hcounted := h.counted
    exact Nat.mul_le_mul_right i (by omega)
  have hsplit : (stop - start) / (points - 1) * i +
      ((points - 1) / 2 + (stop - start) % (points - 1) * i) / (points - 1) =
        ((stop - start) * i + (points - 1) / 2) / (points - 1) := by
    have hround := Nat.add_mul_div_right ((points - 1) / 2 + (stop - start) % (points - 1) * i)
      ((stop - start) / (points - 1) * i) hpos
    have hdiv : (stop - start) / (points - 1) * i * (points - 1) +
        (stop - start) % (points - 1) * i = (stop - start) * i := by
      rw [Nat.mul_right_comm, ← Nat.add_mul, Nat.div_add_mod']
    have hsum : (points - 1) / 2 + (stop - start) % (points - 1) * i +
        (stop - start) / (points - 1) * i * (points - 1) =
          (stop - start) * i + (points - 1) / 2 := by
      omega
    rw [Nat.add_comm, ← hround, hsum]
  have hround : u32 ((points - 1) / 2 + (stop - start) % (points - 1) * i) =
      (points - 1) / 2 + (stop - start) % (points - 1) * i := by
    have := h.counted
    exact u32_of_lt (by omega)
  simp only [getFrequency, appMeasurementSetFrequencies, hsteps, hspan, hround]
  rw [Nat.add_assoc, hsplit]
  exact u32_of_lt (Nat.lt_of_le_of_lt hle hlt)

end Rounding

section Sweep

variable {S : Type} {p : Properties S}

abbrev SweepSpans (p : Properties S) : Prop :=
  Spans (sweepGetOrdered p).1 (sweepGetOrdered p).2 p.sweepPoints

def sampleFrequency (p : Properties S) (i : Nat) : Nat :=
  getFrequency
    (appMeasurementSetFrequencies (sweepGetOrdered p).1 (sweepGetOrdered p).2 p.sweepPoints) i

theorem sampleFrequency_eq (h : SweepSpans p) (hi : i < p.sweepPoints) :
    sampleFrequency p i =
      gridFrequency (sweepGetOrdered p).1 (sweepGetOrdered p).2 p.sweepPoints i :=
  getFrequency_grid h hi

end Sweep

end NanoVNA.GridFrequencies
