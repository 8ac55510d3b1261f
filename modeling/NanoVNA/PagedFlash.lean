import Mathlib.Logic.Function.Basic

namespace NanoVNA.PagedFlash

/-- A memory that is erased by pages and programmed by cells. An operation tells whether it was
done; one that was not may leave anything in the page or the cell it was for. -/
structure Device (σ V : Type) where
  page : Nat
  erased : V
  cells : σ → Nat → V
  erase : σ → Nat → σ × Bool
  program : σ → Nat → V → σ × Bool
  page_pos : 0 < page
  erase_frame : ∀ s a k, k / page ≠ a / page → cells (erase s a).1 k = cells s k
  erase_done : ∀ s a, (erase s a).2 = true → ∀ k, k / page = a / page →
    cells (erase s a).1 k = erased
  program_frame : ∀ s a v k, k ≠ a → cells (program s a v).1 k = cells s k
  program_done : ∀ s a v, (program s a v).2 = true → cells (program s a v).1 a = v

variable {σ V : Type} (d : Device σ V)

/-- Erases the pages from the one of `a` on until an address is no longer below `last`. -/
def eraseFrom (last a : Nat) (s : σ) : σ × Bool :=
  if a < last then
    let first := d.erase s a
    let rest := eraseFrom last (a + d.page) first.1
    (rest.1, first.2 && rest.2)
  else (s, true)
termination_by last - a
decreasing_by
  have := d.page_pos
  omega

def programFrom (a : Nat) : List V → σ → σ × Bool
  | [], s => (s, true)
  | v :: vs, s =>
    let first := d.program s a v
    let rest := programFrom (a + 1) vs first.1
    (rest.1, first.2 && rest.2)

section Erase

variable {d}

theorem eraseFrom_of_lt {last a : Nat} (s : σ) (h : a < last) :
    eraseFrom d last a s = ((eraseFrom d last (a + d.page) (d.erase s a).1).1,
      (d.erase s a).2 && (eraseFrom d last (a + d.page) (d.erase s a).1).2) := by
  rw [eraseFrom, if_pos h]

theorem eraseFrom_of_le {last a : Nat} (s : σ) (h : last ≤ a) :
    eraseFrom d last a s = (s, true) := by
  rw [eraseFrom, if_neg (Nat.not_lt.mpr h)]

theorem div_page_ne {a k : Nat} (ha : d.page ∣ a) (hk : k < a ∨ a + d.page ≤ k) :
    k / d.page ≠ a / d.page := by
  obtain ⟨m, rfl⟩ := ha
  rw [Nat.mul_div_cancel_left m d.page_pos]
  obtain hbelow | habove := hk
  · exact Nat.ne_of_lt (Nat.div_lt_of_lt_mul hbelow)
  · rw [← Nat.mul_succ] at habove
    exact Nat.ne_of_gt ((Nat.le_div_iff_mul_le d.page_pos).mpr (Nat.mul_comm _ d.page ▸ habove))

theorem div_page_eq {a k : Nat} (ha : d.page ∣ a) (hlo : a ≤ k) (hhi : k < a + d.page) :
    k / d.page = a / d.page := by
  obtain ⟨m, rfl⟩ := ha
  rw [Nat.mul_div_cancel_left m d.page_pos]
  exact Nat.div_eq_of_lt_le (Nat.mul_comm m _ ▸ hlo) (by rw [Nat.succ_mul, Nat.mul_comm]; exact hhi)

/-- The cells of other pages stay as they were, whatever fails. -/
theorem eraseFrom_frame {last stop a k : Nat} (s : σ) (ha : d.page ∣ a) (hstop : d.page ∣ stop)
    (hlast : last ≤ stop) (hk : k < a ∨ stop ≤ k) :
    d.cells (eraseFrom d last a s).1 k = d.cells s k := by
  by_cases hlt : a < last
  · have hroom : a + d.page ≤ stop := by
      obtain ⟨m, rfl⟩ := ha
      obtain ⟨n, rfl⟩ := hstop
      rw [← Nat.mul_succ]
      exact Nat.mul_le_mul_left _ (Nat.lt_of_mul_lt_mul_left (Nat.lt_of_lt_of_le hlt hlast))
    have hnext : d.page ∣ a + d.page := Nat.dvd_add ha (Nat.dvd_refl _)
    rw [eraseFrom_of_lt s hlt, eraseFrom_frame _ hnext hstop hlast (by omega),
      d.erase_frame s a k (div_page_ne ha (by omega))]
  · rw [eraseFrom_of_le s (Nat.not_lt.mp hlt)]
termination_by last - a
decreasing_by
  have := d.page_pos
  omega

theorem eraseFrom_done {last a k : Nat} (s : σ) (ha : d.page ∣ a)
    (hdone : (eraseFrom d last a s).2 = true) (hlo : a ≤ k) (hhi : k < last) :
    d.cells (eraseFrom d last a s).1 k = d.erased := by
  have hlt : a < last := Nat.lt_of_le_of_lt hlo hhi
  have hnext : d.page ∣ a + d.page := Nat.dvd_add ha (Nat.dvd_refl _)
  rw [eraseFrom_of_lt s hlt, Bool.and_eq_true] at hdone
  rw [eraseFrom_of_lt s hlt]
  by_cases hpage : k < a + d.page
  · obtain ⟨n, hn⟩ : ∃ n, n = d.page * (last / d.page + 1) := ⟨_, rfl⟩
    have hstop : last ≤ n := by
      rw [hn]
      exact Nat.le_of_lt (Nat.lt_mul_div_succ last d.page_pos)
    rw [eraseFrom_frame _ hnext ⟨_, hn⟩ hstop (Or.inl hpage)]
    exact d.erase_done s a hdone.1 k (div_page_eq ha hlo hpage)
  · exact eraseFrom_done _ hnext hdone.2 (Nat.not_lt.mp hpage) hhi
termination_by last - a
decreasing_by
  have := d.page_pos
  omega

theorem eraseFrom_succeeds (herase : ∀ s a, (d.erase s a).2 = true) (last a : Nat) (s : σ) :
    (eraseFrom d last a s).2 = true := by
  by_cases hlt : a < last
  · rw [eraseFrom_of_lt s hlt, herase, eraseFrom_succeeds herase last (a + d.page)]
    rfl
  · rw [eraseFrom_of_le s (Nat.not_lt.mp hlt)]
termination_by last - a
decreasing_by
  have := d.page_pos
  omega

end Erase

section Program

variable {d}

theorem programFrom_frame {a k : Nat} (vs : List V) (s : σ) (hk : k < a ∨ a + vs.length ≤ k) :
    d.cells (programFrom d a vs s).1 k = d.cells s k := by
  induction vs generalizing a s with
  | nil => rfl
  | cons v vs ih =>
    rw [List.length_cons] at hk
    rw [programFrom, ih _ (by omega), d.program_frame s a v k (by omega)]

theorem programFrom_done {a : Nat} (vs : List V) (s : σ) (hdone : (programFrom d a vs s).2 = true)
    {i : Nat} (hi : i < vs.length) : d.cells (programFrom d a vs s).1 (a + i) = vs[i] := by
  induction vs generalizing a s i with
  | nil => exact absurd hi (Nat.not_lt_zero i)
  | cons v vs ih =>
    rw [programFrom, Bool.and_eq_true] at hdone
    rw [programFrom]
    cases i with
    | zero =>
      rw [programFrom_frame vs _ (by omega)]
      exact d.program_done s a v hdone.1
    | succ i =>
      have hplace : a + (i + 1) = a + 1 + i := by omega
      rw [hplace, ih _ hdone.2 (Nat.lt_of_succ_lt_succ hi), List.getElem_cons_succ]

theorem programFrom_succeeds
    (hprogram : ∀ s a v, d.cells s a = d.erased → (d.program s a v).2 = true) {a : Nat}
    (vs : List V) (s : σ) (hblank : ∀ i < vs.length, d.cells s (a + i) = d.erased) :
    (programFrom d a vs s).2 = true := by
  induction vs generalizing a s with
  | nil => rfl
  | cons v vs ih =>
    have hfirst : d.cells s a = d.erased := hblank 0 (Nat.zero_lt_succ _)
    rw [programFrom, hprogram s a v hfirst, ih _ fun i hi => ?_]
    · rfl
    · rw [d.program_frame s a v _ (by omega), Nat.add_assoc, Nat.add_comm 1 i]
      exact hblank (i + 1) (Nat.succ_lt_succ hi)

end Program

end NanoVNA.PagedFlash
