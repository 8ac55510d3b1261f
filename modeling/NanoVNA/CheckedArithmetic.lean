import Mathlib.Logic.Function.Basic
import Mathlib.Data.List.Nodup

namespace NanoVNA.CheckedArithmetic

/-- A division that stops at a divisor of zero. -/
def divide (a b : Nat) : Option Nat := if b = 0 then none else some (a / b)

def remainder (a b : Nat) : Option Nat := if b = 0 then none else some (a % b)

theorem divide_eq_some_iff {a b c : Nat} : divide a b = some c ↔ b ≠ 0 ∧ a / b = c := by
  unfold divide
  split
  · exact iff_of_false nofun fun h => h.1 ‹_›
  · exact Option.some_inj.trans (and_iff_right ‹_›).symm

theorem remainder_eq_some_iff {a b c : Nat} : remainder a b = some c ↔ b ≠ 0 ∧ a % b = c := by
  unfold remainder
  split
  · exact iff_of_false nofun fun h => h.1 ‹_›
  · exact Option.some_inj.trans (and_iff_right ‹_›).symm

variable {ι α : Type} [DecidableEq ι]

/-- A loop that replaces each entry by what a checked computation makes of it. -/
def rewriteEach (g : α → Option α) (is : List ι) (f : ι → α) : Option (ι → α) :=
  is.foldlM (fun f i => (g (f i)).map (Function.update f i)) f

theorem rewriteEach_eq_some_iff (g : α → Option α) {is : List ι} (hnodup : is.Nodup)
    {f f' : ι → α} :
    rewriteEach g is f = some f' ↔
      (∀ i ∈ is, g (f i) = some (f' i)) ∧ ∀ i, i ∉ is → f' i = f i := by
  induction is generalizing f with
  | nil =>
    refine Option.some_inj.trans ⟨?_, fun h => ?_⟩
    · rintro rfl
      exact ⟨nofun, fun _ _ => rfl⟩
    · funext i
      exact (h.2 i nofun).symm
  | cons i is ih =>
    obtain ⟨hi, hnodup⟩ := List.nodup_cons.mp hnodup
    have hne : ∀ j ∈ is, j ≠ i := fun j hj hji => hi (hji ▸ hj)
    have hcons : rewriteEach g (i :: is) f =
        ((g (f i)).map (Function.update f i)).bind (rewriteEach g is) := by
      rw [rewriteEach, List.foldlM_cons]
      rfl
    rw [hcons, Option.bind_eq_some_iff]
    constructor
    · rintro ⟨u, hu, hrest⟩
      obtain ⟨a, ha, rfl⟩ := Option.map_eq_some_iff.mp hu
      obtain ⟨hin, hout⟩ := (ih hnodup).mp hrest
      have hself : f' i = a := (hout i hi).trans (Function.update_self ..)
      refine ⟨fun j hj => ?_, fun j hj => ?_⟩
      · obtain rfl | hj := List.mem_cons.mp hj
        · rw [ha, hself]
        · have hj' := hin j hj
          rwa [Function.update_of_ne (hne j hj)] at hj'
      · obtain ⟨hji, hj⟩ := not_or.mp (hj <| List.mem_cons.mpr ·)
        exact (hout j hj).trans (Function.update_of_ne hji ..)
    · rintro ⟨hin, hout⟩
      have ha := hin i List.mem_cons_self
      refine ⟨Function.update f i (f' i), Option.map_eq_some_iff.mpr ⟨f' i, ha, rfl⟩, ?_⟩
      refine (ih hnodup).mpr ⟨fun j hj => ?_, fun j hj => ?_⟩
      · rw [Function.update_of_ne (hne j hj)]
        exact hin j (List.mem_cons_of_mem i hj)
      · by_cases hji : j = i
        · subst hji
          rw [Function.update_self]
        · rw [Function.update_of_ne hji]
          exact hout j fun h => (List.mem_cons.mp h).elim hji hj

end NanoVNA.CheckedArithmetic
