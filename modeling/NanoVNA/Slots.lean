import Mathlib.Data.List.Perm.Basic
import Mathlib.Data.List.Nodup

namespace NanoVNA.Slots

variable {α β : Type}

def replace (xs : List α) (k : Nat) : Option α → List α
  | some a => xs.set k a
  | none => xs.eraseIdx k

theorem perm_cons_eraseIdx {xs : List α} {k : Nat} {a : α} (h : xs[k]? = some a) :
    xs.Perm (a :: xs.eraseIdx k) := by
  obtain ⟨hk, rfl⟩ := List.getElem?_eq_some_iff.mp h
  exact (List.getElem_cons_eraseIdx_perm hk).symm

theorem replace_perm {xs : List α} {k : Nat} (hk : k < xs.length) (next : Option α) :
    (replace xs k next).Perm (next.toList ++ xs.eraseIdx k) := by
  cases next with
  | none => exact List.Perm.refl _
  | some a => exact List.set_perm_cons_eraseIdx hk a

theorem mem_replace {xs : List α} {k : Nat} {next : Option α} {b : α}
    (h : b ∈ replace xs k next) : b ∈ xs ∨ next = some b := by
  cases next with
  | none => exact Or.inl (List.mem_of_mem_eraseIdx h)
  | some a =>
    obtain h | h := List.mem_or_eq_of_mem_set h
    · exact Or.inl h
    · exact Or.inr (congrArg some h.symm)

theorem filterMap_replace (f : α → Option β) {xs : List α} {k : Nat} {a : α}
    (h : xs[k]? = some a) (next : Option α) :
    ((f a).toList ++ (replace xs k next).filterMap f).Perm
      ((next.bind f).toList ++ xs.filterMap f) := by
  obtain ⟨hk, -⟩ := List.getElem?_eq_some_iff.mp h
  have hold := (perm_cons_eraseIdx h).filterMap f
  have hnew := (replace_perm hk next).filterMap f
  have hcons : (a :: xs.eraseIdx k).filterMap f = (f a).toList ++ (xs.eraseIdx k).filterMap f := by
    rw [List.filterMap_cons]
    cases f a <;> rfl
  have hnext : next.toList.filterMap f = (next.bind f).toList := by
    cases next with
    | none => rfl
    | some b =>
      rw [Option.toList_some, List.filterMap_cons, List.filterMap_nil, Option.bind_some]
      cases f b <;> rfl
  rw [hcons] at hold
  rw [List.filterMap_append, hnext] at hnew
  calc ((f a).toList ++ (replace xs k next).filterMap f).Perm _ := hnew.append_left _
    List.Perm _ ((next.bind f).toList ++ ((f a).toList ++ (xs.eraseIdx k).filterMap f)) := by
      rw [← List.append_assoc, ← List.append_assoc]
      exact List.perm_append_comm.append_right _
    List.Perm _ _ := (hold.append_left _).symm

/-- What moves between the two parts of a whole keeps them a partition of it. -/
theorem perm_exchange [DecidableEq α] {rest rest' held held' whole whole' old new : List α}
    (h : (rest ++ held).Perm whole) (hheld : (old ++ held').Perm (new ++ held))
    (hmove : (rest' ++ new ++ whole).Perm (rest ++ old ++ whole')) :
    (rest' ++ held').Perm whole' := by
  rw [List.perm_iff_count] at h hheld hmove ⊢
  intro a
  have h := h a
  have hheld := hheld a
  have hmove := hmove a
  simp only [List.count_append] at *
  omega

variable (p : α → Bool)

def marked (xs : List α) : List Nat := (List.range xs.length).filter fun i => xs[i]?.any p

theorem marked_nodup (xs : List α) : (marked p xs).Nodup := List.nodup_range.filter _

theorem mem_marked {xs : List α} {i : Nat} : i ∈ marked p xs ↔ ∃ a, xs[i]? = some a ∧ p a := by
  rw [marked, List.mem_filter, List.mem_range]
  constructor
  · rintro ⟨-, h⟩
    exact Option.any_eq_true _ _ |>.mp h
  · rintro ⟨a, ha, hp⟩
    refine ⟨(List.getElem?_eq_some_iff.mp ha).1, ?_⟩
    rw [ha]
    exact hp

theorem marked_length (xs : List α) : (marked p xs).length = xs.countP p := by
  have hmap : (List.range xs.length).map (fun i => xs[i]?) = xs.map some := by
    apply List.ext_getElem?
    intro i
    by_cases hi : i < xs.length
    · simp [hi]
    · simp [hi]
  have hcount := congrArg (List.countP fun a => a.any p) hmap
  rw [List.countP_map, List.countP_map] at hcount
  rw [marked, ← List.countP_eq_length_filter]
  exact hcount

variable {p}

theorem marked_set {xs : List α} {i : Nat} {a b : α} (h : xs[i]? = some a) (ha : p a = false)
    (hb : p b = true) : (marked p (xs.set i b)).Perm (i :: marked p xs) := by
  obtain ⟨hi, -⟩ := List.getElem?_eq_some_iff.mp h
  have hfree : i ∉ marked p xs := by
    rw [mem_marked]
    rintro ⟨c, hc, hp⟩
    obtain rfl : a = c := Option.some.inj (h.symm.trans hc)
    rw [ha] at hp
    cases hp
  rw [List.perm_ext_iff_of_nodup (marked_nodup p _) (List.nodup_cons.mpr ⟨hfree, marked_nodup p _⟩)]
  intro j
  rw [List.mem_cons, mem_marked, mem_marked]
  by_cases hj : j = i
  · subst hj
    simp [hi, hb]
  · rw [List.getElem?_set_ne (Ne.symm hj)]
    simp [hj]

theorem marked_unset {xs : List α} {i : Nat} {a b : α} (h : xs[i]? = some a) (ha : p a = true)
    (hb : p b = false) : (i :: marked p (xs.set i b)).Perm (marked p xs) := by
  obtain ⟨hi, hget⟩ := List.getElem?_eq_some_iff.mp h
  have hback : (xs.set i b).set i a = xs := by
    rw [List.set_set, ← hget, List.set_getElem_self]
  have hset : (xs.set i b)[i]? = some b := List.getElem?_set_self hi
  have hmarked := marked_set hset hb ha
  rw [hback] at hmarked
  exact hmarked.symm

end NanoVNA.Slots
