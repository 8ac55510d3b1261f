namespace NanoVNA.GuardedRun

variable {σ α : Type} (step : σ → α → Option σ)

def Along (guard : σ → α → Prop) : σ → List α → Prop
  | _, [] => True
  | s, a :: as => guard s a ∧ ∀ t, step s a = some t → Along guard t as

def Throughout (inv : σ → Prop) : σ → List α → Prop
  | _, [] => True
  | s, a :: as => ∃ t, step s a = some t ∧ inv t ∧ Throughout inv t as

variable {step} {guard : σ → α → Prop} {inv post : σ → Prop}

instance decidableAlong [∀ s a, Decidable (guard s a)] :
    ∀ (s : σ) (as : List α), Decidable (Along step guard s as)
  | _, [] => isTrue trivial
  | s, a :: as =>
    match h : step s a with
    | none =>
      decidable_of_iff (guard s a)
        ⟨fun hg => ⟨hg, fun _ ht => nomatch h.symm.trans ht⟩, fun ha => ha.1⟩
    | some t =>
      have := decidableAlong t as
      decidable_of_iff (guard s a ∧ Along step guard t as)
        ⟨fun hg => ⟨hg.1, fun _ hu => Option.some.inj (h.symm.trans hu) ▸ hg.2⟩,
          fun ha => ⟨ha.1, ha.2 t h⟩⟩

theorem along_congr_of_invariant {need : σ → α → Prop}
    (h : ∀ s a, inv s → (guard s a ↔ need s a))
    (hstep : ∀ s a t, inv s → step s a = some t → inv t) {as : List α} {s : σ} (hs : inv s) :
    Along step guard s as ↔ Along step need s as := by
  induction as generalizing s with
  | nil => exact Iff.rfl
  | cons a as ih =>
    exact and_congr (h s a hs) (forall₂_congr fun t ht => ih (hstep s a t hs ht))

theorem along_congr {need : σ → α → Prop} (h : ∀ s a, guard s a ↔ need s a) {as : List α} {s : σ} :
    Along step guard s as ↔ Along step need s as :=
  @along_congr_of_invariant _ _ step guard (fun _ => True) need (fun s a _ => h s a)
    (fun _ _ _ _ _ => trivial) as s trivial

theorem Along.after {as : List α} {a : α} {s t : σ} (h : Along step guard s (as ++ [a]))
    (ht : as.foldlM step s = some t) : guard t a := by
  induction as generalizing s with
  | nil =>
    obtain rfl := Option.some.inj ht
    exact h.1
  | cons b as ih =>
    rw [List.foldlM_cons] at ht
    obtain ⟨u, hu, hrest⟩ := Option.bind_eq_some_iff.mp ht
    exact ih (h.2 u hu) hrest

theorem along_of_guarded_invariant {need : σ → α → Prop}
    (hneed : ∀ s a, inv s → guard s a → need s a)
    (hstep : ∀ s a t, inv s → guard s a → step s a = some t → inv t) {as : List α} {s : σ}
    (hs : inv s) (h : Along step guard s as) : Along step need s as := by
  induction as generalizing s with
  | nil => trivial
  | cons a as ih =>
    exact ⟨hneed s a hs h.1, fun t ht => ih (hstep s a t hs h.1 ht) (h.2 t ht)⟩

theorem along_of_invariant {need : σ → α → Prop} (hneed : ∀ s a, inv s → need s a)
    (hstep : ∀ s a t, inv s → guard s a → step s a = some t → inv t) {as : List α} {s : σ}
    (hs : inv s) (h : Along step guard s as) : Along step need s as :=
  along_of_guarded_invariant (fun s a hi _ => hneed s a hi) hstep hs h

theorem throughout_of_along
    (hstep : ∀ s a, inv s → guard s a → ∃ t, step s a = some t ∧ inv t)
    {as : List α} {s : σ} (hs : inv s) (h : Along step guard s as) :
    Throughout step inv s as := by
  induction as generalizing s with
  | nil => trivial
  | cons a as ih =>
    obtain ⟨t, ht, hi⟩ := hstep s a hs h.1
    exact ⟨t, ht, hi, ih hi (h.2 t ht)⟩

/-- When the guard is what the property needs of one call, it is what the property needs of a run.
The induction carries an invariant that implies the property. -/
theorem throughout_post_iff_along (hpost : ∀ s, inv s → post s)
    (hstep : ∀ s a, inv s → guard s a → ∃ t, step s a = some t ∧ inv t)
    (hneed : ∀ s a t, inv s → step s a = some t → post t → guard s a)
    {as : List α} {s : σ} (hs : inv s) :
    Throughout step post s as ↔ Along step guard s as := by
  induction as generalizing s with
  | nil => exact Iff.rfl
  | cons a as ih =>
    constructor
    · intro ⟨t, ht, hp, hrest⟩
      have hg := hneed s a t hs ht hp
      refine ⟨hg, fun u hu => ?_⟩
      obtain rfl : t = u := Option.some.inj (ht.symm.trans hu)
      obtain ⟨v, hv, hi⟩ := hstep s a hs hg
      obtain rfl : t = v := Option.some.inj (ht.symm.trans hv)
      exact (ih hi).mp hrest
    · intro ⟨hg, hrest⟩
      obtain ⟨t, ht, hi⟩ := hstep s a hs hg
      exact ⟨t, ht, hpost t hi, (ih hi).mpr (hrest t ht)⟩

theorem throughout_iff_along
    (hstep : ∀ s a, inv s → (guard s a ↔ ∃ t, step s a = some t ∧ inv t))
    {as : List α} {s : σ} (hs : inv s) :
    Throughout step inv s as ↔ Along step guard s as :=
  throughout_post_iff_along (fun _ h => h) (fun s a hi => (hstep s a hi).mp)
    (fun s a t hi ht hp => (hstep s a hi).mpr ⟨t, ht, hp⟩) hs

theorem Throughout.mono (himp : ∀ s, inv s → post s) {as : List α} {s : σ}
    (h : Throughout step inv s as) : Throughout step post s as := by
  induction as generalizing s with
  | nil => trivial
  | cons a as ih =>
    obtain ⟨t, ht, hi, hrest⟩ := h
    exact ⟨t, ht, himp t hi, ih hrest⟩

theorem foldlM_invariant (hstep : ∀ s a t, inv s → step s a = some t → inv t) {as : List α}
    {s t : σ} (hs : inv s) (h : as.foldlM step s = some t) : inv t := by
  induction as generalizing s with
  | nil =>
    obtain rfl := Option.some.inj h
    exact hs
  | cons a as ih =>
    rw [List.foldlM_cons] at h
    obtain ⟨u, hu, hrest⟩ := Option.bind_eq_some_iff.mp h
    exact ih (hstep s a u hs hu) hrest

theorem foldlM_simulates {τ : Type} (φ : σ → τ) (next : τ → α → τ) (as : List α)
    (hstep : ∀ s, ∀ a ∈ as, ∃ t, step s a = some t ∧ φ t = next (φ s) a) (s : σ) :
    ∃ t, as.foldlM step s = some t ∧ φ t = as.foldl next (φ s) := by
  induction as generalizing s with
  | nil => exact ⟨s, rfl, rfl⟩
  | cons a as ih =>
    obtain ⟨u, hu, hφ⟩ := hstep s a List.mem_cons_self
    obtain ⟨t, ht, hrest⟩ := ih (fun s b hb => hstep s b (List.mem_cons_of_mem a hb)) u
    refine ⟨t, ?_, ?_⟩
    · rw [List.foldlM_cons, hu]
      exact ht
    · rw [hrest, hφ, List.foldl_cons]

theorem foldlM_invariant_of_along
    (hstep : ∀ s a t, inv s → guard s a → step s a = some t → inv t) {as : List α} {s t : σ}
    (hs : inv s) (hguard : Along step guard s as) (h : as.foldlM step s = some t) : inv t := by
  induction as generalizing s with
  | nil =>
    obtain rfl := Option.some.inj h
    exact hs
  | cons a as ih =>
    rw [List.foldlM_cons] at h
    obtain ⟨u, hu, hrest⟩ := Option.bind_eq_some_iff.mp h
    exact ih (hstep s a u hs hguard.1 hu) (hguard.2 u hu) hrest

theorem exists_run (measure : σ → Nat) {final : σ → Prop}
    (hstep : ∀ s, inv s → ¬ final s → ∃ a t, step s a = some t ∧ inv t ∧ measure t < measure s)
    {s : σ} (hs : inv s) :
    ∃ (as : List α) (t : σ), as.foldlM step s = some t ∧ inv t ∧ final t := by
  induction hn : measure s using Nat.strongRecOn generalizing s with
  | ind n ih =>
    by_cases hfinal : final s
    · exact ⟨[], s, rfl, hs, hfinal⟩
    · obtain ⟨a, t, ht, hinv, hlt⟩ := hstep s hs hfinal
      obtain ⟨as, u, hu, hu'⟩ := ih (measure t) (hn ▸ hlt) hinv rfl
      refine ⟨a :: as, u, ?_, hu'⟩
      rw [List.foldlM_cons, ht]
      exact hu

end NanoVNA.GuardedRun
