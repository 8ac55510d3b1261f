import NanoVNA.CalibrationCollect

namespace NanoVNA.CalibrationLedger

open NanoVNA.DeviceState NanoVNA.Calibration NanoVNA.CalibrationTerms NanoVNA.CalibrationCollect

variable {R : Type}

/-- The last captures of one point. OPEN and SHORT are kept together: collecting one of them after
terms were made of them begins a new pair. -/
structure Ledger (R : Type) where
  load : Option (Sample R)
  open_ : Option (Sample R)
  short : Option (Sample R)
  thru : Option (Sample R)
  isoln : Option (Sample R)
  reflectionDone : Bool
  reflectionStale : Bool
  transmissionDone : Bool
  transmissionStale : Bool

def Ledger.empty : Ledger R := ⟨none, none, none, none, none, false, false, false, false⟩

def Ledger.collect (l : Ledger R) (x : Sample R) : Standard → Ledger R
  | .load => { l with load := some x, reflectionStale := l.reflectionDone }
  | .open_ =>
    { l with open_ := some x, short := if l.reflectionDone then none else l.short
             reflectionDone := false, reflectionStale := false }
  | .short =>
    { l with short := some x, open_ := if l.reflectionDone then none else l.open_
             reflectionDone := false, reflectionStale := false }
  | .thru => { l with thru := some x, transmissionDone := false, transmissionStale := false }
  | .isoln => { l with isoln := some x, transmissionStale := l.transmissionDone }

def Ledger.done (l : Ledger R) : Ledger R :=
  { l with reflectionDone := l.open_.isSome || l.short.isSome, transmissionDone := l.thru.isSome }

section Terms

variable [Field R] (l : Ledger R)

def Ledger.ed : Sample R := l.load.getD ⟨0, 0⟩

def Ledger.ex : Sample R := l.isoln.getD ⟨0, 0⟩

variable [LinearOrder R]

def Ledger.reflection : Sample R × Sample R :=
  match l.open_, l.short with
  | some open_, some short =>
    (esOf l.ed open_ short, erOf (-1) l.ed (esOf l.ed open_ short) short)
  | some open_, none => (⟨0, 0⟩, erOf 1 l.ed ⟨0, 0⟩ open_)
  | none, some short => (⟨0, 0⟩, erOf (-1) l.ed ⟨0, 0⟩ short)
  | none, none => (⟨0, 0⟩, ⟨1, 0⟩)

def Ledger.et : Sample R :=
  match l.thru with
  | some thru => etOf l.ex thru
  | none => ⟨1, 0⟩

end Terms

structure Shown (l : Ledger R) (st : CalStatus) : Prop where
  load : st.load = l.load.isSome
  open_ : st.open_ = (l.open_.isSome && !l.reflectionDone)
  short : st.short = (l.short.isSome && !l.reflectionDone)
  thru : st.thru = (l.thru.isSome && !l.transmissionDone)
  isoln : st.isoln = l.isoln.isSome
  es : st.es = (l.open_.isSome && l.short.isSome && l.reflectionDone)
  er : st.er = ((l.open_.isSome || l.short.isSome) && l.reflectionDone)
  et : st.et = (l.thru.isSome && l.transmissionDone)

/-- The cells of a point hold the captures of a ledger, or the terms made of them. -/
structure Held [Field R] [LinearOrder R] (l : Ledger R) (c : Point R) : Prop where
  load : ∀ x ∈ l.load, c Standard.load.cell = x
  open_ : l.reflectionDone = false → ∀ x ∈ l.open_, c Standard.open_.cell = x
  short : l.reflectionDone = false → ∀ x ∈ l.short, c Standard.short.cell = x
  thru : l.transmissionDone = false → ∀ x ∈ l.thru, c Standard.thru.cell = x
  isoln : ∀ x ∈ l.isoln, c Standard.isoln.cell = x
  reflection : l.reflectionDone = true → l.reflectionStale = false →
    (c Term.es.cell, c Term.er.cell) = l.reflection
  transmission : l.transmissionDone = true → l.transmissionStale = false → c Term.et.cell = l.et

variable {l : Ledger R} {st : CalStatus} {c : Point R}

theorem shown_collect (h : Shown l st) (std : Standard) (x : Sample R) :
    Shown (l.collect x std) (flagged st std) := by
  obtain ⟨hload, hopen, hshort, hthru, hisoln, hes, her, het⟩ := h
  cases std with
  | load => exact ⟨rfl, hopen, hshort, hthru, hisoln, hes, her, het⟩
  | isoln => exact ⟨hload, hopen, hshort, hthru, rfl, hes, her, het⟩
  | thru => exact ⟨hload, hopen, hshort, rfl, hisoln, hes, her, (Bool.and_false _).symm⟩
  | open_ =>
    refine ⟨hload, rfl, hshort.trans ?_, hthru, hisoln, (Bool.and_false _).symm,
      (Bool.and_false _).symm, het⟩
    simp only [Ledger.collect]
    cases l.reflectionDone <;> simp
  | short =>
    refine ⟨hload, hopen.trans ?_, rfl, hthru, hisoln, (Bool.and_false _).symm,
      (Bool.and_false _).symm, het⟩
    simp only [Ledger.collect]
    cases l.reflectionDone <;> simp

theorem shown_done (h : Shown l st) : Shown l.done (doneStatus st) := by
  obtain ⟨hload, hopen, hshort, hthru, hisoln, hes, her, het⟩ := h
  refine ⟨hload, ?_, ?_, ?_, hisoln, ?_, ?_, ?_⟩
  · simp only [doneStatus, reflectionStatus, Ledger.done]
    cases l.open_ <;> simp
  · simp only [doneStatus, reflectionStatus, Ledger.done]
    cases l.short <;> simp
  · simp only [doneStatus, Ledger.done]
    cases l.thru <;> simp
  · simp only [doneStatus, reflectionStatus, Ledger.done, hes, hopen, hshort]
    cases l.open_ <;> cases l.short <;> cases l.reflectionDone <;> rfl
  · simp only [doneStatus, reflectionStatus, Ledger.done, her, hopen, hshort]
    cases l.open_ <;> cases l.short <;> cases l.reflectionDone <;> rfl
  · simp only [doneStatus, reflectionStatus, Ledger.done, het, hthru]
    cases l.thru <;> cases l.transmissionDone <;> rfl

variable [Field R] [LinearOrder R]

theorem held_collect (h : Held l c) (std : Standard) (x : Sample R) :
    Held (l.collect x std) (Function.update c std.cell x) := by
  obtain ⟨hload, hopen, hshort, hthru, hisoln, hreflection, htransmission⟩ := h
  cases std with
  | load =>
    refine ⟨?_, hopen, hshort, hthru, hisoln, ?_, htransmission⟩
    · intro y hy
      exact Option.some.inj hy
    · intro hdone hstale
      cases hdone.symm.trans hstale
  | isoln =>
    refine ⟨hload, hopen, hshort, hthru, ?_, hreflection, ?_⟩
    · intro y hy
      exact Option.some.inj hy
    · intro hdone hstale
      cases hdone.symm.trans hstale
  | thru =>
    refine ⟨hload, hopen, hshort, ?_, hisoln, hreflection, nofun⟩
    intro _ y hy
    exact Option.some.inj hy
  | open_ =>
    refine ⟨hload, ?_, ?_, hthru, hisoln, nofun, htransmission⟩
    · intro _ y hy
      exact Option.some.inj hy
    · intro _ y hy
      cases hdone : l.reflectionDone with
      | true => simp [Ledger.collect, hdone] at hy
      | false =>
        simp only [Ledger.collect, hdone, Bool.false_eq_true, if_false] at hy
        exact hshort hdone y hy
  | short =>
    refine ⟨hload, ?_, ?_, hthru, hisoln, nofun, htransmission⟩
    · intro _ y hy
      cases hdone : l.reflectionDone with
      | true => simp [Ledger.collect, hdone] at hy
      | false =>
        simp only [Ledger.collect, hdone, Bool.false_eq_true, if_false] at hy
        exact hopen hdone y hy
    · intro _ y hy
      exact Option.some.inj hy

section Done

variable (hst : Shown l st) (hc : Held l c)
include hst hc

theorem edTerm_ledger : edTerm st c = l.ed := by
  unfold edTerm Ledger.ed
  rw [hst.load]
  cases hl : l.load with
  | none => rfl
  | some x => exact hc.load x hl

theorem exTerm_ledger : exTerm st c = l.ex := by
  unfold exTerm Ledger.ex
  rw [hst.isoln]
  cases hl : l.isoln with
  | none => rfl
  | some x => exact hc.isoln x hl

theorem reflectionTerms_ledger (h : l.reflectionStale = false) :
    reflectionTerms st l.ed c = l.reflection := by
  have hreflection := fun hdone => hc.reflection hdone h
  have hopen := hc.open_
  have hshort := hc.short
  unfold reflectionTerms
  unfold Ledger.reflection at hreflection ⊢
  rw [hst.open_, hst.short, hst.es, hst.er]
  cases hdone : l.reflectionDone with
  | true =>
    have hcells := hreflection hdone
    cases ho : l.open_ <;> cases hs : l.short <;> simp_all
  | false =>
    cases ho : l.open_ <;> cases hs : l.short <;> simp_all

theorem etTerm_ledger (h : l.transmissionStale = false) : etTerm st l.ex c = l.et := by
  have htransmission := fun hdone => hc.transmission hdone h
  unfold etTerm
  unfold Ledger.et at htransmission ⊢
  rw [hst.thru, hst.et]
  cases ht : l.thru with
  | none => rfl
  | some x =>
    cases hdone : l.transmissionDone with
    | true =>
      have hcell := htransmission hdone
      rw [ht] at hcell
      exact hcell
    | false => exact congrArg (etOf l.ex) (hc.thru hdone x ht)

theorem terms_ledger :
    let c' := terms st c
    c' Term.ed.cell = l.ed ∧ c' Term.ex.cell = l.ex ∧
      (l.reflectionStale = false → (c' Term.es.cell, c' Term.er.cell) = l.reflection) ∧
      (l.transmissionStale = false → c' Term.et.cell = l.et) := by
  have hed := edTerm_ledger hst hc
  have hex := exTerm_ledger hst hc
  refine ⟨hed, hex, fun hstale => ?_, fun hstale => ?_⟩
  · have hreflection := reflectionTerms_ledger hst hc hstale
    rw [← hed] at hreflection
    exact hreflection
  · have htransmission := etTerm_ledger hst hc hstale
    rw [← hex] at htransmission
    exact htransmission

theorem held_done : Held l.done (terms st c) := by
  obtain ⟨hed, hex, hreflection, htransmission⟩ := terms_ledger hst hc
  refine ⟨?_, ?_, ?_, ?_, ?_, fun _ => hreflection, fun _ => htransmission⟩
  · intro x hx
    have hload : l.load = some x := hx
    rw [Ledger.ed, hload] at hed
    exact hed
  · intro hdone x hx
    rw [Ledger.done] at hdone hx
    rw [hx] at hdone
    cases hdone
  · intro hdone x hx
    rw [Ledger.done] at hdone hx
    rw [hx, Option.isSome_some, Bool.or_true] at hdone
    cases hdone
  · intro hdone x hx
    rw [Ledger.done] at hdone hx
    rw [hx] at hdone
    cases hdone
  · intro x hx
    have hisoln : l.isoln = some x := hx
    rw [Ledger.ex, hisoln] at hex
    exact hex

end Done

end NanoVNA.CalibrationLedger
