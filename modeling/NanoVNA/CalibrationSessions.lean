import Mathlib.Algebra.Field.Rat
import Mathlib.Algebra.Order.Ring.Rat
import Mathlib.Data.List.Nodup
import NanoVNA.CalibrationLedger

namespace NanoVNA.CalibrationSessions

open NanoVNA.DeviceState NanoVNA.Calibration NanoVNA.CalibrationTerms NanoVNA.CalibrationFrame
  NanoVNA.CalibrationCollect NanoVNA.CalibrationLedger

variable {R : Type}

inductive CalCall (R : Type)
  | collect (type : Nat) (measured : Fin 2 → Nat → Sample R)
  | done

def ledgerCall (i : Nat) (l : Ledger R) : CalCall R → Ledger R
  | .collect type measured =>
    match calibrationSet[type]? with
    | none => l
    | some std => l.collect (measured std.src i) std
  | .done => l.done

def ledgerOf (i : Nat) (calls : List (CalCall R)) : Ledger R :=
  calls.foldl (ledgerCall i) .empty

def collects (captures : List (Capture R)) : List (CalCall R) :=
  captures.map fun c => .collect c.1.type c.2

section Order

theorem flagged_comm (st : CalStatus) (a b : Standard) :
    flagged (flagged st a) b = flagged (flagged st b) a := by
  cases a <;> cases b <;> rfl

theorem collectStandard_comm {a b : Standard} (hab : a ≠ b) (m n : Fin 2 → Nat → Sample R)
    (p : Properties R) :
    collectStandard b n (collectStandard a m p) = collectStandard a m (collectStandard b n p) := by
  rw [collectStandard_of_current b n (collectStandard_current a m p),
    collectStandard_of_current a m (collectStandard_current b n p),
    ← collectStandard_renewGrid a m p, ← collectStandard_renewGrid b n p,
    collectStandard_of_current a m (renewGrid_current p),
    collectStandard_of_current b n (renewGrid_current p)]
  simp only [flagged_comm _ a b]
  congr 1
  funext i
  exact Function.update_comm (fun h => hab (cell_injective h)) ..

theorem collectAll_perm {captures captures' : List (Capture R)} (h : captures.Perm captures')
    (hnodup : (captures.map Prod.fst).Nodup) (s : Vna R) :
    collectAll captures s = collectAll captures' s := by
  refine h.foldl_eq' (fun x hx y hy s => ?_) s
  simp only [calCollect_type]
  by_cases hxy : x.1 = y.1
  · rw [List.inj_on_of_nodup_map hnodup hx hy hxy]
  · rw [collectStandard_comm hxy]

end Order

variable [Field R] [LinearOrder R]

def calCall (s : Vna R) : CalCall R → Vna R
  | .collect type measured => calCollect type measured s
  | .done => calDone s

def calRun (s : Vna R) (calls : List (CalCall R)) : Vna R := calls.foldl calCall s

theorem calRun_collects (s : Vna R) (captures : List (Capture R)) :
    calRun s (collects captures) = collectAll captures s := by
  rw [calRun, collects, List.foldl_map]
  rfl

theorem calRun_append (s : Vna R) (calls calls' : List (CalCall R)) :
    calRun s (calls ++ calls') = calRun (calRun s calls) calls' := List.foldl_append ..

/-- The state at a point is that of a ledger. A grid that the calibration was not collected on is
renewed by the first capture. -/
structure Described (i : Nat) (l : Ledger R) (p : Properties R) : Prop where
  point : i < p.sweepPoints
  shown : Shown l p.calStatus
  held : Held l (p.calData i)
  grid : GridCurrent p ∨ l = .empty

variable {i : Nat} {l : Ledger R} {s : Vna R}

theorem described_collect (h : Described i l s.props) (std : Standard)
    (measured : Fin 2 → Nat → Sample R) :
    Described i (l.collect (measured std.src i) std) (collectStandard std measured s.props) := by
  have hshown : Shown l (renewGrid s.props).calStatus := by
    obtain hgrid | hempty := h.grid
    · rw [renewGrid_of_current hgrid]
      exact h.shown
    · obtain hsame | hzero := renewGrid_cases s.props
      · rw [hsame]
        exact h.shown
      · rw [hzero, hempty]
        exact ⟨rfl, rfl, rfl, rfl, rfl, rfl, rfl, rfl⟩
  refine ⟨?_, shown_collect hshown std _, ?_, .inl (collectStandard_current ..)⟩
  · rw [collectStandard_sweepPoints]
    exact h.point
  · rw [collectStandard_calData]
    exact held_collect h.held std _

theorem described_done (h : Described i l s.props) : Described i l.done (calDone s).props := by
  obtain ⟨hstatus, hcells⟩ := calDone_terms h.point
  refine ⟨?_, ?_, ?_, ?_⟩
  · rw [framed_sweepPoints (framed_calDone s)]
    exact h.point
  · rw [hstatus]
    exact shown_done h.shown
  · rw [hcells]
    exact held_done h.shown h.held
  · refine h.grid.imp (gridCurrent_framed (framed_calDone s)) fun hempty => ?_
    rw [hempty]
    rfl

theorem described_call (h : Described i l s.props) (call : CalCall R) :
    Described i (ledgerCall i l call) (calCall s call).props := by
  cases call with
  | done => exact described_done h
  | collect type measured =>
    simp only [ledgerCall, calCall, calCollect]
    cases calibrationSet[type]? with
    | none => exact h
    | some std => exact described_collect h std measured

theorem described_run (h : Described i l s.props) (calls : List (CalCall R)) :
    Described i (calls.foldl (ledgerCall i) l) (calRun s calls).props := by
  induction calls generalizing l s with
  | nil => exact h
  | cons call calls ih => exact ih (described_call h call)

/-- From a cleared status, `cal_done` makes its terms of the captures in the ledger of each point,
and the order in which different standards are collected does not matter. -/
theorem terms_of_history (hclear : Shown (.empty : Ledger R) s.props.calStatus) :
    (∀ calls, ∀ i < s.props.sweepPoints,
      let c := (calDone (calRun s calls)).props.calData i
      let l := ledgerOf i calls
      c Term.ed.cell = l.ed ∧ c Term.ex.cell = l.ex ∧
        (l.reflectionStale = false → (c Term.es.cell, c Term.er.cell) = l.reflection) ∧
        (l.transmissionStale = false → c Term.et.cell = l.et)) ∧
      ∀ before after, ∀ captures captures' : List (Capture R), captures.Perm captures' →
        (captures.map Prod.fst).Nodup →
        calRun s (before ++ collects captures ++ after) =
          calRun s (before ++ collects captures' ++ after) := by
  constructor
  · intro calls i hi
    have hstart : Described i .empty s.props :=
      ⟨hi, hclear, ⟨nofun, nofun, nofun, nofun, nofun, nofun, nofun⟩, .inr rfl⟩
    obtain ⟨hpoint, hshown, hheld, _⟩ := described_run hstart calls
    have hterms := terms_ledger hshown hheld
    rw [← (calDone_terms hpoint).2] at hterms
    exact hterms
  · intro before after captures captures' hperm hnodup
    simp only [calRun_append, calRun_collects]
    rw [collectAll_perm hperm hnodup]

def realCapture (std : Standard) (x : ℚ) : CalCall ℚ := .collect std.type fun _ _ => ⟨x, 0⟩

def firstSession : List (CalCall ℚ) :=
  [realCapture .load 1, realCapture .open_ 3, realCapture .short (1 / 3), realCapture .thru 2]

theorem terms_of_firstSession :
    let c := (calDone (calRun (defaultVna ℚ .f072) firstSession)).props.calData 0
    c Term.ed.cell = ⟨1, 0⟩ ∧ c Term.ex.cell = ⟨0, 0⟩ ∧
      (c Term.es.cell, c Term.er.cell) = (⟨1 / 2, 0⟩, ⟨1, 0⟩) ∧ c Term.et.cell = ⟨1 / 2, 0⟩ := by
  obtain ⟨hed, hex, hreflection, htransmission⟩ := (terms_of_history (s := defaultVna ℚ .f072)
    ⟨rfl, rfl, rfl, rfl, rfl, rfl, rfl, rfl⟩).1 firstSession 0 (by decide)
  have hpair : (ledgerOf 0 firstSession).reflection = (⟨1 / 2, 0⟩, ⟨1, 0⟩) := by decide +kernel
  have het : (ledgerOf 0 firstSession).et = ⟨1 / 2, 0⟩ := by decide +kernel
  exact ⟨hed, hex, (hreflection rfl).trans hpair, (htransmission rfl).trans het⟩

/-- After `cal_done` a new OPEN is used without the SHORT before it, a new LOAD leaves the source
match of the old one, and a new ISOLN the transmission tracking. -/
theorem recollected_keeps_old_terms :
    (let calls := firstSession ++ [.done, realCapture .open_ 3]
      let c := (calDone (calRun (defaultVna ℚ .f072) calls)).props.calData 0
      c Term.es.cell ≠ esOf ⟨1, 0⟩ ⟨3, 0⟩ ⟨1 / 3, 0⟩) ∧
      (let calls := firstSession ++ [.done, realCapture .load 0, realCapture .isoln 1]
        let c := (calDone (calRun (defaultVna ℚ .f072) calls)).props.calData 0
        c Term.es.cell ≠ esOf ⟨0, 0⟩ ⟨3, 0⟩ ⟨1 / 3, 0⟩ ∧ c Term.et.cell ≠ etOf ⟨1, 0⟩ ⟨2, 0⟩) := by
  decide +kernel

end NanoVNA.CalibrationSessions
