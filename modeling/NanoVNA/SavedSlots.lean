import NanoVNA.SweepGrid

namespace NanoVNA.SavedSlots

open NanoVNA.DeviceState NanoVNA.SweepGrid

variable {R : Type}

def saveareaMax : Board → Nat
  | .f072 => 4
  | .f303 => 7

def getProperties (board : Board) (id : Nat) (s : Vna R) : Option (Properties R) :=
  if saveareaMax board ≤ id then none else s.slots id

/-- `granted` tells whether the flash semaphore was obtained in time. -/
def caldataRecall (board : Board) (id : Nat) (granted : Bool) (s : Vna R) : Int × Vna R :=
  let s := { s with lastsaveid := noSaveSlot }
  if id = noSaveSlot then (0, s)
  else if !granted then (-1, s)
  else
    match getProperties board id s with
    | none => (1, s)
    | some src => (0, { s with lastsaveid := id, props := src })

def loadProperties (board : Board) (id : Nat) (granted : Bool) (s : Vna R) : Int × Vna R :=
  let r := caldataRecall board id granted s
  (r.1, appMeasurementUpdateFrequencies r.2)

variable {board : Board}

theorem ne_noSaveSlot {id : Nat} (hid : id < saveareaMax board) : id ≠ noSaveSlot := by
  rintro rfl
  revert hid
  cases board <;> decide

theorem caldataRecall_some {s : Vna R} {id : Nat} (hid : id < saveareaMax board)
    {p : Properties R} (hslot : s.slots id = some p) :
    caldataRecall board id true s = (0, { s with lastsaveid := id, props := p }) := by
  simp [caldataRecall, ne_noSaveSlot hid, getProperties, Nat.not_le.mpr hid, hslot]

theorem caldataRecall_none {s : Vna R} {id : Nat} (hid : id < saveareaMax board)
    (hslot : s.slots id = none) :
    caldataRecall board id true s = (1, { s with lastsaveid := noSaveSlot }) := by
  simp [caldataRecall, ne_noSaveSlot hid, getProperties, Nat.not_le.mpr hid, hslot]

theorem saveareaMax_pos (board : Board) : 0 < saveareaMax board := by
  cases board <;> decide

theorem props_recallZero (board : Board) (s : Vna R) :
    (caldataRecall board 0 true s).2.props = (s.slots 0).getD s.props := by
  cases hslot : s.slots 0 with
  | none => rw [caldataRecall_none (saveareaMax_pos board) hslot]; rfl
  | some p => rw [caldataRecall_some (saveareaMax_pos board) hslot]; rfl

end NanoVNA.SavedSlots
