import Mathlib.Data.List.Find
import Mathlib.Data.List.GetD

namespace NanoVNA.TiffReader

def u16 (file : List UInt8) (offset : Nat) : Nat :=
  (file.getD offset 0).toNat + 256 * (file.getD (offset + 1) 0).toNat

def u32 (file : List UInt8) (offset : Nat) : Nat :=
  u16 file offset + 65536 * u16 file (offset + 2)

/-- The offsets of the entries of the first directory, in a file with the low byte first. -/
def entries (file : List UInt8) : List Nat :=
  (List.range (u16 file (u32 file 4))).map fun i => u32 file 4 + 2 + 12 * i

def entryOf (file : List UInt8) (tag : Nat) : Option Nat :=
  (entries file).find? fun entry => u16 file entry = tag

def shortType : Nat := 3

def valueAt (file : List UInt8) (entry : Nat) : Nat :=
  if u16 file (entry + 2) = shortType then u16 file (entry + 8) else u32 file (entry + 8)

/-- Shorts that do not fit into the entry stand at the offset it gives. -/
def shortsAt (file : List UInt8) (entry : Nat) : List Nat :=
  let count := u32 file (entry + 4)
  let base := if count ≤ 2 then entry + 8 else u32 file (entry + 8)
  (List.range count).map fun i => u16 file (base + 2 * i)

def imageWidth (file : List UInt8) : Option Nat := (entryOf file 256).map (valueAt file)

def imageLength (file : List UInt8) : Option Nat := (entryOf file 257).map (valueAt file)

def bitsPerSample (file : List UInt8) : Option (List Nat) := (entryOf file 258).map (shortsAt file)

def stripOffsets (file : List UInt8) : Option Nat := (entryOf file 273).map (valueAt file)

section Append

variable {header : List UInt8} (rest : List UInt8)

theorem u16_append {offset : Nat} (h : offset + 2 ≤ header.length) :
    u16 (header ++ rest) offset = u16 header offset := by
  rw [u16, List.getD_append _ _ _ _ (by omega), List.getD_append _ _ _ _ (by omega), u16]

theorem u32_append {offset : Nat} (h : offset + 4 ≤ header.length) :
    u32 (header ++ rest) offset = u32 header offset := by
  rw [u32, u16_append rest (by omega), u16_append rest (by omega), u32]

def Complete (header : List UInt8) : Prop :=
  8 ≤ header.length ∧ u32 header 4 + 2 + 12 * u16 header (u32 header 4) ≤ header.length

theorem entries_append (h : Complete header) : entries (header ++ rest) = entries header := by
  have hroom := h.2
  rw [entries, u32_append rest h.1, u16_append rest (by omega), entries]

theorem entry_room (h : Complete header) {entry : Nat} (hentry : entry ∈ entries header) :
    entry + 12 ≤ header.length := by
  have hroom := h.2
  obtain ⟨i, hi, rfl⟩ := List.mem_map.mp hentry
  rw [List.mem_range] at hi
  omega

theorem entryOf_append (h : Complete header) (tag : Nat) :
    entryOf (header ++ rest) tag = entryOf header tag := by
  rw [entryOf, entries_append rest h, entryOf]
  apply List.find?_congr
  intro entry hentry
  have hroom := entry_room h hentry
  rw [u16_append rest (by omega)]

theorem valueAt_append {entry : Nat} (h : entry + 12 ≤ header.length) :
    valueAt (header ++ rest) entry = valueAt header entry := by
  rw [valueAt, u16_append rest (by omega), u16_append rest (by omega), u32_append rest h, valueAt]

theorem value_append (h : Complete header) (tag : Nat) :
    (entryOf (header ++ rest) tag).map (valueAt (header ++ rest)) =
      (entryOf header tag).map (valueAt header) := by
  rw [entryOf_append rest h]
  cases hfind : entryOf header tag with
  | none => rfl
  | some entry =>
    have hroom := entry_room h (List.mem_of_find?_eq_some hfind)
    rw [Option.map_some, Option.map_some, valueAt_append rest hroom]

end Append

end NanoVNA.TiffReader
