import NanoVNA.TiffFiles
import NanoVNA.TiffReader

namespace NanoVNA.TiffOffsets

open NanoVNA.DeviceState NanoVNA.PackBits NanoVNA.ScreenColors NanoVNA.SpiBuffer
open NanoVNA.TiffFiles NanoVNA.TiffReader

def expandedScreen (board : Board) (screen : Screen) : List UInt8 :=
  (List.range (lcdHeight board)).flatMap fun y => expandedRow (lcdWidth board) y screen

def stripPixels (file : List UInt8) : Option (List UInt8) := do
  let width ← imageWidth file
  let length ← imageLength file
  let offset ← stripOffsets file
  let (pixels, _) ← unpackbits (width * length * 3) (file.drop offset)
  some pixels

structure SelfConsistent (board : Board) (screen : Screen) (file : List UInt8) : Prop where
  bits : bitsPerSample file = some [8, 8, 8]
  strip : stripOffsets file = some (tifHeader board).length
  pixels : stripPixels file = some (expandedScreen board screen)

/-- The header of the first packet: it stands for one byte alone, or for copies. -/
def FirstHeader (dest : List UInt8) : Prop :=
  ∃ header rest, dest = header :: rest ∧ (header = 0 ∨ 129 ≤ header.toNat)

theorem FirstHeader.append {dest : List UInt8} (h : FirstHeader dest) (more : List UInt8) :
    FirstHeader (dest ++ more) := by
  obtain ⟨header, rest, rfl, hheader⟩ := h
  exact ⟨header, rest ++ more, rfl, hheader⟩

theorem FirstHeader.set {dest : List UInt8} (h : FirstHeader dest) {place : Nat} (hplace : place ≠ 0)
    (byte : UInt8) : FirstHeader (dest.set place byte) := by
  obtain ⟨header, rest, rfl, hheader⟩ := h
  obtain ⟨place, rfl⟩ := Nat.exists_eq_succ_of_ne_zero hplace
  exact ⟨header, rest.set place byte, rfl, hheader⟩

theorem run_header {copies : Nat} (hlo : 1 ≤ copies) (hhi : copies ≤ 127) :
    129 ≤ (-(UInt8.ofNat copies)).toNat := by
  have hall : ∀ k : Fin 127, 129 ≤ (-(UInt8.ofNat (k + 1))).toNat := by decide
  have h := hall ⟨copies - 1, by omega⟩
  rwa [Nat.sub_add_cancel hlo] at h

theorem firstHeader_packWrite (c : UInt8) {rle : Nat} (hrle : rle ≤ 127) {st : Pack}
    (h : FirstHeader st.dest) : FirstHeader (packWrite c rle st).dest := by
  by_cases hjoin : st.sz ≠ 0 ∧ rle < 2
  · rw [packWrite_join c hjoin.1 hjoin.2]
    exact (h.append [c]).set hjoin.1 _
  · obtain rfl | hpos := Nat.eq_zero_or_pos rle
    · rw [packWrite_open c (by omega)]
      exact h.append _
    · rw [packWrite_run c hpos (by omega)]
      exact h.append _

theorem firstHeader_packWrite_start (c : UInt8) {rle : Nat} (hrle : rle ≤ 127) :
    FirstHeader (packWrite c rle ⟨0, 0, []⟩).dest := by
  obtain rfl | hpos := Nat.eq_zero_or_pos rle
  · rw [packWrite_open c rfl]
    exact ⟨0, [c], rfl, .inl rfl⟩
  · rw [packWrite_run c hpos fun h => absurd rfl h]
    exact ⟨_, [c], rfl, .inr (run_header hpos hrle)⟩

theorem firstHeader_packLoop (size : Nat) (source : List UInt8 → Nat → UInt8) {rounds : Nat}
    {st : Pack} (h : FirstHeader st.dest) : FirstHeader (packLoop size source rounds st).dest := by
  induction rounds generalizing st with
  | zero => exact h
  | succ rounds ih =>
    rw [packLoop]
    split
    · exact ih (firstHeader_packWrite _ (copiesAt_le ..) h)
    · exact h

theorem firstHeader_packbits (source : List UInt8 → Nat → UInt8) {size : Nat} (h : 0 < size) :
    FirstHeader (packbits source size) := by
  obtain ⟨rounds, rfl⟩ := Nat.exists_eq_succ_of_ne_zero (Nat.ne_of_gt h)
  rw [packbits, packLoop, if_pos (show 0 < rounds + 1 - (⟨0, 0, []⟩ : Pack).i from h)]
  exact firstHeader_packLoop _ _ (firstHeader_packWrite_start _ (copiesAt_le ..))

section File

variable (board : Board) (mark : UInt16) (screen : Screen) (m : Memory)

theorem firstHeader_saveRows :
    FirstHeader (saveRows board mark (lcdHeight board) 0 screen m) := by
  have hwidth : 0 < 3 * lcdWidth board := by
    cases board <;> decide
  have hrows : ∃ rows, lcdHeight board = rows + 1 := by
    cases board
    · exact ⟨239, rfl⟩
    · exact ⟨319, rfl⟩
  obtain ⟨rows, hrows⟩ := hrows
  rw [hrows, saveRows]
  exact (firstHeader_packbits _ hwidth).append _

theorem complete_tifHeader : Complete (tifHeader board) := by
  cases board <;> exact ⟨by decide, by decide⟩

theorem stripOffsets_saveTiff :
    stripOffsets (saveTiff board mark screen m) = some ((tifHeader board).length + 6) := by
  rw [stripOffsets, saveTiff, value_append _ (complete_tifHeader board)]
  cases board <;> decide

theorem shortsAt_append {board : Board} (rest : List UInt8) :
    shortsAt (tifHeader board ++ rest) 34 =
      [u16 (tifHeader board ++ rest) 98, u16 (tifHeader board ++ rest) 100,
        u16 (tifHeader board ++ rest) 102] := by
  have hcount : u32 (tifHeader board) 38 = 3 := by
    cases board <;> decide
  have hbase : u32 (tifHeader board) 42 = 98 := by
    cases board <;> decide
  have hroom := length_tifHeader board
  rw [shortsAt, u32_append rest (by omega), u32_append rest (by omega), hcount, hbase]
  rfl

/-- The bits per sample are read where the first packed bytes stand. -/
theorem bitsPerSample_saveTiff : bitsPerSample (saveTiff board mark screen m) ≠ some [8, 8, 8] := by
  have hentry : entryOf (tifHeader board) 258 = some 34 := by
    cases board <;> decide
  obtain ⟨header, rest, hrows, hheader⟩ := firstHeader_saveRows board mark screen m
  have hroom := length_tifHeader board
  have hfirst : (tifHeader board ++ header :: rest).getD 98 0 = header := by
    rw [List.getD_append_right _ _ _ _ (by omega), hroom]
    rfl
  rw [bitsPerSample, saveTiff, hrows, entryOf_append _ (complete_tifHeader board), hentry,
    Option.map_some, shortsAt_append]
  intro h
  have hbits : u16 (tifHeader board ++ header :: rest) 98 = 8 := by
    rw [Option.some.injEq, List.cons.injEq] at h
    exact h.1
  rw [u16, hfirst] at hbits
  obtain rfl | hbig := hheader
  · have hzero : (0 : UInt8).toNat = 0 := rfl
    omega
  · omega

theorem not_selfConsistent : ¬ SelfConsistent board screen (saveTiff board mark screen m) :=
  fun h => bitsPerSample_saveTiff board mark screen m h.bits

/-- The header promises six bytes that are never written: the packed rows start where the bits
per sample should be, before the strip the header announces. -/
theorem screenshot_offsets :
    ¬ SelfConsistent board screen (saveTiff board mark screen m) ∧
      bitsPerSample (saveTiff board mark screen m) ≠ some [8, 8, 8] ∧
      stripOffsets (saveTiff board mark screen m) = some ((tifHeader board).length + 6) :=
  ⟨not_selfConsistent board mark screen m, bitsPerSample_saveTiff board mark screen m,
    stripOffsets_saveTiff board mark screen m⟩

theorem black_screenshot_offsets :
    ¬ SelfConsistent .f072 (fun _ _ => 0) (saveTiff .f072 0 (fun _ _ => 0) fun _ => 0) :=
  not_selfConsistent .f072 0 (fun _ _ => 0) fun _ => 0

end File

end NanoVNA.TiffOffsets
