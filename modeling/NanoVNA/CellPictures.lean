import NanoVNA.CellTransfer
import NanoVNA.GridLayers

namespace NanoVNA.CellPictures

open NanoVNA.TraceCells (RenderCellCtx Buffer cellIndex Outside InCell)
open NanoVNA.Bresenham NanoVNA.CellTransfer NanoVNA.DoubleBuffer
open NanoVNA.GridLayers (Grid renderGrid mem_renderGrid)
open NanoVNA.DeviceState (Board)
open NanoVNA.PlotLayout (Area layoutOf)

def int16 (x : Int) : Int := x.bmod (2 ^ 16)

def uint32 (x : Int) : Int := x % 2 ^ 32

/-- A bitmap in memory, with rows of whole bytes and the leftmost pixel in the highest bit. -/
structure Bitmap where
  w : Nat
  h : Nat
  data : Nat → UInt8
  w_lt : w < 256
  h_lt : h < 256

def Bitmap.stride (bmp : Bitmap) : Nat := (bmp.w + 7) / 8

/-- A font: the rows of a wide one have two bytes, and `FONT_GET_HEIGHT` is the height of the normal
font also where the small one is printed. -/
structure Font where
  height : Nat
  fullHeight : Nat
  wide : Bool
  width : UInt8 → Nat
  data : UInt8 → Nat → UInt8
  height_le : height ≤ fullHeight
  fullHeight_lt : fullHeight < 256
  width_lt : ∀ ch, width ch < 256

def Font.glyph (font : Font) (ch : UInt8) : Bitmap where
  w := if font.wide ∧ font.width ch < 9 then 9 else font.width ch
  h := font.height
  data := font.data ch
  w_lt := by
    have := font.width_lt ch
    split <;> omega
  h_lt := font.height_le.trans_lt font.fullHeight_lt

section Code

variable (rcx : RenderCellCtx) (bmp : Bitmap) (c : UInt16)

instance (p : Int × Int) : Decidable (InCell rcx p) := inferInstanceAs (Decidable ((_ ∧ _) ∧ _ ∧ _))

/-- The variables of `cell_blit_bitmap`, and what it has written. -/
structure Blit where
  ptr : Nat
  bits : UInt8
  writes : List (Nat × UInt16)

def fetch (s : Blit) (r : Nat) : Blit :=
  if r % 8 = 0 then { s with ptr := s.ptr + 1, bits := bmp.data s.ptr } else s

/-- A pixel left of the cell is a large number without its sign. -/
def blitPixel (x : Int) (y : Nat) (s : Blit) (r : Nat) : Blit :=
  let s := fetch bmp s r
  { s with
    bits := s.bits <<< 1
    writes :=
      if s.bits &&& 0x80 = 0 ∨ (rcx.w : Int) ≤ uint32 (x + r) then s.writes
      else s.writes ++ [(cellIndex rcx (uint32 (x + r)).toNat y, c)] }

def blitRow (x : Int) (s : Blit) (y : Nat) : Blit :=
  (List.range bmp.w).foldl (blitPixel rcx bmp c x y) s

/-- Rows above the cell are skipped in the bitmap, those below it are not drawn. -/
def cellBlitBitmap (x y : Int) : List (Nat × UInt16) :=
  let x1 := int16 (x + bmp.w)
  let y1 := int16 (y + bmp.h)
  if x1 < 0 ∨ y1 < 0 then []
  else
    let bottom := if (rcx.h : Int) ≤ y1 then rcx.h else y1.toNat
    ((List.range' y.toNat (bottom - y.toNat)).foldl (blitRow rcx bmp c x)
      ⟨(-y).toNat * bmp.stride, 0, []⟩).writes

/-- The test of markers and reference positions for an icon that does not reach the buffer. -/
def drawIcon (x y : Int) : List (Nat × UInt16) :=
  if uint32 (x + bmp.w) < rcx.cellWidth + bmp.w ∧ uint32 (y + bmp.h) < rcx.cellHeight + bmp.h then
    cellBlitBitmap rcx bmp c (int16 x) (int16 y)
  else []

structure CellPrintStream where
  x : Int
  writes : List (Nat × UInt16)

variable (font : Font)

/-- Characters right of the buffer are dropped. -/
def cellPut (y : Int) (ps : CellPrintStream) (ch : UInt8) : CellPrintStream :=
  if ps.x < rcx.cellWidth ∧ y < rcx.cellHeight then
    ⟨int16 (ps.x + font.width ch), ps.writes ++ cellBlitBitmap rcx (font.glyph ch) c ps.x y⟩
  else ps

def cellVprintf (x y : Int) (str : List UInt8) : List (Nat × UInt16) :=
  if (rcx.cellHeight + font.fullHeight : Int) ≤ uint32 (int16 y + font.fullHeight) ∨
      (rcx.cellWidth : Int) ≤ int16 x then []
  else (str.foldl (cellPut rcx c font (int16 y)) ⟨int16 x, []⟩).writes

def linePixel (p : Int × Int) : Option (Nat × UInt16) :=
  if InCell rcx p then some (cellIndex rcx p.1.toNat p.2.toNat, c) else none

def cellDrawline (x0 y0 x1 y1 : Int) : List (Nat × UInt16) :=
  if Outside rcx x0 y0 x1 y1 then [] else (line x0 y0 x1 y1).filterMap (linePixel rcx c)

inductive Item
  | line (x0 y0 x1 y1 : Int) (c : UInt16)
  | icon (x y : Int) (bmp : Bitmap) (c : UInt16)
  | text (x y : Int) (font : Font) (str : List UInt8) (c : UInt16)
  | grid (g : Grid) (c : UInt16)

def drawItem : Item → List (Nat × UInt16)
  | .line x0 y0 x1 y1 c =>
    cellDrawline rcx c (x0 - rcx.x0) (y0 - rcx.y0) (x1 - rcx.x0) (y1 - rcx.y0)
  | .icon x y bmp c => drawIcon rcx bmp c (x - rcx.x0) (y - rcx.y0)
  | .text x y font str c => cellVprintf rcx c font (x - rcx.x0) (y - rcx.y0) str
  | .grid g c => renderGrid rcx c g

end Code

section Pictures

def Bitmap.shows (bmp : Bitmap) (col row : Int) : Bool :=
  decide ((0 ≤ col ∧ col < bmp.w) ∧ 0 ≤ row ∧ row < bmp.h) &&
    (bmp.data (row.toNat * bmp.stride + col.toNat / 8)).toNat.testBit (7 - col.toNat % 8)

def Font.shows (font : Font) : List UInt8 → Int → Int → Bool
  | [], _, _ => false
  | ch :: str, col, row => (font.glyph ch).shows col row || font.shows str (col - font.width ch) row

def Item.shows : Item → Int → Int → Bool
  | .line x0 y0 x1 y1 _, x, y => decide ((x, y) ∈ Bresenham.line x0 y0 x1 y1)
  | .icon x0 y0 bmp _, x, y => bmp.shows (x - x0) (y - y0)
  | .text x0 y0 font str _, x, y => font.shows str (x - x0) (y - y0)
  | .grid g _, x, y => g.shows x y

def Item.color : Item → UInt16
  | .line _ _ _ _ c => c
  | .icon _ _ _ c => c
  | .text _ _ _ _ c => c
  | .grid _ c => c

def picture (background : UInt16) (items : List Item) (x y : Int) : UInt16 :=
  items.foldl (fun color item => if item.shows x y then item.color else color) background

end Pictures

section Words

theorem int16_eq {x : Int} (hlo : -(2 ^ 15) ≤ x) (hhi : x < 2 ^ 15) : int16 x = x := by
  unfold int16 Int.bmod
  dsimp only
  split <;> omega

theorem uint32_eq {x : Int} (hlo : 0 ≤ x) (hhi : x < 2 ^ 32) : uint32 x = x :=
  Int.emod_eq_of_lt hlo hhi

theorem uint32_lt_iff {x : Int} {n : Nat} (hlo : -(2 ^ 31) ≤ x) (hhi : x < 2 ^ 31)
    (hn : n < 2 ^ 31) : uint32 x < n ↔ 0 ≤ x ∧ x < n := by
  unfold uint32
  omega

def shifted (b : UInt8) (k : Nat) : UInt8 := (fun b : UInt8 => b <<< 1)^[k] b

theorem highest_bit (n : Fin 256) (k : Fin 8) :
    shifted (UInt8.ofNat n) k &&& 0x80 = 0 ↔ n.val.testBit (7 - k) = false := by
  revert n k
  decide +kernel

theorem shifted_bit (b : UInt8) {k : Nat} (hk : k < 8) :
    shifted b k &&& 0x80 = 0 ↔ b.toNat.testBit (7 - k) = false := by
  have h := highest_bit ⟨b.toNat, b.toNat_lt⟩ ⟨k, hk⟩
  rwa [UInt8.ofNat_toNat] at h

end Words

section Rows

variable {rcx : RenderCellCtx} {bmp : Bitmap} {c : UInt16}

/-- The pixel of a row that starts at `ptr`. -/
def lit (bmp : Bitmap) (ptr r : Nat) : Bool := (bmp.data (ptr + r / 8)).toNat.testBit (7 - r % 8)

/-- After some pixels of a row the pointer is behind the byte that was read last, which has been
shifted as often as there were pixels of it. -/
structure InRow (bmp : Bitmap) (ptr n : Nat) (s : Blit) : Prop where
  place : s.ptr = ptr + (n + 7) / 8
  byte : n % 8 ≠ 0 → s.bits = shifted (bmp.data (ptr + n / 8)) (n % 8)

theorem InRow.fetch {ptr n : Nat} {s : Blit} (h : InRow bmp ptr n s) :
    (fetch bmp s n).ptr = ptr + (n + 1 + 7) / 8 ∧
      (fetch bmp s n).bits = shifted (bmp.data (ptr + n / 8)) (n % 8) ∧
      (fetch bmp s n).writes = s.writes := by
  unfold CellPictures.fetch
  by_cases hfirst : n % 8 = 0
  · have hnext : (n + 1 + 7) / 8 = (n + 7) / 8 + 1 := by omega
    have hbyte : (n + 7) / 8 = n / 8 := by omega
    rw [if_pos hfirst, hfirst, hnext]
    exact ⟨by rw [h.place, Nat.add_assoc], by rw [h.place, hbyte]; rfl, rfl⟩
  · have hsame : (n + 1 + 7) / 8 = (n + 7) / 8 := by omega
    rw [if_neg hfirst, hsame]
    exact ⟨h.place, h.byte hfirst, rfl⟩

theorem InRow.blitPixel {ptr n : Nat} {s : Blit} (h : InRow bmp ptr n s) (x : Int) (y : Nat) :
    InRow bmp ptr (n + 1) (blitPixel rcx bmp c x y s n) := by
  obtain ⟨hptr, hbits, -⟩ := h.fetch
  refine ⟨hptr, fun hmore => ?_⟩
  have hcount : (n + 1) % 8 = n % 8 + 1 := by omega
  have hbyte : (n + 1) / 8 = n / 8 := by omega
  rw [hcount, hbyte, shifted, Function.iterate_succ_apply', ← shifted, ← hbits]
  rfl

theorem InRow.writes {ptr n : Nat} {s : Blit} (h : InRow bmp ptr n s) (x : Int) (y : Nat) :
    (CellPictures.blitPixel rcx bmp c x y s n).writes =
      if lit bmp ptr n = false ∨ (rcx.w : Int) ≤ uint32 (x + n) then s.writes
      else s.writes ++ [(cellIndex rcx (uint32 (x + n)).toNat y, c)] := by
  obtain ⟨-, hbits, hwrites⟩ := h.fetch
  have htest := shifted_bit (bmp.data (ptr + n / 8)) (Nat.mod_lt n (show 0 < 8 by decide))
  rw [← hbits] at htest
  simp only [CellPictures.blitPixel, hwrites]
  exact if_congr (or_congr_left htest) rfl rfl

theorem mem_blitPixels {s : Blit} (x : Int) (y n : Nat) {p : Nat × UInt16} :
    InRow bmp s.ptr n ((List.range n).foldl (blitPixel rcx bmp c x y) s) ∧
      (p ∈ ((List.range n).foldl (blitPixel rcx bmp c x y) s).writes ↔ p ∈ s.writes ∨
        ∃ r < n, lit bmp s.ptr r = true ∧ uint32 (x + r) < rcx.w ∧
          p = (cellIndex rcx (uint32 (x + r)).toNat y, c)) := by
  induction n with
  | zero => exact ⟨⟨rfl, fun h => absurd rfl h⟩, by simp⟩
  | succ n ih =>
    obtain ⟨hrow, hmem⟩ := ih
    rw [List.range_succ, List.foldl_append, List.foldl_cons, List.foldl_nil]
    refine ⟨hrow.blitPixel x y, ?_⟩
    rw [hrow.writes x y]
    simp only [Nat.lt_succ_iff_lt_or_eq, or_and_right, exists_or, exists_eq_left]
    split_ifs with hskip
    · rw [hmem]
      refine or_congr_right (or_iff_left ?_).symm
      rintro ⟨hlit, hlt, -⟩
      rcases hskip with hdark | hout
      · exact absurd hlit (by simp [hdark])
      · exact absurd hlt (not_lt.mpr hout)
    · rw [not_or, not_le, Bool.not_eq_false] at hskip
      rw [List.mem_append, List.mem_singleton, hmem, or_assoc]
      simp only [hskip.1, hskip.2, true_and]

variable (rcx) (bmp) (c)

theorem mem_blitRows {s : Blit} (x : Int) (y0 count : Nat) {p : Nat × UInt16} :
    ((List.range' y0 count).foldl (blitRow rcx bmp c x) s).ptr = s.ptr + count * bmp.stride ∧
      (p ∈ ((List.range' y0 count).foldl (blitRow rcx bmp c x) s).writes ↔ p ∈ s.writes ∨
        ∃ i < count, ∃ r < bmp.w, lit bmp (s.ptr + i * bmp.stride) r = true ∧
          uint32 (x + r) < rcx.w ∧ p = (cellIndex rcx (uint32 (x + r)).toNat (y0 + i), c)) := by
  induction count with
  | zero => simp
  | succ count ih =>
    obtain ⟨hptr, hmem⟩ := ih
    rw [List.range'_concat, List.foldl_append, List.foldl_cons, List.foldl_nil, Nat.one_mul]
    obtain ⟨hrow, hwrites⟩ := @mem_blitPixels rcx bmp c
      ((List.range' y0 count).foldl (blitRow rcx bmp c x) s) x (y0 + count) bmp.w p
    refine ⟨?_, ?_⟩
    · rw [blitRow, hrow.place, hptr, Nat.succ_mul, Nat.add_assoc]
      rfl
    · rw [blitRow, hwrites, hmem, hptr, or_assoc]
      simp only [Nat.lt_succ_iff_lt_or_eq, or_and_right, exists_or, exists_eq_left]

/-- Where a bitmap lies: the far ends do not leave the words of 16 bits either. -/
structure InReach (x y : Int) : Prop where
  left : -(2 ^ 15) ≤ x
  right : x + bmp.w < 2 ^ 15
  top : -(2 ^ 15) ≤ y
  bottom : y + bmp.h < 2 ^ 15

variable {bmp} in
theorem shows_within {col row : Int} (h : bmp.shows col row = true) :
    (0 ≤ col ∧ col < bmp.w) ∧ 0 ≤ row ∧ row < bmp.h :=
  of_decide_eq_true (Bool.and_eq_true_iff.mp h).1

theorem shows_natCast (r n : Nat) :
    bmp.shows r n = (decide (r < bmp.w ∧ n < bmp.h) && lit bmp (n * bmp.stride) r) := by
  simp [Bitmap.shows, lit]

theorem mem_cellBlitBitmap {x y : Int} (h : InReach bmp x y) {p : Nat × UInt16} :
    p ∈ cellBlitBitmap rcx bmp c x y ↔ ∃ px < rcx.w, ∃ py < rcx.h,
      bmp.shows (px - x) (py - y) = true ∧ p = (cellIndex rcx px py, c) := by
  have hw := bmp.w_lt
  have hh := bmp.h_lt
  obtain ⟨hleft, hright, htop, hbottom⟩ := h
  have hwidth : rcx.w < 2 ^ 16 := by
    have := rcx.end_lt
    omega
  unfold cellBlitBitmap
  rw [int16_eq (by omega) hright, int16_eq (by omega) hbottom]
  dsimp only
  by_cases hout : x + bmp.w < 0 ∨ y + bmp.h < 0
  · rw [if_pos hout]
    refine iff_of_false List.not_mem_nil ?_
    rintro ⟨px, -, py, -, hshows, -⟩
    obtain ⟨⟨-, hcol⟩, -, hrow⟩ := shows_within hshows
    omega
  rw [if_neg hout, (mem_blitRows rcx bmp c x _ _).2]
  refine or_iff_right List.not_mem_nil |>.trans ?_
  constructor
  · rintro ⟨i, hi, r, hr, hlit, hlt, rfl⟩
    rw [uint32_lt_iff (by omega) (by omega) (by omega)] at hlt
    rw [uint32_eq hlt.1 (by omega)]
    have hcol : (((x + r).toNat : Nat) : Int) - x = r := by omega
    have hrow : ((y.toNat + i : Nat) : Int) - y = ((-y).toNat + i : Nat) := by omega
    refine ⟨(x + r).toNat, by omega, y.toNat + i, by split at hi <;> omega, ?_, rfl⟩
    rw [hcol, hrow, shows_natCast, Nat.add_mul, hlit, Bool.and_true, decide_eq_true_eq]
    exact ⟨hr, by split at hi <;> omega⟩
  · rintro ⟨px, hpx, py, hpy, hshows, rfl⟩
    obtain ⟨⟨hcol, hcolw⟩, hrow, hrowh⟩ := shows_within hshows
    obtain ⟨r, hr⟩ := Int.eq_ofNat_of_zero_le hcol
    obtain ⟨n, hn⟩ := Int.eq_ofNat_of_zero_le hrow
    have hplace : (x + r).toNat = px := by omega
    have hline : y.toNat + (n - (-y).toNat) = py := by omega
    have hskipped : (-y).toNat + (n - (-y).toNat) = n := by omega
    rw [hr, hn, shows_natCast, Bool.and_eq_true] at hshows
    refine ⟨n - (-y).toNat, by split <;> omega, r, by omega, ?_, ?_, ?_⟩
    · rw [← Nat.add_mul, hskipped]
      exact hshows.2
    · rw [uint32_lt_iff (by omega) (by omega) (by omega)]
      omega
    · rw [uint32_eq (by omega) (by omega), hplace, hline]

end Rows

/-- The cells of the screen are small, and so is the screen. Their sizes are even. -/
structure OnScreen (rcx : RenderCellCtx) : Prop where
  cellWidth : rcx.cellWidth ≤ 64
  cellHeight : rcx.cellHeight ≤ 64
  x0 : rcx.x0 < 2 ^ 14
  y0 : rcx.y0 < 2 ^ 14
  evenX : 2 ∣ rcx.x0
  evenY : 2 ∣ rcx.y0

/-- Where an item may stand, as far as its place has to fit into a word of 16 bits. -/
def Item.Near : Item → Prop
  | .line _ _ _ _ _ => True
  | .icon x y _ _ => (-(2 ^ 14) ≤ x ∧ x < 2 ^ 14) ∧ -(2 ^ 14) ≤ y ∧ y < 2 ^ 14
  | .text x y _ _ _ => (-(2 ^ 14) ≤ x ∧ x < 2 ^ 14) ∧ -(2 ^ 14) ≤ y ∧ y < 2 ^ 14
  | .grid _ _ => True

section Items

variable {rcx : RenderCellCtx} (hcell : OnScreen rcx) (c : UInt16)

include hcell

/-- An icon that the test drops has no pixel in the cell. -/
theorem mem_drawIcon (bmp : Bitmap) {x y : Int} (hx : -(2 ^ 15) ≤ x ∧ x < 2 ^ 15)
    (hy : -(2 ^ 15) ≤ y ∧ y < 2 ^ 15) {p : Nat × UInt16} :
    p ∈ drawIcon rcx bmp c x y ↔ ∃ px < rcx.w, ∃ py < rcx.h,
      bmp.shows (px - x) (py - y) = true ∧ p = (cellIndex rcx px py, c) := by
  have hw := bmp.w_lt
  have hh := bmp.h_lt
  have hwidth := hcell.cellWidth
  have hheight := hcell.cellHeight
  have hguard : uint32 (x + bmp.w) < rcx.cellWidth + bmp.w ∧
      uint32 (y + bmp.h) < rcx.cellHeight + bmp.h ↔
      (0 ≤ x + bmp.w ∧ x < rcx.cellWidth) ∧ 0 ≤ y + bmp.h ∧ y < rcx.cellHeight := by
    unfold uint32
    omega
  unfold drawIcon
  by_cases hin : (0 ≤ x + bmp.w ∧ x < rcx.cellWidth) ∧ 0 ≤ y + bmp.h ∧ y < rcx.cellHeight
  · rw [if_pos (hguard.mpr hin), int16_eq hx.1 hx.2, int16_eq hy.1 hy.2]
    exact mem_cellBlitBitmap rcx bmp c ⟨hx.1, by omega, hy.1, by omega⟩
  · rw [if_neg (mt hguard.mp hin)]
    refine iff_of_false List.not_mem_nil ?_
    rintro ⟨px, hpx, py, hpy, hshows, -⟩
    obtain ⟨⟨hcol, hcolw⟩, hrow, hrowh⟩ := shows_within hshows
    have hxle := rcx.w_le
    have hyle := rcx.h_le
    omega

variable (font : Font)

omit hcell in
theorem shows_of_neg {str : List UInt8} {col : Int} (hcol : col < 0) (row : Int) :
    font.shows str col row = false := by
  induction str generalizing col with
  | nil => rfl
  | cons ch str ih =>
    have hglyph : (font.glyph ch).shows col row = false := by
      by_contra hshows
      have hwithin := (shows_within (Bool.not_eq_false _ |>.mp hshows)).1.1
      omega
    rw [Font.shows, hglyph, ih (by omega), Bool.or_self]

omit hcell in
theorem shows_rows {str : List UInt8} {col row : Int} (h : font.shows str col row = true) :
    0 ≤ row ∧ row < font.height := by
  induction str generalizing col with
  | nil => exact absurd h (by simp [Font.shows])
  | cons ch str ih =>
    rcases Bool.or_eq_true_iff.mp h with hglyph | hrest
    · exact (shows_within hglyph).2
    · exact ih hrest

theorem mem_cellPuts {y : Int} (hy : -(2 ^ 15) ≤ y ∧ y < rcx.cellHeight) {str : List UInt8}
    {ps : CellPrintStream} (hx : -(2 ^ 15) ≤ ps.x) {p : Nat × UInt16} :
    p ∈ (str.foldl (cellPut rcx c font y) ps).writes ↔ p ∈ ps.writes ∨
      ∃ px < rcx.w, ∃ py < rcx.h,
        font.shows str (px - ps.x) (py - y) = true ∧ p = (cellIndex rcx px py, c) := by
  have hwidth := hcell.cellWidth
  have hheight := hcell.cellHeight
  induction str generalizing ps with
  | nil => simp [Font.shows]
  | cons ch str ih =>
    rw [List.foldl_cons]
    by_cases hright : ps.x < rcx.cellWidth
    · have hch := font.width_lt ch
      have hglyph := (font.glyph ch).w_lt
      have hlines := (font.glyph ch).h_lt
      have hput : cellPut rcx c font y ps ch = ⟨ps.x + font.width ch,
          ps.writes ++ cellBlitBitmap rcx (font.glyph ch) c ps.x y⟩ := by
        rw [cellPut, if_pos ⟨hright, hy.2⟩, int16_eq (by omega) (by omega)]
      have hreach : InReach (font.glyph ch) ps.x y := ⟨hx, by omega, hy.1, by omega⟩
      have hnext : -(2 ^ 15) ≤ ps.x + font.width ch := by omega
      rw [hput]
      refine (ih hnext).trans ?_
      rw [List.mem_append, mem_cellBlitBitmap rcx _ c hreach]
      simp only [Font.shows, Bool.or_eq_true, or_assoc, sub_add_eq_sub_sub]
      refine or_congr_right ?_
      simp only [or_and_right, and_or_left, exists_or]
    · have hput : cellPut rcx c font y ps ch = ps := if_neg fun h => hright h.1
      rw [hput]
      refine (ih hx).trans (or_congr_right ?_)
      have hhidden (str : List UInt8) : ¬ ∃ px < rcx.w, ∃ py < rcx.h,
          font.shows str (px - ps.x) (py - y) = true ∧ p = (cellIndex rcx px py, c) := by
        rintro ⟨px, hpx, py, -, hshows, -⟩
        have hle := rcx.w_le
        rw [shows_of_neg font (by omega)] at hshows
        exact absurd hshows (by decide)
      exact iff_of_false (hhidden str) (hhidden (ch :: str))

theorem mem_cellVprintf {x y : Int} (hx : -(2 ^ 15) ≤ x ∧ x < 2 ^ 15)
    (hy : -(2 ^ 15) ≤ y ∧ y < 2 ^ 15) (str : List UInt8) {p : Nat × UInt16} :
    p ∈ cellVprintf rcx c font x y str ↔ ∃ px < rcx.w, ∃ py < rcx.h,
      font.shows str (px - x) (py - y) = true ∧ p = (cellIndex rcx px py, c) := by
  have hwidth := hcell.cellWidth
  have hheight := hcell.cellHeight
  have hlines := font.fullHeight_lt
  have hfull := font.height_le
  have hguard : ((rcx.cellHeight + font.fullHeight : Int) ≤ uint32 (y + font.fullHeight) ∨
      (rcx.cellWidth : Int) ≤ x) ↔
      y + font.fullHeight < 0 ∨ (rcx.cellHeight : Int) ≤ y ∨ (rcx.cellWidth : Int) ≤ x := by
    unfold uint32
    omega
  rw [cellVprintf, int16_eq hx.1 hx.2, int16_eq hy.1 hy.2]
  by_cases hout : y + font.fullHeight < 0 ∨ (rcx.cellHeight : Int) ≤ y ∨ (rcx.cellWidth : Int) ≤ x
  · rw [if_pos (hguard.mpr hout)]
    refine iff_of_false List.not_mem_nil ?_
    rintro ⟨px, hpx, py, hpy, hshows, -⟩
    obtain ⟨hrow, hrowh⟩ := shows_rows font hshows
    have hxle := rcx.w_le
    have hyle := rcx.h_le
    have hcol : (px : Int) - x < 0 := by omega
    rw [shows_of_neg font hcol] at hshows
    exact absurd hshows (by decide)
  · rw [if_neg (mt hguard.mp hout), mem_cellPuts hcell c font ⟨hy.1, by omega⟩ hx.1]
    exact or_iff_right List.not_mem_nil

end Items

section Lines

theorem step_shift (dx dy : Nat) (sx sy a b : Int) (p : Pen) :
    Bresenham.step dx dy sx sy ⟨p.x - a, p.y - b, p.err⟩ =
      ⟨(Bresenham.step dx dy sx sy p).x - a, (Bresenham.step dx dy sx sy p).y - b,
        (Bresenham.step dx dy sx sy p).err⟩ := by
  unfold Bresenham.step
  split_ifs <;> simp only [Pen.mk.injEq, and_true, true_and] <;> omega

theorem walk_shift (dx dy : Nat) (sx sy x1 y1 a b : Int) (steps : Nat) (p : Pen) :
    walk dx dy sx sy (x1 - a) (y1 - b) steps ⟨p.x - a, p.y - b, p.err⟩ =
      (walk dx dy sx sy x1 y1 steps p).map fun q => (q.1 - a, q.2 - b) := by
  induction steps generalizing p with
  | zero => rfl
  | succ steps ih =>
    rw [walk, walk, List.map_cons]
    simp only [sub_left_inj]
    split_ifs with hend
    · rfl
    · rw [step_shift, ih]

theorem line_shift (x0 y0 x1 y1 a b : Int) :
    line (x0 - a) (y0 - b) (x1 - a) (y1 - b) =
      (line x0 y0 x1 y1).map fun q => (q.1 - a, q.2 - b) := by
  simp only [line, sub_sub_sub_cancel_right]
  exact walk_shift _ _ _ _ x1 y1 a b _ ⟨x0, y0, _⟩

theorem mem_cellDrawline {rcx : RenderCellCtx} (c : UInt16) {x0 y0 x1 y1 : Int}
    {p : Nat × UInt16} :
    p ∈ cellDrawline rcx c x0 y0 x1 y1 ↔ ∃ px < rcx.w, ∃ py < rcx.h,
      ((px : Int), (py : Int)) ∈ line x0 y0 x1 y1 ∧ p = (cellIndex rcx px py, c) := by
  unfold cellDrawline
  by_cases hout : Outside rcx x0 y0 x1 y1
  · rw [if_pos hout]
    refine iff_of_false List.not_mem_nil ?_
    rintro ⟨px, hpx, py, hpy, hmem, -⟩
    exact TraceCells.not_inCell_of_outside rcx hout _ hmem ⟨⟨by simp, by simpa using hpx⟩,
      ⟨by simp, by simpa using hpy⟩⟩
  · rw [if_neg hout, List.mem_filterMap]
    constructor
    · rintro ⟨⟨px, py⟩, hmem, hpixel⟩
      rw [linePixel] at hpixel
      split at hpixel
      · rename_i hin
        obtain ⟨⟨hx, hxw⟩, hy, hyh⟩ := hin
        dsimp only at hx hxw hy hyh
        refine ⟨px.toNat, by omega, py.toNat, by omega, ?_, (Option.some.inj hpixel).symm⟩
        rwa [Int.toNat_of_nonneg hx, Int.toNat_of_nonneg hy]
      · exact absurd hpixel (by simp)
    · rintro ⟨px, hpx, py, hpy, hmem, rfl⟩
      refine ⟨_, hmem, if_pos ⟨⟨by simp, by simpa using hpx⟩, ⟨by simp, by simpa using hpy⟩⟩⟩

end Lines

section Cells

variable {rcx : RenderCellCtx} (hcell : OnScreen rcx)

include hcell in
theorem mem_drawItem {item : Item} (hnear : item.Near) {p : Nat × UInt16} :
    p ∈ drawItem rcx item ↔ ∃ px < rcx.w, ∃ py < rcx.h,
      item.shows (rcx.x0 + px) (rcx.y0 + py) = true ∧ p = (cellIndex rcx px py, item.color) := by
  have hx0 := hcell.x0
  have hy0 := hcell.y0
  have hcol (px : Nat) (x : Int) : (px : Int) - (x - rcx.x0) = rcx.x0 + px - x := by ring
  have hrow (py : Nat) (y : Int) : (py : Int) - (y - rcx.y0) = rcx.y0 + py - y := by ring
  cases item with
  | line x0 y0 x1 y1 c =>
    rw [drawItem, mem_cellDrawline]
    simp only [line_shift, List.mem_map, Item.shows, Item.color, Prod.exists, Prod.mk.injEq,
      decide_eq_true_eq]
    have hshift (px py : Nat) : (∃ a b : Int, (a, b) ∈ Bresenham.line x0 y0 x1 y1 ∧
        a - rcx.x0 = px ∧ b - rcx.y0 = py) ↔
        ((rcx.x0 + px : Int), (rcx.y0 + py : Int)) ∈ Bresenham.line x0 y0 x1 y1 := by
      constructor
      · rintro ⟨a, b, hmem, ha, hb⟩
        rwa [← ha, ← hb, add_sub_cancel, add_sub_cancel]
      · exact fun hmem => ⟨_, _, hmem, add_sub_cancel_left _ _, add_sub_cancel_left _ _⟩
    simp only [hshift]
  | icon x y bmp c =>
    obtain ⟨⟨hxlo, hxhi⟩, hylo, hyhi⟩ := hnear
    rw [drawItem, mem_drawIcon hcell c bmp ⟨by omega, by omega⟩ ⟨by omega, by omega⟩]
    simp only [hcol, hrow, Item.shows, Item.color]
  | text x y font str c =>
    obtain ⟨⟨hxlo, hxhi⟩, hylo, hyhi⟩ := hnear
    rw [drawItem, mem_cellVprintf hcell c font ⟨by omega, by omega⟩ ⟨by omega, by omega⟩]
    simp only [hcol, hrow, Item.shows, Item.color]
  | grid g c =>
    rw [drawItem, mem_renderGrid hcell.evenX hcell.evenY]
    rfl

theorem foldl_color {writes : List (Nat × UInt16)} {c : UInt16} (h : ∀ p ∈ writes, p.2 = c)
    (buf : Buffer) (i : Nat) :
    writes.foldl (fun buf p => Function.update buf p.1 p.2) buf i =
      if (i, c) ∈ writes then c else buf i := by
  induction writes generalizing buf with
  | nil => simp
  | cons p writes ih =>
    obtain ⟨j, a⟩ := p
    obtain ⟨rfl, hrest⟩ := List.forall_mem_cons.mp h
    rw [List.foldl_cons, ih hrest]
    by_cases hmem : (i, a) ∈ writes
    · rw [if_pos hmem, if_pos (List.mem_cons_of_mem _ hmem)]
    · by_cases hij : i = j
      · subst hij
        rw [if_neg hmem, if_pos List.mem_cons_self, Function.update_self]
      · have hnot : (i, a) ∉ (j, a) :: writes := by
          simpa [hmem] using hij
        rw [if_neg hmem, if_neg hnot, Function.update_of_ne hij]

theorem cellIndex_inj {px py qx qy : Nat} (hpx : px < rcx.w) (hqx : qx < rcx.w)
    (h : cellIndex rcx px py = cellIndex rcx qx qy) : px = qx ∧ py = qy := by
  have hle := rcx.w_le
  unfold cellIndex at h
  have hx : px = qx := by
    have hmod := congrArg (· % rcx.cellWidth) h
    simpa [Nat.mul_add_mod', Nat.mod_eq_of_lt (hpx.trans_le hle),
      Nat.mod_eq_of_lt (hqx.trans_le hle)] using hmod
  subst hx
  exact ⟨rfl, Nat.eq_of_mul_eq_mul_right (by omega) (Nat.add_right_cancel h)⟩

theorem cellIndex_lt {px py : Nat} (hpx : px < rcx.w) (hpy : py < rcx.h) :
    cellIndex rcx px py < rcx.cellWidth * rcx.cellHeight := by
  have hwidth := rcx.w_le
  have hlast : (py + 1) * rcx.cellWidth ≤ rcx.cellHeight * rcx.cellWidth :=
    Nat.mul_le_mul_right _ (hpy.trans_le rcx.h_le)
  rw [Nat.succ_mul, Nat.mul_comm rcx.cellHeight] at hlast
  unfold cellIndex
  omega

include hcell in
theorem foldl_drawItems {items : List Item} (hnear : ∀ item ∈ items, item.Near) (buf : Buffer)
    {px py : Nat} (hpx : px < rcx.w) (hpy : py < rcx.h) :
    (items.flatMap (drawItem rcx)).foldl (fun buf p => Function.update buf p.1 p.2) buf
        (cellIndex rcx px py) =
      picture (buf (cellIndex rcx px py)) items (rcx.x0 + px) (rcx.y0 + py) := by
  induction items generalizing buf with
  | nil => rfl
  | cons item items ih =>
    obtain ⟨hitem, hrest⟩ := List.forall_mem_cons.mp hnear
    have hcolor : ∀ p ∈ drawItem rcx item, p.2 = item.color := by
      intro p hp
      obtain ⟨_, -, _, -, -, rfl⟩ := (mem_drawItem hcell hitem).mp hp
      rfl
    have hpixel : (cellIndex rcx px py, item.color) ∈ drawItem rcx item ↔
        item.shows (rcx.x0 + px) (rcx.y0 + py) = true := by
      rw [mem_drawItem hcell hitem]
      constructor
      · rintro ⟨qx, hqx, qy, -, hshows, heq⟩
        obtain ⟨rfl, rfl⟩ := cellIndex_inj hpx hqx (Prod.mk.inj heq).1
        exact hshows
      · exact fun hshows => ⟨px, hpx, py, hpy, hshows, rfl⟩
    rw [List.flatMap_cons, List.foldl_append, ih hrest, foldl_color hcolor]
    simp only [hpixel]
    rfl

end Cells

structure Plot where
  background : UInt16
  items : List Item
  near : ∀ item ∈ items, item.Near

structure PlotCell where
  rcx : RenderCellCtx
  onScreen : OnScreen rcx
  w_pos : 0 < rcx.w
  h_pos : 0 < rcx.h

theorem cells_even (b : Board) : 2 ∣ (layoutOf b).cellWidth ∧ 2 ∣ (layoutOf b).cellHeight := by
  cases b <;> decide

theorem cells_small (b : Board) :
    (layoutOf b).cellWidth ≤ 64 ∧ (layoutOf b).cellHeight ≤ 64 := by
  cases b <;> decide

theorem screen_small (b : Board) :
    (layoutOf b).lcdWidth ≤ 480 ∧ (layoutOf b).lcdHeight ≤ 320 := by
  cases b <;> decide

/-- The cell that `draw_all_cells` draws for a bit of the map, unless `draw_cell` finds that
the area ends before it. -/
def cellAt (b : Board) (area : Area (layoutOf b)) (m n : Nat)
    (hx : m * (layoutOf b).cellWidth < area.width)
    (hy : n * (layoutOf b).cellHeight < area.height) : PlotCell where
  rcx :=
    { cellWidth := (layoutOf b).cellWidth
      cellHeight := (layoutOf b).cellHeight
      w := min (layoutOf b).cellWidth (area.width - m * (layoutOf b).cellWidth)
      h := min (layoutOf b).cellHeight (area.height - n * (layoutOf b).cellHeight)
      x0 := m * (layoutOf b).cellWidth
      y0 := n * (layoutOf b).cellHeight
      w_le := Nat.min_le_left _ _
      h_le := Nat.min_le_left _ _
      end_lt := by
        have hscreen := (screen_small b).1
        have hwidth := area.width_le
        omega }
  onScreen := by
    obtain ⟨hwide, hhigh⟩ := screen_small b
    have hwidth := area.width_le
    have hheight := area.height_le
    refine ⟨(cells_small b).1, (cells_small b).2, ?_, ?_, ?_, ?_⟩
    · exact hx.trans_le (by omega)
    · exact hy.trans_le (by omega)
    · exact (cells_even b).1.mul_left m
    · exact (cells_even b).2.mul_left n
  w_pos := lt_min (layoutOf b).cellWidth_pos (Nat.sub_pos_of_lt hx)
  h_pos := lt_min (layoutOf b).cellHeight_pos (Nat.sub_pos_of_lt hy)

/-- The body of `draw_cell`: the items of the plot are those of its layers, from the grids to the
overlays. -/
def drawingOf (plot : Plot) (cell : PlotCell) : Drawing where
  rcx := cell.rcx
  background := plot.background
  writes := plot.items.flatMap (drawItem cell.rcx)
  w_pos := cell.w_pos
  h_pos := cell.h_pos
  inside := by
    intro p hp
    obtain ⟨item, hitem, hmem⟩ := List.mem_flatMap.mp hp
    obtain ⟨px, hpx, py, hpy, -, rfl⟩ :=
      (mem_drawItem cell.onScreen (plot.near item hitem)).mp hmem
    exact cellIndex_lt hpx hpy

section Screen

variable (plot : Plot) (offsetX offsetY : Nat)

def PlotCell.Covers (cell : PlotCell) (px py : Nat) : Prop :=
  (offsetX + cell.rcx.x0 ≤ px ∧ px < offsetX + cell.rcx.x0 + cell.rcx.w) ∧
    offsetY + cell.rcx.y0 ≤ py ∧ py < offsetY + cell.rcx.y0 + cell.rcx.h

instance (cell : PlotCell) (px py : Nat) : Decidable (cell.Covers offsetX offsetY px py) :=
  inferInstanceAs (Decidable ((_ ∧ _) ∧ _ ∧ _))

theorem cellAt_covers (b : Board) (area : Area (layoutOf b)) {px py : Nat} (hx : px < area.width)
    (hy : py < area.height) :
    ∃ hm hn,
      (cellAt b area (px / (layoutOf b).cellWidth) (py / (layoutOf b).cellHeight) hm hn).Covers
        offsetX offsetY (offsetX + px) (offsetY + py) := by
  have hleft := Nat.div_mul_le_self px (layoutOf b).cellWidth
  have htop := Nat.div_mul_le_self py (layoutOf b).cellHeight
  have hright := Nat.lt_div_mul_add (layoutOf b).cellWidth_pos (a := px)
  have hbottom := Nat.lt_div_mul_add (layoutOf b).cellHeight_pos (a := py)
  refine ⟨hleft.trans_lt hx, htop.trans_lt hy, ?_⟩
  simp only [PlotCell.Covers, cellAt]
  omega

theorem foldl_paint (cells : List PlotCell) (screen : Screen) (px py : Nat) :
    ((cells.map (drawingOf plot)).foldl (fun screen d => paint d offsetX offsetY screen) screen)
        px py =
      if ∃ cell ∈ cells, cell.Covers offsetX offsetY px py then
        picture plot.background plot.items (px - offsetX) (py - offsetY)
      else screen px py := by
  induction cells generalizing screen with
  | nil => simp
  | cons cell cells ih =>
    rw [List.map_cons, List.foldl_cons, ih]
    by_cases hlater : ∃ cell ∈ cells, cell.Covers offsetX offsetY px py
    · obtain ⟨later, hmem, hcovers⟩ := hlater
      rw [if_pos ⟨later, hmem, hcovers⟩, if_pos ⟨later, List.mem_cons_of_mem _ hmem, hcovers⟩]
    rw [if_neg hlater]
    by_cases hthis : cell.Covers offsetX offsetY px py
    · obtain ⟨⟨hleft, hright⟩, htop, hbottom⟩ := hthis
      have hx : px - (offsetX + cell.rcx.x0) < cell.rcx.w := by omega
      have hy : py - (offsetY + cell.rcx.y0) < cell.rcx.h := by omega
      have hcol : (cell.rcx.x0 + (px - (offsetX + cell.rcx.x0) : Nat) : Int) = px - offsetX := by
        omega
      have hrow : (cell.rcx.y0 + (py - (offsetY + cell.rcx.y0) : Nat) : Int) = py - offsetY := by
        omega
      have hpaint : paint (drawingOf plot cell) offsetX offsetY screen px py =
          rendered (drawingOf plot cell) (cellIndex cell.rcx (px - (offsetX + cell.rcx.x0))
            (py - (offsetY + cell.rcx.y0))) := if_pos ⟨hleft, hright, htop, hbottom⟩
      have hpixel := foldl_drawItems cell.onScreen plot.near (fun _ => plot.background) hx hy
      rw [hcol, hrow] at hpixel
      rw [if_pos ⟨cell, List.mem_cons_self, ⟨hleft, hright⟩, htop, hbottom⟩, hpaint]
      exact hpixel
    · have hnone : ¬ ∃ later ∈ cell :: cells, later.Covers offsetX offsetY px py := by
        rintro ⟨later, hmem, hcovers⟩
        rcases List.mem_cons.mp hmem with rfl | hmem
        · exact hthis hcovers
        · exact hlater ⟨later, hmem, hcovers⟩
      rw [if_neg hnone]
      refine if_neg ?_
      rintro ⟨hleft, hright, htop, hbottom⟩
      exact hthis ⟨⟨hleft, hright⟩, htop, hbottom⟩

/-- However the screen is cut into cells, and whenever the display takes what is sent to it, the
cells that were drawn show the grids, lines, icons and texts of the whole plot. -/
theorem plot_shown {half : Nat} (cells : List PlotCell)
    (hfit : ∀ cell ∈ cells, cell.rcx.cellWidth * cell.rcx.cellHeight ≤ half)
    {s t : Pipe UInt16 Window Screen} (hidle : s.pending = none)
    {events : List (Event UInt16 Window)}
    (hprogram : events.filterMap actionOf =
      cells.flatMap fun cell => drawCell (drawingOf plot cell) offsetX offsetY)
    (hrun : events.foldlM (step half lcd) s = some t) (hlast : t.pending = none) (px py : Nat) :
    t.sink px py =
      if ∃ cell ∈ cells, cell.Covers offsetX offsetY px py then
        picture plot.background plot.items (px - offsetX) (py - offsetY)
      else s.sink px py := by
  rw [← List.flatMap_map (drawingOf plot) fun d => drawCell d offsetX offsetY] at hprogram
  have hcells : ∀ d ∈ cells.map (drawingOf plot), Fit half d := by
    intro d hd
    obtain ⟨cell, hcell, rfl⟩ := List.mem_map.mp hd
    exact hfit cell hcell
  rw [drawCells_shown offsetX offsetY _ hcells hidle hprogram hrun hlast, foldl_paint]

/-- A line, a dot and two characters one pixel wide, which reach from one cell to the next. -/
def smallPlot : Plot where
  background := 1
  items :=
    [.line 0 0 2 1 5, .icon 1 1 ⟨1, 1, fun _ => 0x80, by decide, by decide⟩ 6,
      .text 1 0 ⟨1, 1, false, fun _ => 1, fun _ _ => 0x80, le_rfl, by decide,
        fun _ => by decide⟩
        [65, 66] 7]
  near := by simp [Item.Near]

def wholeCell : PlotCell where
  rcx := ⟨2, 2, 2, 2, 0, 0, le_rfl, le_rfl, by decide⟩
  onScreen := ⟨by decide, by decide, by decide, by decide, by decide, by decide⟩
  w_pos := by decide
  h_pos := by decide

def cutCell : PlotCell where
  rcx := ⟨2, 2, 1, 2, 2, 0, by decide, le_rfl, by decide⟩
  onScreen := ⟨by decide, by decide, by decide, by decide, by decide, by decide⟩
  w_pos := by decide
  h_pos := by decide

def overlapped : List (Event UInt16 Window) :=
  (drawCell (drawingOf smallPlot wholeCell) 5 0).map .act ++
    ((render (drawingOf smallPlot cutCell)).take 4).flatMap (fun action =>
      [.deliver, .act action]) ++
    ((render (drawingOf smallPlot cutCell)).drop 4).map .act ++
    [.act (.submit (windowOf (drawingOf smallPlot cutCell) 5 0)), .deliver, .deliver]

def blankPipe : Pipe UInt16 Window Screen := ⟨fun _ => 0, false, none, fun _ _ => 0⟩

theorem plot_shown_small :
    ∃ t : Pipe UInt16 Window Screen,
      overlapped.foldlM (step 4 lcd) blankPipe = some t ∧
        t.sink 7 0 = 7 ∧ t.sink 7 1 = 5 ∧ t.sink 6 1 = 6 := by
  refine ⟨_, rfl, ?_, ?_, ?_⟩
  all_goals
    exact @plot_shown smallPlot 5 0 4 [wholeCell, cutCell] (by decide) blankPipe _ rfl overlapped
      rfl rfl rfl _ _

end Screen

end NanoVNA.CellPictures
