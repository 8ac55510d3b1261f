import NanoVNA.TiffFiles
import NanoVNA.TiffReader

namespace NanoVNA.BmpFiles

open NanoVNA.DeviceState NanoVNA.ScreenColors NanoVNA.SpiBuffer NanoVNA.TiffReader
open NanoVNA.TiffFiles (lcdWidth lcdHeight Screen bmpUint16 bmpUint32 lcdReadMemory
  load16_lcdReadMemory lcdFill lcdBulk)

def bmpH1Size : Nat := 14

def bmpV4Size : Nat := 108

def bmpHeadSize : Nat := bmpH1Size + bmpV4Size

def bmpSize (board : Board) : Nat := 2 * lcdWidth board * lcdHeight board

def bmpFileSize (board : Board) : Nat := bmpSize board + bmpHeadSize

def bmpHeaderV4 (board : Board) : List UInt8 :=
  [0x42, 0x4D] ++ bmpUint32 (bmpFileSize board) ++ bmpUint16 0 ++ bmpUint16 0 ++
    bmpUint32 bmpHeadSize ++ bmpUint32 bmpV4Size ++ bmpUint32 (lcdWidth board) ++
    bmpUint32 (lcdHeight board) ++ bmpUint16 1 ++ bmpUint16 16 ++ bmpUint32 3 ++
    bmpUint32 (bmpSize board) ++ bmpUint32 0x0EC4 ++ bmpUint32 0x0EC4 ++ bmpUint32 0 ++
    bmpUint32 0 ++ bmpUint32 0xF800 ++ bmpUint32 0x07E0 ++ bmpUint32 0x001F ++ bmpUint32 0 ++
    [0x42, 0x47, 0x52, 0x73] ++ (List.replicate 12 (bmpUint32 0)).flatten

def swapBytes : Nat → Memory → Memory
  | 0, m => m
  | i + 1, m =>
    let m := swapBytes i m
    store16 m i (colorOf (load16 m i))

/-- The rows below `y`, from the lowest of the screen up; the one that is written is marked. -/
def saveRows (board : Board) (mark : UInt16) : Nat → Screen → Memory → List UInt8
  | 0, _, _ => []
  | y + 1, screen, m =>
    let m := swapBytes (lcdWidth board) (lcdReadMemory y (lcdWidth board) screen m)
    (List.range (2 * lcdWidth board)).map m ++
      saveRows board mark y (lcdFill (lcdWidth board - 1) y mark screen) m

def saveBmp (board : Board) (mark : UInt16) (screen : Screen) (m : Memory) : List UInt8 :=
  bmpHeaderV4 board ++ saveRows board mark (lcdHeight board) screen m

/-- A read at the end of the file leaves the rest of the buffer as it was. -/
def loadRows (board : Board) : Nat → List UInt8 → Memory → Screen → Screen
  | 0, _, _, screen => screen
  | y + 1, file, m, screen =>
    let m := swapBytes (lcdWidth board) (storeBytes m (file.take (2 * lcdWidth board)))
    loadRows board y (file.drop (2 * lcdWidth board)) m (lcdBulk y (lcdWidth board) m screen)

/-- `printName` is the `lcd_printf` of the name of the file, over the rows. -/
def loadBmp (board : Board) (printName : Screen → Screen) (file : List UInt8) (m : Memory)
    (screen : Screen) : Except String Screen :=
  let m := storeBytes m (file.take bmpHeadSize)
  if (load16 m 9).toNat ≠ lcdWidth board ∨ (load16 m 11).toNat ≠ lcdHeight board ∨
      (load16 m 14).toNat ≠ 16 then
    .error "Format err"
  else .ok (printName (loadRows board (lcdHeight board) (file.drop bmpHeadSize) m screen))

section Words

theorem colorOf_colorOf (v : UInt16) : colorOf (colorOf v) = v := by
  apply UInt16.toBitVec_inj.mp
  simp only [colorOf, UInt16.toBitVec_or, UInt16.toBitVec_shiftLeft, UInt16.toBitVec_shiftRight,
    bits_eight]
  generalize v.toBitVec = v
  apply BitVec.eq_of_getLsbD_eq
  intro i hi
  simp only [BitVec.getLsbD_or, BitVec.shiftLeft_eq', BitVec.ushiftRight_eq',
    BitVec.getLsbD_shiftLeft, BitVec.getLsbD_ushiftRight]
  interval_cases i <;> simp

def byteOf (v : UInt16) : Nat → UInt8
  | 0 => v.toUInt8
  | _ => (v >>> (8 : UInt16)).toUInt8

theorem word_byteOf (v : UInt16) : word (byteOf v 0) (byteOf v 1) = v :=
  word_bytes v

theorem word_row {n x : Nat} {row : Nat → UInt8} {v : Nat → UInt16}
    (hrow : ∀ k < 2 * n, row k = byteOf (v (k / 2)) (k % 2)) (hx : x < n) :
    word (row (2 * x)) (row (2 * x + 1)) = v x := by
  have heven : 2 * x / 2 = x := by omega
  have hodd : (2 * x + 1) / 2 = x := by omega
  have hlow : 2 * x % 2 = 0 := by omega
  have hhigh : (2 * x + 1) % 2 = 1 := by omega
  rw [hrow _ (by omega), hrow _ (by omega), heven, hodd, hlow, hhigh, word_byteOf]

theorem store16_byte (m : Memory) (index : Nat) (v : UInt16) {b : Nat} (hb : b < 2) :
    store16 m index v (2 * index + b) = byteOf v b := by
  obtain rfl | rfl : b = 0 ∨ b = 1 := by omega
  · rw [store16, Function.update_of_ne (by omega)]
    exact Function.update_self ..
  · exact Function.update_self ..

theorem swapBytes_of_le (m : Memory) {n k : Nat} (hk : 2 * n ≤ k) : swapBytes n m k = m k := by
  induction n with
  | zero => rfl
  | succ n ih => rw [swapBytes, store16_of_ne _ _ (by omega), ih (by omega)]

theorem swapBytes_byte (m : Memory) {n k : Nat} (hk : k < 2 * n) :
    swapBytes n m k = byteOf (colorOf (load16 m (k / 2))) (k % 2) := by
  induction n with
  | zero => exact absurd hk (Nat.not_lt_zero k)
  | succ n ih =>
    rw [swapBytes]
    by_cases hlast : k / 2 = n
    · have hplace : k = 2 * n + k % 2 := by omega
      have hword : load16 (swapBytes n m) n = load16 m n := by
        rw [load16, load16, swapBytes_of_le m (Nat.le_refl _), swapBytes_of_le m (by omega)]
      rw [hplace, store16_byte _ _ _ (Nat.mod_lt k (by decide)), ← hplace, hword, hlast]
    · rw [store16_of_ne _ _ hlast, ih (by omega)]

theorem load16_swapBytes (m : Memory) {n x : Nat} (hx : x < n) :
    load16 (swapBytes n m) x = colorOf (load16 m x) :=
  @word_row n x (swapBytes n m) (fun i => colorOf (load16 m i)) (fun _ hk => swapBytes_byte m hk) hx

theorem word_toNat (low high : UInt8) : (word low high).toNat = low.toNat + 256 * high.toNat := by
  have hlow : low.toNat < 2 ^ 8 := low.toNat_lt
  have hhigh : high.toNat < 2 ^ 8 := high.toNat_lt
  have hroom : high.toNat <<< 8 < 2 ^ 16 := by
    rw [Nat.shiftLeft_eq]
    omega
  have hshift : (high.toUInt16 <<< (8 : UInt16)).toNat = high.toNat <<< 8 := by
    rw [UInt16.toNat_shiftLeft, UInt8.toNat_toUInt16]
    exact Nat.mod_eq_of_lt hroom
  rw [word, UInt16.toNat_or, UInt8.toNat_toUInt16, hshift, Nat.or_comm,
    ← Nat.shiftLeft_add_eq_or_of_lt hlow, Nat.shiftLeft_eq]
  omega

end Words

section Channels

/-- The bits of `v` under a mask, as the upper bits of a byte. -/
def fieldOf (v mask : Nat) : Nat := (v &&& mask) * 2 ^ 8 / 2 ^ (mask.log2 + 1)

theorem and_block (n k b : Nat) : n &&& (2 ^ k - 1) * 2 ^ b = n / 2 ^ b % 2 ^ k * 2 ^ b := by
  apply Nat.eq_of_testBit_eq
  intro i
  rw [Nat.testBit_and, Nat.testBit_mul_two_pow, Nat.testBit_mul_two_pow, Nat.testBit_mod_two_pow,
    Nat.testBit_div_two_pow, Nat.testBit_two_pow_sub_one]
  by_cases hi : b ≤ i
  · rw [Nat.sub_add_cancel hi]
    simp only [hi, decide_true, Bool.true_and]
    exact Bool.and_comm _ _
  · simp [hi]

theorem redOf_toNat (p : UInt16) : (redOf p).toNat = fieldOf (colorOf p).toNat 0xF800 := by
  have hlog : Nat.log2 0xF800 = 15 := by decide
  have hlt := (colorOf p).toNat_lt
  have hmask : (colorOf p).toNat &&& 0xF800 = (colorOf p).toNat / 2 ^ 11 % 2 ^ 5 * 2 ^ 11 :=
    and_block _ 5 11
  have hbyte : (colorOf p >>> (8 : UInt16)).toUInt8.toNat = (colorOf p).toNat / 2 ^ 8 % 2 ^ 8 := by
    rw [UInt16.toNat_toUInt8, UInt16.toNat_shiftRight, Nat.shiftRight_eq_div_pow]
    rfl
  have hred : (redOf p).toNat = (colorOf p).toNat / 2 ^ 8 % 2 ^ 8 / 2 ^ 3 % 2 ^ 5 * 2 ^ 3 := by
    rw [redOf, UInt8.toNat_and, hbyte]
    exact and_block _ 5 3
  rw [hred, fieldOf, hlog, hmask]
  omega

theorem greenOf_toNat (p : UInt16) : (greenOf p).toNat = fieldOf (colorOf p).toNat 0x07E0 := by
  have hlog : Nat.log2 0x07E0 = 10 := by decide
  have hlt := (colorOf p).toNat_lt
  have hmask : (colorOf p).toNat &&& 0x07E0 = (colorOf p).toNat / 2 ^ 5 % 2 ^ 6 * 2 ^ 5 :=
    and_block _ 6 5
  have hbyte : (colorOf p >>> (3 : UInt16)).toUInt8.toNat = (colorOf p).toNat / 2 ^ 3 % 2 ^ 8 := by
    rw [UInt16.toNat_toUInt8, UInt16.toNat_shiftRight, Nat.shiftRight_eq_div_pow]
    rfl
  have hgreen : (greenOf p).toNat = (colorOf p).toNat / 2 ^ 3 % 2 ^ 8 / 2 ^ 2 % 2 ^ 6 * 2 ^ 2 := by
    rw [greenOf, UInt8.toNat_and, hbyte]
    exact and_block _ 6 2
  rw [hgreen, fieldOf, hlog, hmask]
  omega

theorem blueOf_toNat (p : UInt16) : (blueOf p).toNat = fieldOf (colorOf p).toNat 0x001F := by
  have hlog : Nat.log2 0x001F = 4 := by decide
  have hmask : (colorOf p).toNat &&& 0x001F = (colorOf p).toNat / 2 ^ 0 % 2 ^ 5 * 2 ^ 0 :=
    and_block _ 5 0
  have hbyte : (colorOf p <<< (3 : UInt16)).toUInt8.toNat =
      (colorOf p).toNat * 2 ^ 3 % 2 ^ 16 % 2 ^ 8 := by
    rw [UInt16.toNat_toUInt8, UInt16.toNat_shiftLeft, Nat.shiftLeft_eq]
    rfl
  have hblue : (blueOf p).toNat =
      (colorOf p).toNat * 2 ^ 3 % 2 ^ 16 % 2 ^ 8 / 2 ^ 3 % 2 ^ 5 * 2 ^ 3 := by
    rw [blueOf, UInt8.toNat_and, hbyte]
    exact and_block _ 5 3
  rw [hblue, fieldOf, hlog, hmask]
  omega

end Channels

section Rows

variable (board : Board)

def swappedRow (w y : Nat) (screen : Screen) : List UInt8 :=
  (List.range (2 * w)).map fun k => byteOf (colorOf (screen (k / 2) y)) (k % 2)

@[simp] theorem length_swappedRow (w y : Nat) (screen : Screen) :
    (swappedRow w y screen).length = 2 * w := by
  rw [swappedRow, List.length_map, List.length_range]

theorem getD_swappedRow {w y k : Nat} (screen : Screen) (hk : k < 2 * w) :
    (swappedRow w y screen).getD k 0 = byteOf (colorOf (screen (k / 2) y)) (k % 2) := by
  rw [swappedRow, List.getD_eq_getElem _ _ (by simpa using hk), List.getElem_map,
    List.getElem_range]

theorem swapBytes_row (y w : Nat) (screen : Screen) (m : Memory) :
    (List.range (2 * w)).map (swapBytes w (lcdReadMemory y w screen m)) =
      swappedRow w y screen := by
  apply List.map_congr_left
  intro k hk
  rw [List.mem_range] at hk
  rw [swapBytes_byte _ hk, load16_lcdReadMemory screen m (by omega)]

/-- The rows below `y` of a screen that does not change. -/
def fileRows (w : Nat) (saved : Screen) : Nat → List UInt8
  | 0 => []
  | y + 1 => swappedRow w y saved ++ fileRows w saved y

theorem length_fileRows (w : Nat) (saved : Screen) (y : Nat) :
    (fileRows w saved y).length = 2 * w * y := by
  induction y with
  | zero => rfl
  | succ y ih =>
    rw [fileRows, List.length_append, length_swappedRow, ih, Nat.mul_succ, Nat.add_comm]

theorem getD_fileRows (w : Nat) (saved : Screen) {rows y k : Nat} (hy : y < rows)
    (hk : k < 2 * w) :
    (fileRows w saved rows).getD (2 * w * (rows - 1 - y) + k) 0 =
      byteOf (colorOf (saved (k / 2) y)) (k % 2) := by
  induction rows with
  | zero => exact absurd hy (Nat.not_lt_zero y)
  | succ rows ih =>
    rw [fileRows]
    obtain hlt | rfl := Nat.lt_succ_iff_lt_or_eq.mp hy
    · have hstep : rows + 1 - 1 - y = rows - 1 - y + 1 := by omega
      rw [hstep, Nat.mul_succ, List.getD_append_right _ _ _ _ (by rw [length_swappedRow]; omega),
        length_swappedRow, ← ih hlt]
      congr 1
      omega
    · have hfirst : 2 * w * (y + 1 - 1 - y) + k = k := by
        rw [Nat.add_sub_cancel, Nat.sub_self, Nat.mul_zero, Nat.zero_add]
      rw [hfirst, List.getD_append _ _ _ _ (by rwa [length_swappedRow]), getD_swappedRow saved hk]

def SameBelow (y : Nat) (screen saved : Screen) : Prop := ∀ x, ∀ y' < y, screen x y' = saved x y'

theorem sameBelow_lcdFill {x y : Nat} {color : UInt16} {screen saved : Screen}
    (h : SameBelow (y + 1) screen saved) : SameBelow y (lcdFill x y color screen) saved := by
  intro x' y' hy'
  rw [lcdFill, if_neg (by omega), h x' y' (by omega)]

/-- The marks lie on rows that are already written. -/
theorem saveRows_eq (mark : UInt16) {y : Nat} {screen saved : Screen} (m : Memory)
    (h : SameBelow y screen saved) :
    saveRows board mark y screen m = fileRows (lcdWidth board) saved y := by
  induction y generalizing screen m with
  | zero => rfl
  | succ y ih =>
    have hrow : swappedRow (lcdWidth board) y screen = swappedRow (lcdWidth board) y saved := by
      apply List.map_congr_left
      intro k _
      rw [h _ y (Nat.lt_succ_self y)]
    rw [saveRows, fileRows, swapBytes_row, hrow, ih _ (sameBelow_lcdFill h)]

theorem saveBmp_eq (mark : UInt16) (saved : Screen) (m : Memory) :
    saveBmp board mark saved m =
      bmpHeaderV4 board ++ fileRows (lcdWidth board) saved (lcdHeight board) := by
  rw [saveBmp, saveRows_eq board mark m fun _ _ _ => rfl]

theorem loadRows_of_le {rows y x : Nat} (file : List UInt8) (m : Memory) (display : Screen)
    (hy : rows ≤ y) : loadRows board rows file m display x y = display x y := by
  induction rows generalizing file m display with
  | zero => rfl
  | succ rows ih => rw [loadRows, ih _ _ _ (Nat.le_of_succ_le hy), lcdBulk, if_neg (by omega)]

theorem loadRows_row {rows y x : Nat} (file : List UInt8) (m : Memory) (display : Screen)
    (hy : y < rows) (hx : x < lcdWidth board)
    (hfile : 2 * lcdWidth board * (rows - y) ≤ file.length) :
    loadRows board rows file m display x y =
      colorOf (word (file.getD (2 * lcdWidth board * (rows - 1 - y) + 2 * x) 0)
        (file.getD (2 * lcdWidth board * (rows - 1 - y) + (2 * x + 1)) 0)) := by
  induction rows generalizing file m display with
  | zero => exact absurd hy (Nat.not_lt_zero y)
  | succ rows ih =>
    rw [loadRows]
    obtain hlt | rfl := Nat.lt_succ_iff_lt_or_eq.mp hy
    · have hleft : rows + 1 - y = rows - y + 1 := by omega
      have hskip : rows + 1 - 1 - y = rows - 1 - y + 1 := by omega
      rw [hleft, Nat.mul_succ] at hfile
      have hdrop (k : Nat) :
          (file.drop (2 * lcdWidth board)).getD (2 * lcdWidth board * (rows - 1 - y) + k) 0 =
            file.getD (2 * lcdWidth board * (rows + 1 - 1 - y) + k) 0 := by
        rw [List.getD_eq_getElem?_getD, List.getElem?_drop, ← List.getD_eq_getElem?_getD, hskip,
          Nat.mul_succ]
        congr 1
        omega
      rw [ih _ _ _ hlt (by rw [List.length_drop]; omega), hdrop, hdrop]
    · have hleft : y + 1 - y = 1 := by omega
      have hfirst (k : Nat) : 2 * lcdWidth board * (y + 1 - 1 - y) + k = k := by
        rw [Nat.add_sub_cancel, Nat.sub_self, Nat.mul_zero, Nat.zero_add]
      rw [hleft, Nat.mul_one] at hfile
      have hlength : (file.take (2 * lcdWidth board)).length = 2 * lcdWidth board := by
        rw [List.length_take, Nat.min_eq_left hfile]
      have htake (k : Nat) (hk : k < 2 * lcdWidth board) :
          (file.take (2 * lcdWidth board)).getD k 0 = file.getD k 0 := by
        rw [List.getD_eq_getElem?_getD, List.getElem?_take_of_lt hk, ← List.getD_eq_getElem?_getD]
      rw [loadRows_of_le board _ _ _ (Nat.le_refl y), lcdBulk, if_pos ⟨rfl, hx⟩,
        load16_swapBytes _ hx, load16_storeBytes _ (by omega), htake _ (by omega),
        htake _ (by omega), hfirst, hfirst]

theorem length_bmpHeaderV4 : (bmpHeaderV4 board).length = bmpHeadSize := by
  cases board <;> rfl

theorem bmpHeaderV4_accepted (m : Memory) :
    ¬ ((load16 (storeBytes m (bmpHeaderV4 board)) 9).toNat ≠ lcdWidth board ∨
      (load16 (storeBytes m (bmpHeaderV4 board)) 11).toNat ≠ lcdHeight board ∨
      (load16 (storeBytes m (bmpHeaderV4 board)) 14).toNat ≠ 16) := by
  have hword (index : Nat) (hindex : index < 61) :
      load16 (storeBytes m (bmpHeaderV4 board)) index =
        word ((bmpHeaderV4 board).getD (2 * index) 0)
          ((bmpHeaderV4 board).getD (2 * index + 1) 0) := by
    apply load16_storeBytes
    rw [length_bmpHeaderV4, bmpHeadSize, bmpH1Size, bmpV4Size]
    omega
  rw [hword 9 (by decide), hword 11 (by decide), hword 14 (by decide)]
  cases board <;> decide

/-- A screen comes back from any part of its file that has the header, as far as whole rows are
there. -/
theorem loadBmp_saveBmp (printName : Screen → Screen) (mark : UInt16) (saved display : Screen)
    (m m' : Memory) (n : Nat) :
    ∃ shown,
      loadBmp board printName ((saveBmp board mark saved m).take (bmpHeadSize + n)) m' display =
        .ok (printName shown) ∧
      ∀ y < lcdHeight board, 2 * lcdWidth board * (lcdHeight board - y) ≤ n →
        ∀ x < lcdWidth board, shown x y = saved x y := by
  have hfile : (saveBmp board mark saved m).take (bmpHeadSize + n) =
      bmpHeaderV4 board ++ (fileRows (lcdWidth board) saved (lcdHeight board)).take n := by
    rw [saveBmp_eq, ← length_bmpHeaderV4 board, List.take_length_add_append]
  refine ⟨loadRows board (lcdHeight board)
    ((fileRows (lcdWidth board) saved (lcdHeight board)).take n)
    (storeBytes m' (bmpHeaderV4 board)) display, ?_, fun y hy hn x hx => ?_⟩
  · rw [loadBmp, hfile, ← length_bmpHeaderV4 board, List.take_left, List.drop_left,
      if_neg (bmpHeaderV4_accepted board m')]
  · have hrows : 2 * lcdWidth board * (lcdHeight board - y) ≤
        2 * lcdWidth board * lcdHeight board :=
      Nat.mul_le_mul_left _ (Nat.sub_le _ _)
    have hbelow : 2 * lcdWidth board * (lcdHeight board - y) =
        2 * lcdWidth board * (lcdHeight board - 1 - y) + 2 * lcdWidth board := by
      have hstep : lcdHeight board - y = lcdHeight board - 1 - y + 1 := by omega
      rw [hstep, Nat.mul_succ]
    have hbyte (k : Nat) (hk : k < 2 * lcdWidth board) :
        ((fileRows (lcdWidth board) saved (lcdHeight board)).take n).getD
            (2 * lcdWidth board * (lcdHeight board - 1 - y) + k) 0 =
          byteOf (colorOf (saved (k / 2) y)) (k % 2) := by
      rw [List.getD_eq_getElem?_getD, List.getElem?_take_of_lt (by omega),
        ← List.getD_eq_getElem?_getD, getD_fileRows _ saved hy hk]
    have hword := @word_row _ x _ (fun x => colorOf (saved x y)) hbyte hx
    rw [loadRows_row board _ _ _ hy hx (by rw [List.length_take, length_fileRows]; omega), hword,
      colorOf_colorOf]

end Rows

section Reader

def dataOffset (file : List UInt8) : Nat := u32 file 10

def imageWidth (file : List UInt8) : Nat := u32 file 18

def imageHeight (file : List UInt8) : Nat := u32 file 22

def bitCount (file : List UInt8) : Nat := u16 file 28

def stride (file : List UInt8) : Nat := (imageWidth file * bitCount file + 31) / 32 * 4

def pixelAt (file : List UInt8) (x y : Nat) : Nat :=
  u16 file (dataOffset file + stride file * (imageHeight file - 1 - y) + 2 * x)

def redAt (file : List UInt8) (x y : Nat) : Nat := fieldOf (pixelAt file x y) (u32 file 54)

def greenAt (file : List UInt8) (x y : Nat) : Nat := fieldOf (pixelAt file x y) (u32 file 58)

def blueAt (file : List UInt8) (x y : Nat) : Nat := fieldOf (pixelAt file x y) (u32 file 62)

variable (board : Board)

theorem bmpHeaderV4_fields (rows : List UInt8) :
    u32 (bmpHeaderV4 board ++ rows) 2 = bmpFileSize board ∧
      dataOffset (bmpHeaderV4 board ++ rows) = bmpHeadSize ∧
      imageWidth (bmpHeaderV4 board ++ rows) = lcdWidth board ∧
      imageHeight (bmpHeaderV4 board ++ rows) = lcdHeight board ∧
      bitCount (bmpHeaderV4 board ++ rows) = 16 ∧
      u32 (bmpHeaderV4 board ++ rows) 54 = 0xF800 ∧
      u32 (bmpHeaderV4 board ++ rows) 58 = 0x07E0 ∧
      u32 (bmpHeaderV4 board ++ rows) 62 = 0x001F := by
  have hlong (offset : Nat) (h : offset + 4 ≤ 122) :
      u32 (bmpHeaderV4 board ++ rows) offset = u32 (bmpHeaderV4 board) offset :=
    u32_append rows (by rw [length_bmpHeaderV4]; exact h)
  have hbits : u16 (bmpHeaderV4 board ++ rows) 28 = u16 (bmpHeaderV4 board) 28 :=
    u16_append rows (by rw [length_bmpHeaderV4]; decide)
  rw [dataOffset, imageWidth, imageHeight, bitCount, hbits, hlong 2 (by decide),
    hlong 10 (by decide), hlong 18 (by decide), hlong 22 (by decide), hlong 54 (by decide),
    hlong 58 (by decide), hlong 62 (by decide)]
  cases board <;> decide

theorem length_saveBmp (mark : UInt16) (saved : Screen) (m : Memory) :
    (saveBmp board mark saved m).length = bmpFileSize board := by
  rw [saveBmp_eq, List.length_append, length_bmpHeaderV4, length_fileRows, bmpFileSize, bmpSize,
    Nat.add_comm]

theorem pixelAt_saveBmp (mark : UInt16) (saved : Screen) (m : Memory) {x y : Nat}
    (hx : x < lcdWidth board) (hy : y < lcdHeight board) :
    pixelAt (saveBmp board mark saved m) x y = (colorOf (saved x y)).toNat := by
  rw [saveBmp_eq]
  obtain ⟨-, hoffset, hwidth, hheight, hbits, -⟩ := bmpHeaderV4_fields board
    (fileRows (lcdWidth board) saved (lcdHeight board))
  have hstride : stride (bmpHeaderV4 board ++ fileRows (lcdWidth board) saved (lcdHeight board)) =
      2 * lcdWidth board := by
    rw [stride, hwidth, hbits]
    cases board <;> rfl
  have hbyte (k : Nat) (hk : k < 2 * lcdWidth board) :
      (bmpHeaderV4 board ++ fileRows (lcdWidth board) saved (lcdHeight board)).getD
          (bmpHeadSize + 2 * lcdWidth board * (lcdHeight board - 1 - y) + k) 0 =
        byteOf (colorOf (saved (k / 2) y)) (k % 2) := by
    rw [← length_bmpHeaderV4 board, Nat.add_assoc, List.getD_append_right _ _ _ _ (by omega),
      Nat.add_sub_cancel_left, getD_fileRows _ saved hy hk]
  have hword := @word_row _ x _ (fun x => colorOf (saved x y)) hbyte hx
  rw [pixelAt, hoffset, hheight, hstride, u16, ← word_toNat]
  exact congrArg UInt16.toNat hword

theorem saveBmp_readable (mark : UInt16) (saved : Screen) (m : Memory) :
    u32 (saveBmp board mark saved m) 2 = (saveBmp board mark saved m).length ∧
      imageWidth (saveBmp board mark saved m) = lcdWidth board ∧
      imageHeight (saveBmp board mark saved m) = lcdHeight board ∧
      ∀ x < lcdWidth board, ∀ y < lcdHeight board,
        redAt (saveBmp board mark saved m) x y = (redOf (saved x y)).toNat ∧
          greenAt (saveBmp board mark saved m) x y = (greenOf (saved x y)).toNat ∧
          blueAt (saveBmp board mark saved m) x y = (blueOf (saved x y)).toNat := by
  obtain ⟨hsize, -, hwidth, hheight, -, hred, hgreen, hblue⟩ := bmpHeaderV4_fields board
    (fileRows (lcdWidth board) saved (lcdHeight board))
  rw [← saveBmp_eq board mark saved m] at hsize hwidth hheight hred hgreen hblue
  refine ⟨?_, hwidth, hheight, fun x hx y hy => ⟨?_, ?_, ?_⟩⟩
  · rw [hsize, length_saveBmp]
  · rw [redAt, hred, pixelAt_saveBmp board mark saved m hx hy, redOf_toNat]
  · rw [greenAt, hgreen, pixelAt_saveBmp board mark saved m hx hy, greenOf_toNat]
  · rw [blueAt, hblue, pixelAt_saveBmp board mark saved m hx hy, blueOf_toNat]

end Reader

end NanoVNA.BmpFiles
