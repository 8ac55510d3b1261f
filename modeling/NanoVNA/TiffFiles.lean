import NanoVNA.DeviceState
import NanoVNA.PackBits
import NanoVNA.SpiBuffer

namespace NanoVNA.TiffFiles

open NanoVNA.DeviceState NanoVNA.PackBits NanoVNA.ScreenColors NanoVNA.SpiBuffer

def lcdWidth : Board → Nat
  | .f072 => 320
  | .f303 => 480

def lcdHeight : Board → Nat
  | .f072 => 240
  | .f303 => 320

abbrev Screen := Nat → Nat → UInt16

def bmpUint16 (v : Nat) : List UInt8 := [UInt8.ofNat v, UInt8.ofNat (v / 256)]

def bmpUint32 (v : Nat) : List UInt8 :=
  [UInt8.ofNat v, UInt8.ofNat (v / 256), UInt8.ofNat (v / 65536), UInt8.ofNat (v / 16777216)]

def ifdEntry (type valueType count value : Nat) : List UInt8 :=
  bmpUint16 type ++ bmpUint16 valueType ++ bmpUint32 count ++ bmpUint32 value

def ifdShort : Nat := 3

def ifdLong : Nat := 4

def tiffPackbits : Nat := 0x8005

def tiffPhotometricRgb : Nat := 2

def ifdEntriesCount : Nat := 7

def ifdDataOffset : Nat := 10 + 12 * ifdEntriesCount + 4

def ifdBpsOffset : Nat := ifdDataOffset

def ifdStripOffset : Nat := ifdDataOffset + 6

def tifHeader (board : Board) : List UInt8 :=
  [0x49, 0x49] ++ bmpUint16 0x002A ++ bmpUint32 0x0008 ++ bmpUint16 ifdEntriesCount ++
    ifdEntry 256 ifdLong 1 (lcdWidth board) ++ ifdEntry 257 ifdLong 1 (lcdHeight board) ++
    ifdEntry 258 ifdShort 3 ifdBpsOffset ++ ifdEntry 259 ifdShort 1 tiffPackbits ++
    ifdEntry 262 ifdShort 1 tiffPhotometricRgb ++ ifdEntry 273 ifdLong 1 ifdStripOffset ++
    ifdEntry 277 ifdShort 1 3 ++ bmpUint32 0

/-- `lcd_read_memory` of a row of `w` pixels into the start of the buffer. -/
def lcdReadMemory (y w : Nat) (screen : Screen) (m : Memory) : Memory := fun k =>
  if k < 2 * w then
    if k % 2 = 0 then (screen (k / 2) y).toUInt8 else (screen (k / 2) y >>> (8 : UInt16)).toUInt8
  else m k

def lcdFill (x y : Nat) (color : UInt16) (screen : Screen) : Screen := fun x' y' =>
  if x' = x ∧ y' = y then color else screen x' y'

/-- `lcd_bulk` of a row of `w` pixels from the start of the buffer. -/
def lcdBulk (y w : Nat) (m : Memory) (screen : Screen) : Screen := fun x' y' =>
  if y' = y ∧ x' < w then load16 m x' else screen x' y'

/-- The three bytes go 128 bytes into the buffer the pixel is read from. -/
def expandPixel (m : Memory) (x : Nat) : Memory :=
  let pixel := load16 m x
  Function.update (Function.update (Function.update m (128 + 3 * x) (redOf pixel))
    (128 + 3 * x + 1) (greenOf pixel)) (128 + 3 * x + 2) (blueOf pixel)

def expandRow : Nat → Memory → Memory
  | 0, m => m
  | x + 1, m => expandRow x (expandPixel m x)

/-- One row of `save_tiff`: what goes to the file and the buffer that is left. -/
def saveRow (w y : Nat) (screen : Screen) (m : Memory) : List UInt8 × Memory :=
  let m := expandRow w (lcdReadMemory y w screen m)
  let packed := packbits (fun dest k => storeBytes m dest (128 + k)) (3 * w)
  (packed, storeBytes m packed)

/-- A mark in the last column shows the rows already saved. -/
def saveRows (board : Board) (mark : UInt16) : Nat → Nat → Screen → Memory → List UInt8
  | 0, _, _, _ => []
  | rows + 1, y, screen, m =>
    let (packed, m) := saveRow (lcdWidth board) y screen m
    packed ++ saveRows board mark rows (y + 1) (lcdFill (lcdWidth board - 1) y mark screen) m

def saveTiff (board : Board) (mark : UInt16) (screen : Screen) (m : Memory) : List UInt8 :=
  tifHeader board ++ saveRows board mark (lcdHeight board) 0 screen m

def reducePixel (m : Memory) (x : Nat) : Memory :=
  store16 m x (rgb565 (m (3 * x)) (m (3 * x + 1)) (m (3 * x + 2)))

def reduceRow : Nat → Memory → Memory
  | 0, m => m
  | x + 1, m => reducePixel (reduceRow x m) x

/-- A file that ends within a row is `none`. -/
def loadRows (board : Board) : Nat → Nat → List UInt8 → Memory → Screen → Option Screen
  | 0, _, _, _, screen => some screen
  | rows + 1, y, file, m, screen => do
    let (row, file) ← unpackbits (3 * lcdWidth board) file
    let m := reduceRow (lcdWidth board) (storeBytes m row)
    loadRows board rows (y + 1) file m (lcdBulk y (lcdWidth board) m screen)

/-- `printName` is the `lcd_printf` of the name of the file, over the rows. -/
def loadTiff (board : Board) (printName : Screen → Screen) (file : List UInt8) (m : Memory)
    (screen : Screen) : Option (Except String Screen) :=
  let m := storeBytes m (file.take (tifHeader board).length)
  if load16 m 0 ≠ 0x4949 ∨ (load16 m 9).toNat ≠ lcdWidth board ∨
      (load16 m 15).toNat ≠ lcdHeight board ∨ (load16 m 27).toNat ≠ tiffPackbits then
    some (.error "Format err")
  else
    (loadRows board (lcdHeight board) 0 (file.drop (tifHeader board).length) m screen).map
      fun shown => .ok (printName shown)

def channelOf (pixel : UInt16) : Nat → UInt8
  | 0 => redOf pixel
  | 1 => greenOf pixel
  | _ => blueOf pixel

def expandedRow (w y : Nat) (screen : Screen) : List UInt8 :=
  (List.range (3 * w)).map fun k => channelOf (screen (k / 3) y) (k % 3)

@[simp] theorem length_expandedRow (w y : Nat) (screen : Screen) :
    (expandedRow w y screen).length = 3 * w := by
  rw [expandedRow, List.length_map, List.length_range]

theorem getD_expandedRow {w y k : Nat} (screen : Screen) (hk : k < 3 * w) :
    (expandedRow w y screen).getD k 0 = channelOf (screen (k / 3) y) (k % 3) := by
  rw [expandedRow, List.getD_eq_getElem _ _ (by simpa using hk), List.getElem_map,
    List.getElem_range]

theorem length_tifHeader (board : Board) : (tifHeader board).length = 98 := by
  cases board <;> rfl

theorem load16_lcdReadMemory {y w x : Nat} (screen : Screen) (m : Memory) (hx : x < w) :
    load16 (lcdReadMemory y w screen m) x = screen x y := by
  have heven : 2 * x % 2 = 0 := Nat.mul_mod_right 2 x
  have hodd : ¬ (2 * x + 1) % 2 = 0 := by omega
  have hlow : 2 * x / 2 = x := by omega
  have hhigh : (2 * x + 1) / 2 = x := by omega
  simp only [load16, lcdReadMemory, if_pos (show 2 * x < 2 * w by omega),
    if_pos (show 2 * x + 1 < 2 * w by omega), if_pos heven, if_neg hodd, hlow, hhigh]
  exact word_bytes _

section Expand

theorem expandPixel_below (m : Memory) {x k : Nat} (hk : k < 128 + 3 * x) :
    expandPixel m x k = m k := by
  rw [expandPixel, Function.update_of_ne (by omega), Function.update_of_ne (by omega),
    Function.update_of_ne (by omega)]

theorem expandPixel_above (m : Memory) {x k : Nat} (hk : 128 + 3 * (x + 1) ≤ k) :
    expandPixel m x k = m k := by
  rw [expandPixel, Function.update_of_ne (by omega), Function.update_of_ne (by omega),
    Function.update_of_ne (by omega)]

theorem expandPixel_channel (m : Memory) (x : Nat) {c : Nat} (hc : c < 3) :
    expandPixel m x (128 + 3 * x + c) = channelOf (load16 m x) c := by
  obtain rfl | rfl | rfl : c = 0 ∨ c = 1 ∨ c = 2 := by omega
  · rw [expandPixel, Function.update_of_ne (by omega), Function.update_of_ne (by omega)]
    exact Function.update_self ..
  · rw [expandPixel, Function.update_of_ne (by omega)]
    exact Function.update_self ..
  · exact Function.update_self ..

theorem expandRow_above (m : Memory) {x k : Nat} (hk : 128 + 3 * x ≤ k) :
    expandRow x m k = m k := by
  induction x generalizing m with
  | zero => rfl
  | succ x ih => rw [expandRow, ih _ (by omega), expandPixel_above m hk]

/-- The bytes written so far lie above the pixels still to be read. -/
theorem expandRow_channel (m : Memory) {w k : Nat} (hk : k < 3 * w) :
    expandRow w m (128 + k) = channelOf (load16 m (k / 3)) (k % 3) := by
  induction w generalizing m with
  | zero => exact absurd hk (Nat.not_lt_zero k)
  | succ w ih =>
    rw [expandRow]
    by_cases hlast : k < 3 * w
    · have hpixel : load16 (expandPixel m w) (k / 3) = load16 m (k / 3) :=
        load16_congr fun j hj => expandPixel_below m (by omega)
      rw [ih _ hlast, hpixel]
    · have hplace : 128 + k = 128 + 3 * w + k % 3 := by omega
      have hpixel : k / 3 = w := by omega
      rw [expandRow_above _ (by omega), hplace, hpixel,
        expandPixel_channel m w (Nat.mod_lt k (by decide))]

theorem expandRow_screen (y : Nat) {w k : Nat} (screen : Screen) (m : Memory) (hk : k < 3 * w) :
    expandRow w (lcdReadMemory y w screen m) (128 + k) = (expandedRow w y screen).getD k 0 := by
  rw [expandRow_channel _ hk, load16_lcdReadMemory screen m (by omega), getD_expandedRow screen hk]

/-- The encoder runs 128 bytes behind the bytes it reads, and a row is too short to let it catch
up. -/
theorem readable_shared {m : Memory} {row : List UInt8}
    (hm : ∀ k < row.length, m (128 + k) = row.getD k 0) (hrow : row.length ≤ 16128) :
    Readable row fun dest k => storeBytes m dest (128 + k) := by
  intro dest i k hdest hik hk
  dsimp only
  rw [storeBytes_of_le m (by omega), hm k hk]

theorem saveRow_readable (y : Nat) {w : Nat} (hw : w ≤ 5376) (screen : Screen) (m : Memory) :
    Readable (expandedRow w y screen) fun dest k =>
      storeBytes (expandRow w (lcdReadMemory y w screen m)) dest (128 + k) := by
  apply readable_shared
  · intro k hk
    exact expandRow_screen y screen m (length_expandedRow w y screen ▸ hk)
  · rw [length_expandedRow]
    omega

theorem unpackbits_saveRow (y : Nat) {w : Nat} (hw : w ≤ 5376) (screen : Screen) (m : Memory)
    (file : List UInt8) :
    unpackbits (3 * w) ((saveRow w y screen m).1 ++ file) = some (expandedRow w y screen, file) := by
  have h := unpackbits_packbits (saveRow_readable y hw screen m) file
  rw [length_expandedRow] at h
  exact h

end Expand

section Reduce

theorem reduceRow_above (m : Memory) {x k : Nat} (hk : 2 * x ≤ k) : reduceRow x m k = m k := by
  induction x with
  | zero => rfl
  | succ x ih => rw [reduceRow, reducePixel, store16_of_ne _ _ (by omega), ih (by omega)]

/-- The pixels written so far lie below the bytes still to be read. -/
theorem load16_reduceRow (m : Memory) {w x : Nat} (hx : x < w) :
    load16 (reduceRow w m) x = rgb565 (m (3 * x)) (m (3 * x + 1)) (m (3 * x + 2)) := by
  induction w with
  | zero => exact absurd hx (Nat.not_lt_zero x)
  | succ w ih =>
    rw [reduceRow, reducePixel]
    obtain hlt | rfl := Nat.lt_succ_iff_lt_or_eq.mp hx
    · rw [load16_store16_of_ne _ _ (Nat.ne_of_lt hlt), ih hlt]
    · rw [load16_store16, reduceRow_above m (by omega), reduceRow_above m (by omega),
        reduceRow_above m (by omega)]

theorem load16_reduceRow_expandedRow (y : Nat) {w x : Nat} (screen : Screen) (m : Memory)
    (hx : x < w) :
    load16 (reduceRow w (storeBytes m (expandedRow w y screen))) x = screen x y := by
  have hbyte (c : Nat) (hc : c < 3) :
      storeBytes m (expandedRow w y screen) (3 * x + c) = channelOf (screen x y) c := by
    have hk : 3 * x + c < 3 * w := by omega
    have hpixel : (3 * x + c) / 3 = x := by omega
    have hchannel : (3 * x + c) % 3 = c := by omega
    rw [storeBytes_of_lt m (by simpa using hk), getD_expandedRow screen hk, hpixel, hchannel]
  have hred := hbyte 0 (by decide)
  rw [Nat.add_zero] at hred
  rw [load16_reduceRow _ hx, hred, hbyte 1 (by decide), hbyte 2 (by decide)]
  exact rgb565_expanded _

end Reduce

section Rows

variable (board : Board)

theorem lcdWidth_le : lcdWidth board ≤ 480 := by
  cases board <;> decide

def SameFrom (y : Nat) (screen screen' : Screen) : Prop := ∀ x, ∀ y' ≥ y, screen x y' = screen' x y'

theorem sameFrom_lcdFill {x y : Nat} {color : UInt16} {screen saved : Screen}
    (h : SameFrom y screen saved) : SameFrom (y + 1) (lcdFill x y color screen) saved := by
  intro x' y' hy'
  rw [lcdFill, if_neg (by omega), h x' y' (Nat.le_of_succ_le hy')]

theorem expandedRow_congr {w y : Nat} {screen saved : Screen} (h : SameFrom y screen saved) :
    expandedRow w y screen = expandedRow w y saved := by
  apply List.map_congr_left
  intro k _
  rw [h _ y (Nat.le_refl y)]

theorem loadRows_saveRows (mark : UInt16) {rows y : Nat} {screen saved : Screen} (m m' : Memory)
    (display : Screen) (h : SameFrom y screen saved) :
    ∃ shown, loadRows board rows y (saveRows board mark rows y screen m) m' display = some shown ∧
      ∀ x < lcdWidth board, ∀ y',
        shown x y' = if y ≤ y' ∧ y' < y + rows then saved x y' else display x y' := by
  induction rows generalizing y screen m m' display with
  | zero =>
    refine ⟨display, rfl, fun x _ y' => ?_⟩
    rw [if_neg (by omega)]
  | succ rows ih =>
    have hwidth : lcdWidth board ≤ 5376 := Nat.le_trans (lcdWidth_le board) (by decide)
    have hread := unpackbits_saveRow y hwidth screen m
      (saveRows board mark rows (y + 1) (lcdFill (lcdWidth board - 1) y mark screen)
        (saveRow (lcdWidth board) y screen m).2)
    rw [expandedRow_congr h] at hread
    obtain ⟨shown, hload, hshown⟩ := ih (saveRow (lcdWidth board) y screen m).2
      (reduceRow (lcdWidth board) (storeBytes m' (expandedRow (lcdWidth board) y saved)))
      (lcdBulk y (lcdWidth board)
        (reduceRow (lcdWidth board) (storeBytes m' (expandedRow (lcdWidth board) y saved))) display)
      (sameFrom_lcdFill h)
    refine ⟨shown, ?_, fun x hx y' => ?_⟩
    · simp only [loadRows, saveRows, hread, Option.bind_eq_bind, Option.bind_some]
      exact hload
    · rw [hshown x hx y', lcdBulk]
      obtain hlt | rfl | hgt := Nat.lt_trichotomy y' y
      · rw [if_neg (by omega), if_neg (by omega), if_neg (by omega)]
      · rw [if_neg (by omega), if_pos ⟨rfl, hx⟩, if_pos (by omega),
          load16_reduceRow_expandedRow y' saved m' hx]
      · by_cases hend : y' < y + 1 + rows
        · rw [if_pos (by omega), if_pos (by omega)]
        · rw [if_neg (by omega), if_neg (by omega), if_neg (by omega)]

theorem tifHeader_accepted (m : Memory) (rows : List UInt8) :
    ¬ (load16 (storeBytes m ((tifHeader board ++ rows).take (tifHeader board).length)) 0 ≠ 0x4949 ∨
      (load16 (storeBytes m ((tifHeader board ++ rows).take (tifHeader board).length)) 9).toNat ≠
        lcdWidth board ∨
      (load16 (storeBytes m ((tifHeader board ++ rows).take (tifHeader board).length)) 15).toNat ≠
        lcdHeight board ∨
      (load16 (storeBytes m ((tifHeader board ++ rows).take (tifHeader board).length)) 27).toNat ≠
        tiffPackbits) := by
  have hword (index : Nat) (hindex : index < 49) :
      load16 (storeBytes m (tifHeader board)) index =
        word ((tifHeader board).getD (2 * index) 0) ((tifHeader board).getD (2 * index + 1) 0) := by
    apply load16_storeBytes
    rw [length_tifHeader]
    omega
  rw [List.take_left, hword 0 (by decide), hword 9 (by decide), hword 15 (by decide),
    hword 27 (by decide)]
  cases board <;> decide

theorem screenshot_round_trip (printName : Screen → Screen) (mark : UInt16) (saved display : Screen)
    (m m' : Memory) :
    ∃ shown, loadTiff board printName (saveTiff board mark saved m) m' display =
        some (.ok (printName shown)) ∧
      ∀ x < lcdWidth board, ∀ y < lcdHeight board, shown x y = saved x y := by
  obtain ⟨shown, hload, hshown⟩ := @loadRows_saveRows board mark (lcdHeight board) 0 saved saved m
    (storeBytes m' ((saveTiff board mark saved m).take (tifHeader board).length)) display
    fun _ _ _ => rfl
  refine ⟨shown, ?_, fun x hx y hy => ?_⟩
  · rw [loadTiff, saveTiff, if_neg (tifHeader_accepted board _ _), List.drop_left]
    rw [saveTiff] at hload
    rw [hload]
    rfl
  · rw [hshown x hx y, if_pos ⟨Nat.zero_le y, by omega⟩]

end Rows

end NanoVNA.TiffFiles
