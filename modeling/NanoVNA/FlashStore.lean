import NanoVNA.ConfigIntegrity
import NanoVNA.PagedFlash

namespace NanoVNA.FlashStore

open NanoVNA.DeviceState NanoVNA.ConfigService NanoVNA.ConfigIntegrity NanoVNA.PagedFlash
open NanoVNA.SavedSlots (saveareaMax ne_noSaveSlot)

abbrev HalfWord := BitVec 16

def flashPagesize : Nat := 0x800

def saveConfigSize : Nat := 0x00000800

def savePropConfigSize : Board → Nat
  | .f072 => 0x00001800
  | .f303 => 0x00004000

def flashCalibrationSectorStart : Board → Nat
  | .f072 => 0x08018800
  | .f303 => 0x0801C800

def flashCalibrationSectorSize : Board → Nat
  | .f072 => 0x00007800
  | .f303 => 0x0001C800

def saveFullAreaSize (board : Board) : Nat :=
  saveConfigSize + saveareaMax board * savePropConfigSize board

def saveConfigAddr (board : Board) : Nat :=
  flashCalibrationSectorStart board + flashCalibrationSectorSize board - saveConfigSize

def savePropConfigAddr (board : Board) : Nat :=
  saveConfigAddr board - saveareaMax board * savePropConfigSize board

def calibrationSlotArea (board : Board) (id : Nat) : Nat :=
  savePropConfigAddr board + id * savePropConfigSize board

/-- `sizeof(config_t)` in words -/
def configWords : Nat := 29

/-- `sizeof(properties_t)` in words -/
def propertiesWords : Board → Nat
  | .f072 => 1061
  | .f303 => 4061

/-- The flash of the controller. Its cells are half words, and the cell at a byte address is
numbered by half of it. -/
structure FlashUnit (σ : Type) extends Device σ HalfWord where
  page_eq : page = flashPagesize / 2

/-- The words of an image as the half words that are programmed, low half first. -/
def halfWords (words : List Word) : List HalfWord :=
  words.flatMap fun p => [BitVec.setWidth 16 p, BitVec.setWidth 16 (p >>> 16)]

def readWords (mem : Nat → HalfWord) (a n : Nat) : List Word :=
  (List.range n).map fun i => mem (a + 2 * i + 1) ++ mem (a + 2 * i)

def imageOfWords : List Word → Image
  | [] => ⟨0, [], 0⟩
  | magic :: rest => ⟨magic, rest.dropLast, rest.getLastD 0⟩

def readImage (mem : Nat → HalfWord) (addr words : Nat) : Image :=
  imageOfWords (readWords mem (addr / 2) words)

structure Memory (board : Board) (σ : Type) where
  config : Image
  props : Image
  configSize : config.words.length = configWords
  propsSize : props.words.length = propertiesWords board
  flash : σ
  lastsaveid : Nat
  checksumOk : Nat → Bool
  calibrating : Bool

theorem length_seal (magic : Word) (img : Image) :
    (img.seal magic).words.length = img.words.length := by
  simp [Image.words, Image.seal]

theorem imageOfWords_words (img : Image) : imageOfWords img.words = img := by
  simp [Image.words, imageOfWords]

theorem length_imageOfWords {words : List Word} (h : 2 ≤ words.length) :
    (imageOfWords words).words.length = words.length := by
  cases words with
  | nil => exact absurd h (by decide)
  | cons magic rest =>
    rw [List.length_cons] at h
    simp only [imageOfWords, Image.words, List.length_append, List.length_cons, List.length_nil,
      List.length_dropLast]
    omega

theorem length_readImage (mem : Nat → HalfWord) (addr : Nat) {words : Nat} (h : 2 ≤ words) :
    (readImage mem addr words).words.length = words := by
  have hlength : (readWords mem (addr / 2) words).length = words := by simp [readWords]
  rw [readImage, length_imageOfWords (hlength.symm ▸ h), hlength]

theorem two_le_propertiesWords (board : Board) : 2 ≤ propertiesWords board := by
  cases board <;> decide

section Calls

variable {board : Board} {σ : Type} (d : FlashUnit σ) (granted : Bool) (s : Memory board σ)

def flashErasePages (pageAddress size : Nat) (s : σ) : σ × Bool :=
  eraseFrom d.toDevice ((size + pageAddress) / 2) (pageAddress / 2) s

/-- The flag, which the source does not return, tells whether the flash did every operation. -/
def flashProgramHalfWordBuffer (dst : Nat) (data : List HalfWord) (s : σ) : σ × Bool :=
  let erased := flashErasePages d dst (2 * data.length) s
  let programmed := programFrom d.toDevice (dst / 2) data erased.1
  (programmed.1, erased.2 && programmed.2)

/-- `granted` tells whether the flash semaphore was obtained in time. -/
def configSave : Int × Memory board σ :=
  if !granted then (-1, s)
  else
    let config := s.config.seal configMagic
    (0, { s with
      config := config
      configSize := (length_seal _ _).trans s.configSize
      flash := (flashProgramHalfWordBuffer d (saveConfigAddr board) (halfWords config.words)
        s.flash).1 })

def configRecall : Int × Memory board σ :=
  let src := readImage (d.cells s.flash) (saveConfigAddr board) configWords
  if src.intact configMagic then
    (0, { s with config := src, configSize := length_readImage _ _ (by decide) })
  else (-1, s)

def caldataSave (id : Nat) : Int × Memory board σ :=
  if saveareaMax board ≤ id then (-1, s)
  else if s.calibrating then (-1, s)
  else if !granted then (-1, s)
  else
    let props := s.props.seal propertiesMagic
    let dst := calibrationSlotArea board id
    (0, { s with
      props := props
      propsSize := (length_seal _ _).trans s.propsSize
      flash := (flashProgramHalfWordBuffer d dst (halfWords props.words) s.flash).1
      lastsaveid := id })

/-- What the pointer that `get_properties` returns points to. -/
def slotImage (id : Nat) : Image :=
  readImage (d.cells s.flash) (calibrationSlotArea board id) (propertiesWords board)

/-- `true` stands for a pointer to the slot, `false` for `NULL`. -/
def getProperties (id : Nat) : Bool × Memory board σ :=
  if saveareaMax board ≤ id then (false, s)
  else if s.checksumOk id then (true, s)
  else if (slotImage d s id).intact propertiesMagic then
    (true, { s with checksumOk := Function.update s.checksumOk id true })
  else (false, s)

def caldataRecall (id : Nat) : Int × Memory board σ :=
  let s := { s with lastsaveid := noSaveSlot }
  if id = noSaveSlot then (0, s)
  else if !granted then (-1, s)
  else
    let src := getProperties d s id
    if !src.1 then (1, src.2)
    else (0, { src.2 with
      lastsaveid := id
      props := slotImage d src.2 id
      propsSize := length_readImage _ _ (two_le_propertiesWords board) })

def clearAllConfigPropData : Memory board σ :=
  if !granted then s
  else { s with
    lastsaveid := noSaveSlot
    checksumOk := fun _ => false
    flash := (flashErasePages d (savePropConfigAddr board) (saveFullAreaSize board) s.flash).1 }

end Calls

section Layout

variable {board : Board}

theorem page_dvd_slot (board : Board) (id : Nat) :
    flashPagesize ∣ calibrationSlotArea board id := by
  cases board
  · exact Nat.dvd_add (by decide) (Nat.dvd_mul_left_of_dvd (by decide) id)
  · exact Nat.dvd_add (by decide) (Nat.dvd_mul_left_of_dvd (by decide) id)

theorem page_dvd_config (board : Board) : flashPagesize ∣ saveConfigAddr board := by
  cases board <;> decide

theorem slot_succ (board : Board) (id : Nat) :
    calibrationSlotArea board (id + 1) =
      calibrationSlotArea board id + savePropConfigSize board := by
  rw [calibrationSlotArea, calibrationSlotArea, Nat.succ_mul, Nat.add_assoc]

theorem slot_mono (board : Board) {id j : Nat} (h : id ≤ j) :
    calibrationSlotArea board id ≤ calibrationSlotArea board j :=
  Nat.add_le_add_left (Nat.mul_le_mul_right _ h) _

theorem slot_max (board : Board) :
    calibrationSlotArea board (saveareaMax board) = saveConfigAddr board := by
  cases board <;> decide

theorem properties_fit (board : Board) : 4 * propertiesWords board ≤ savePropConfigSize board := by
  cases board <;> decide

end Layout

section Contents

variable {mem mem' : Nat → HalfWord}

theorem readWords_succ (mem : Nat → HalfWord) (a n : Nat) :
    readWords mem a (n + 1) = (mem (a + 1) ++ mem a) :: readWords mem (a + 2) n := by
  have hstep : ∀ i, a + 2 * (i + 1) = a + 2 + 2 * i := fun i => by omega
  simp only [readWords, List.range_succ_eq_map, List.map_cons, List.map_map, Function.comp_def,
    Nat.succ_eq_add_one, hstep, Nat.mul_zero, Nat.add_zero]

theorem readWords_congr {a n : Nat} (h : ∀ k, a ≤ k → k < a + 2 * n → mem' k = mem k) :
    readWords mem' a n = readWords mem a n := by
  refine List.map_congr_left fun i hi => ?_
  have hi := List.mem_range.mp hi
  rw [h (a + 2 * i) (by omega) (by omega), h (a + 2 * i + 1) (by omega) (by omega)]

theorem join_halves (p : Word) : BitVec.setWidth 16 (p >>> 16) ++ BitVec.setWidth 16 p = p := by
  refine BitVec.eq_of_toNat_eq ?_
  have hp := p.isLt
  rw [BitVec.toNat_append, BitVec.toNat_setWidth, BitVec.toNat_setWidth, BitVec.toNat_ushiftRight,
    Nat.shiftRight_eq_div_pow, Nat.shiftLeft_add_eq_or_of_lt (Nat.mod_lt _ (by decide)) _ |>.symm,
    Nat.shiftLeft_eq]
  omega

theorem readWords_halfWords {words : List Word} {a : Nat}
    (h : ∀ (i : Nat) (hi : i < (halfWords words).length), mem (a + i) = (halfWords words)[i]) :
    readWords mem a words.length = words := by
  induction words generalizing a with
  | nil => rfl
  | cons p words ih =>
    have hlow : mem a = BitVec.setWidth 16 p := h 0 (by simp [halfWords])
    have hhigh : mem (a + 1) = BitVec.setWidth 16 (p >>> 16) := h 1 (by simp [halfWords])
    rw [List.length_cons, readWords_succ, hlow, hhigh, join_halves, ih fun i hi => ?_]
    have hnext := h (i + 2) (by simpa [halfWords] using hi)
    rw [Nat.add_assoc, Nat.add_comm 2 i, hnext]
    rfl

theorem length_halfWords (words : List Word) : (halfWords words).length = 2 * words.length := by
  induction words with
  | nil => rfl
  | cons p words ih =>
    rw [List.length_cons, Nat.mul_succ, ← ih]
    rfl

end Contents

section Flash

variable {σ : Type} {d : FlashUnit σ}

theorem page_dvd_half (d : FlashUnit σ) {a : Nat} (ha : flashPagesize ∣ a) : d.page ∣ a / 2 := by
  obtain ⟨m, rfl⟩ := ha
  refine ⟨m, ?_⟩
  rw [d.page_eq, flashPagesize]
  omega

theorem program_frame {dst stop k : Nat} (data : List HalfWord) (s : σ)
    (hdst : flashPagesize ∣ dst) (hstop : flashPagesize ∣ stop)
    (hfits : dst + 2 * data.length ≤ stop) (hk : k < dst / 2 ∨ stop / 2 ≤ k) :
    d.cells (flashProgramHalfWordBuffer d dst data s).1 k = d.cells s k := by
  rw [flashProgramHalfWordBuffer, flashErasePages, programFrom_frame data _ (by omega)]
  exact eraseFrom_frame s (page_dvd_half d hdst) (page_dvd_half d hstop) (by omega) hk

theorem program_done {dst : Nat} {data : List HalfWord} {s : σ}
    (hdone : (flashProgramHalfWordBuffer d dst data s).2 = true) (i : Nat) (hi : i < data.length) :
    d.cells (flashProgramHalfWordBuffer d dst data s).1 (dst / 2 + i) = data[i] := by
  rw [flashProgramHalfWordBuffer, Bool.and_eq_true] at hdone
  exact programFrom_done data _ hdone.2 hi

theorem readImage_program (dst : Nat) (img : Image) (s : σ)
    (hdone : (flashProgramHalfWordBuffer d dst (halfWords img.words) s).2 = true) :
    readImage (d.cells (flashProgramHalfWordBuffer d dst (halfWords img.words) s).1) dst
      img.words.length = img := by
  rw [readImage, readWords_halfWords (program_done hdone), imageOfWords_words]

theorem readImage_kept {dst stop addr words : Nat} (data : List HalfWord) (s : σ)
    (hdst : flashPagesize ∣ dst) (hstop : flashPagesize ∣ stop) (haddr : flashPagesize ∣ addr)
    (hfits : dst + 2 * data.length ≤ stop) (hapart : addr + 4 * words ≤ dst ∨ stop ≤ addr) :
    readImage (d.cells (flashProgramHalfWordBuffer d dst data s).1) addr words =
      readImage (d.cells s) addr words := by
  have heven : ∀ {a : Nat}, flashPagesize ∣ a → 2 ∣ a := (Nat.dvd_trans (by decide) ·)
  have hdst' := heven hdst
  have hstop' := heven hstop
  have haddr' := heven haddr
  rw [readImage, readImage, readWords_congr fun k hlo hhi => ?_]
  exact program_frame data s hdst hstop hfits (by omega)

end Flash

inductive Area
  | config
  | slot (id : Nat)
  deriving DecidableEq

namespace Area

variable (board : Board)

def addr : Area → Nat
  | config => saveConfigAddr board
  | slot id => calibrationSlotArea board id

def stop : Area → Nat
  | config => saveConfigAddr board + saveConfigSize
  | slot id => calibrationSlotArea board (id + 1)

def words : Area → Nat
  | config => configWords
  | slot _ => propertiesWords board

def Used : Area → Prop
  | config => True
  | slot id => id < saveareaMax board

variable {board}

theorem page_dvd_addr (area : Area) : flashPagesize ∣ area.addr board := by
  cases area with
  | config => exact page_dvd_config board
  | slot id => exact page_dvd_slot board id

theorem page_dvd_stop (area : Area) : flashPagesize ∣ area.stop board := by
  cases area with
  | config => exact Nat.dvd_add (page_dvd_config board) (by decide)
  | slot id => exact page_dvd_slot board (id + 1)

theorem words_fit (area : Area) : area.addr board + 4 * area.words board ≤ area.stop board := by
  cases area with
  | config =>
    have hfit : 4 * configWords ≤ saveConfigSize := by decide
    exact Nat.add_le_add_left hfit _
  | slot id =>
    rw [stop, slot_succ]
    exact Nat.add_le_add_left (properties_fit board) _

theorem apart {a b : Area} (ha : a.Used board) (hb : b.Used board) (hne : a ≠ b) :
    a.stop board ≤ b.addr board ∨ b.stop board ≤ a.addr board := by
  cases a with
  | config =>
    cases b with
    | config => exact absurd rfl hne
    | slot j => exact Or.inr (Nat.le_trans (slot_mono board hb) (Nat.le_of_eq (slot_max board)))
  | slot id =>
    cases b with
    | config => exact Or.inl (Nat.le_trans (slot_mono board ha) (Nat.le_of_eq (slot_max board)))
    | slot j =>
      have hne : id ≠ j := fun h => hne (h ▸ rfl)
      obtain hlt | hgt := Nat.lt_or_gt_of_ne hne
      · exact Or.inl (slot_mono board hlt)
      · exact Or.inr (slot_mono board hgt)

end Area

section Areas

variable {board : Board} {σ : Type} (d : FlashUnit σ)

def contents (board : Board) (flash : σ) (area : Area) : Image :=
  readImage (d.cells flash) (area.addr board) (area.words board)

def store (board : Board) (area : Area) (img : Image) (flash : σ) : σ × Bool :=
  flashProgramHalfWordBuffer d (area.addr board) (halfWords img.words) flash

def stored (board : Board) (area : Area) (flash : σ) (img : Image) : Image :=
  contents d board (store d board area img flash).1 area

variable {d}

theorem stored_eq {area : Area} {img : Image} {flash : σ}
    (hsize : img.words.length = area.words board)
    (hdone : (store d board area img flash).2 = true) :
    stored d board area flash img = img := by
  rw [stored, contents, ← hsize]
  exact readImage_program _ img flash hdone

theorem contents_store {area other : Area} {img : Image} (flash : σ)
    (hsize : img.words.length = area.words board) (ha : area.Used board) (ho : other.Used board)
    (hne : area ≠ other) :
    contents d board (store d board area img flash).1 other = contents d board flash other := by
  have hfit : area.addr board + 4 * area.words board ≤ area.stop board := area.words_fit
  have hother : other.addr board + 4 * other.words board ≤ other.stop board := other.words_fit
  have hstop : flashPagesize ∣ area.stop board := area.page_dvd_stop
  refine readImage_kept _ flash area.page_dvd_addr hstop other.page_dvd_addr ?_ ?_
  · rw [length_halfWords, hsize]
    omega
  · have := Area.apart ha ho hne
    omega

theorem store_succeeds (herase : ∀ s a, (d.erase s a).2 = true)
    (hprogram : ∀ s a v, d.cells s a = d.erased → (d.program s a v).2 = true) (area : Area)
    (img : Image) (flash : σ) : (store d board area img flash).2 = true := by
  have herased := eraseFrom_succeeds herase
    ((2 * (halfWords img.words).length + area.addr board) / 2) (area.addr board / 2) flash
  have haddr : flashPagesize ∣ area.addr board := area.page_dvd_addr
  rw [store, flashProgramHalfWordBuffer, flashErasePages, Bool.and_eq_true]
  refine ⟨herased, programFrom_succeeds hprogram _ _ fun i hi => ?_⟩
  exact eraseFrom_done flash (page_dvd_half d haddr) herased (Nat.le_add_right _ i) (by omega)

end Areas

end NanoVNA.FlashStore
