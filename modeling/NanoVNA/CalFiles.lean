import NanoVNA.ConfigIntegrity

namespace NanoVNA.CalFiles

open NanoVNA.DeviceState NanoVNA.ConfigService NanoVNA.ConfigIntegrity

abbrev Byte := BitVec 8

/-- The bytes of a word, the lowest one first. -/
def wordBytes (w : Word) : List Byte :=
  [w.extractLsb' 0 8, w.extractLsb' 8 8, w.extractLsb' 16 8, w.extractLsb' 24 8]

def bytesWords : List Byte → List Word
  | b0 :: b1 :: b2 :: b3 :: rest => (b3 ++ b2 ++ b1 ++ b0 : BitVec (8 + 8 + 8 + 8)) :: bytesWords rest
  | _ => []

def bytes (img : Image) : List Byte := img.words.flatMap wordBytes

def imageOfWords : List Word → Image
  | [] => ⟨0, [], 0⟩
  | magic :: words => ⟨magic, words.dropLast, words.getLastD 0⟩

def imageOf (memory : List Byte) : Image := imageOfWords (bytesWords memory)

/-- What `f_read` returns: all of what was asked for, as far as the file goes, or an error after some
bytes have been copied. -/
inductive ReadResult
  | done
  | failed (copied : Nat)
  deriving DecidableEq

def fRead (file : List Byte) (size : Nat) : ReadResult → List Byte
  | .done => file.take size
  | .failed copied => (file.take size).take copied

def overlay (memory : List Byte) (pos : Nat) (data : List Byte) : List Byte :=
  memory.take pos ++ data ++ memory.drop (pos + data.length)

/-- The reads of `load_cal`: whether the file is accepted, and `current_props` after them. The magic
is read into a variable, what comes after it into `current_props`. -/
def readCal (first second : ReadResult) (file : List Byte) (props : Image) : Bool × Image :=
  let size := (bytes props).length
  if file.length ≠ size ∨ first ≠ .done then (false, props)
  else if bytesWords (fRead file 4 first) ≠ [propertiesMagic] then (false, props)
  else
    let data := fRead (file.drop 4) (size - 4) second
    (second = .done, imageOf (overlay (bytes props) 4 data))

/-- `load_properties`; `settle` is what the update of the frequencies makes of the properties. -/
def loadProperties (board : Board) (granted : Bool) (settle : Image → Image) (id : Nat)
    (s : Storage) : Storage :=
  let s := (caldataRecall board granted s id).2
  { s with props := settle s.props }

/-- `load_cal`, and whether it accepts the file. -/
def loadCal (board : Board) (granted : Bool) (settle : Image → Image) (first second : ReadResult)
    (file : List Byte) (s : Storage) : Bool × Storage :=
  match readCal first second file s.props with
  | (false, props) => (false, { s with props := props })
  | (true, props) =>
    (true, loadProperties board granted settle noSaveSlot { s with props := props })

/-- A file that is rejected leaves everything as it was; the image that is taken from one that is
accepted passes the test of a slot. -/
structure LoadsWhole (board : Board) (granted : Bool) (settle : Image → Image)
    (first second : ReadResult) (file : List Byte) (s : Storage) : Prop where
  rejected : (loadCal board granted settle first second file s).1 = false →
    (loadCal board granted settle first second file s).2 = s
  accepted : ∀ img, readCal first second file s.props = (true, img) →
    img.intact propertiesMagic = true

/-- A file of the right size and with the right magic, whose magic is read, is either read to its end
and passes the test of a slot, like the magic in memory; or it fails after bytes that were there
before. -/
def Whole (first second : ReadResult) (file : List Byte) (props : Image) : Prop :=
  file.length = (bytes props).length → first = .done →
    (imageOf file).magic = propertiesMagic →
      match second with
      | .done => props.magic = propertiesMagic ∧ (imageOf file).intact propertiesMagic = true
      | .failed copied => (file.drop 4).take copied = ((bytes props).drop 4).take copied

section Bytes

theorem word_wordBytes (w : Word) : bytesWords (wordBytes w) = [w] := by
  have hjoin : ∀ n pos : Nat, w.extractLsb' (pos + 8) n ++ w.extractLsb' pos 8 =
      w.extractLsb' pos (n + 8) :=
    fun _ _ => BitVec.extractLsb'_append_extractLsb'_eq_extractLsb' rfl
  have hnil : bytesWords [] = [] := rfl
  rw [wordBytes, bytesWords, hnil, hjoin 8 16, hjoin (8 + 8) 8, hjoin (8 + 8 + 8) 0]
  exact congrArg (fun v => [v]) BitVec.extractLsb'_eq_self

theorem wordBytes_word (b0 b1 b2 b3 : Byte) :
    wordBytes (b3 ++ b2 ++ b1 ++ b0 : BitVec (8 + 8 + 8 + 8)) = [b0, b1, b2, b3] := by
  have hlow : ∀ {v w : Nat} (x : BitVec v) (y : BitVec w) (pos : Nat), w ≤ pos →
      (x ++ y).extractLsb' pos 8 = x.extractLsb' (pos - w) 8 :=
    fun _ _ _ h => BitVec.extractLsb'_append_eq_of_le h
  have hhigh : ∀ {v : Nat} (x : BitVec v) (y : Byte), (x ++ y).extractLsb' 0 8 = y := by
    intro v x y
    rw [BitVec.extractLsb'_append_eq_of_add_le (Nat.le_refl _)]
    exact BitVec.extractLsb'_eq_self
  have h0 := hhigh (b3 ++ b2 ++ b1) b0
  have h1 := (hlow (b3 ++ b2 ++ b1) b0 8 (by decide)).trans (hhigh (b3 ++ b2) b1)
  have h2 := (hlow (b3 ++ b2 ++ b1) b0 16 (by decide)).trans
    ((hlow (b3 ++ b2) b1 8 (by decide)).trans (hhigh b3 b2))
  have h3 := (hlow (b3 ++ b2 ++ b1) b0 24 (by decide)).trans
    ((hlow (b3 ++ b2) b1 16 (by decide)).trans ((hlow b3 b2 8 (by decide)).trans
      BitVec.extractLsb'_eq_self))
  rw [wordBytes, h0, h1, h2, h3]

theorem bytesWords_append (w : Word) (rest : List Byte) :
    bytesWords (wordBytes w ++ rest) = w :: bytesWords rest := by
  have hword := List.cons.inj (word_wordBytes w)
  exact congrArg (· :: bytesWords rest) hword.1

theorem bytesWords_flatMap (words : List Word) : bytesWords (words.flatMap wordBytes) = words := by
  induction words with
  | nil => rfl
  | cons w words ih => rw [List.flatMap_cons, bytesWords_append, ih]

theorem length_flatMap (words : List Word) : (words.flatMap wordBytes).length = 4 * words.length := by
  induction words with
  | nil => rfl
  | cons w words ih =>
    rw [List.flatMap_cons, List.length_append, ih, List.length_cons, Nat.mul_succ, Nat.add_comm]
    rfl

theorem flatMap_bytesWords {n : Nat} {memory : List Byte} (h : memory.length = 4 * n) :
    (bytesWords memory).flatMap wordBytes = memory ∧ (bytesWords memory).length = n := by
  induction n generalizing memory with
  | zero =>
    rw [List.eq_nil_of_length_eq_zero h]
    exact ⟨rfl, rfl⟩
  | succ n ih =>
    match memory, h with
    | b0 :: b1 :: b2 :: b3 :: rest, h =>
      have hrest : rest.length = 4 * n := by
        simp only [List.length_cons] at h
        omega
      obtain ⟨hflat, hlength⟩ := ih hrest
      rw [bytesWords, List.flatMap_cons, wordBytes_word, hflat, List.length_cons, hlength]
      exact ⟨rfl, rfl⟩

theorem imageOfWords_words (img : Image) : imageOfWords img.words = img := by
  obtain ⟨magic, body, checksum⟩ := img
  simp only [Image.words, List.cons_append, imageOfWords, List.dropLast_concat,
    List.getLastD_concat]

theorem words_imageOfWords {words : List Word} (h : 2 ≤ words.length) :
    (imageOfWords words).words = words := by
  match words, h with
  | magic :: w :: words, _ =>
    have hne : w :: words ≠ [] := List.cons_ne_nil _ _
    rw [imageOfWords, Image.words, List.getLastD_eq_getLast?, List.getLast?_eq_some_getLast hne,
      Option.getD_some, List.cons_append, List.dropLast_concat_getLast hne]

theorem imageOf_bytes (img : Image) : imageOf (bytes img) = img := by
  rw [imageOf, bytes, bytesWords_flatMap, imageOfWords_words]

theorem length_bytes (img : Image) : (bytes img).length = 4 * (img.body.length + 2) := by
  rw [bytes, length_flatMap, Image.words, List.length_append, List.length_cons]
  rfl

theorem bytes_imageOf {memory : List Byte} {img : Image}
    (h : memory.length = (bytes img).length) : bytes (imageOf memory) = memory := by
  rw [length_bytes] at h
  obtain ⟨hflat, hlength⟩ := flatMap_bytesWords h
  rw [bytes, imageOf, words_imageOfWords (by omega), hflat]

theorem imageOf_eq_iff {memory : List Byte} {img : Image}
    (h : memory.length = (bytes img).length) : imageOf memory = img ↔ memory = bytes img := by
  constructor
  · intro heq
    rw [← bytes_imageOf h, heq]
  · intro heq
    rw [heq, imageOf_bytes]

end Bytes

section Overlay

variable {memory data : List Byte} {pos : Nat}

theorem length_overlay (h : pos + data.length ≤ memory.length) :
    (overlay memory pos data).length = memory.length := by
  simp only [overlay, List.length_append, List.length_take, List.length_drop]
  omega

theorem overlay_eq_iff :
    overlay memory pos data = memory ↔ data = (memory.drop pos).take data.length := by
  have hsplit : memory = memory.take pos ++ (memory.drop pos).take data.length ++
      memory.drop (pos + data.length) := by
    rw [List.append_assoc, ← List.drop_drop, List.take_append_drop, List.take_append_drop]
  have hcut : overlay memory pos data = memory.take pos ++ data ++
      memory.drop (pos + data.length) := rfl
  constructor
  · intro heq
    rw [hcut] at heq
    exact List.append_cancel_left (List.append_cancel_right (heq.trans hsplit))
  · intro heq
    have hput := congrArg (fun x => memory.take pos ++ x ++ memory.drop (pos + data.length)) heq
    exact hput.trans hsplit.symm

end Overlay

section Load

variable {board : Board} {granted : Bool} {settle : Image → Image} {first second : ReadResult}
  {file : List Byte} {s : Storage} {props : Image}

theorem fileMagic_iff (hsize : file.length = (bytes props).length) :
    bytesWords (fRead file 4 .done) = [propertiesMagic] ↔
      (imageOf file).magic = propertiesMagic := by
  rw [length_bytes] at hsize
  match file, hsize with
  | b0 :: b1 :: b2 :: b3 :: rest, _ =>
    have hread : bytesWords (fRead (b0 :: b1 :: b2 :: b3 :: rest) 4 .done) =
        [(imageOf (b0 :: b1 :: b2 :: b3 :: rest)).magic] := rfl
    rw [hread]
    exact List.singleton_inj

theorem readCal_refused
    (h : ¬ (file.length = (bytes props).length ∧ first = .done ∧
      (imageOf file).magic = propertiesMagic)) :
    readCal first second file props = (false, props) := by
  simp only [readCal]
  split
  next => rfl
  next hsize =>
    obtain ⟨hlength, rfl⟩ : file.length = (bytes props).length ∧ first = .done := by
      simpa using hsize
    rw [if_pos fun hmagic => h ⟨hlength, rfl, (fileMagic_iff hlength).mp hmagic⟩]

theorem readCal_read (hsize : file.length = (bytes props).length)
    (hmagic : (imageOf file).magic = propertiesMagic) :
    readCal .done second file props = (decide (second = .done), imageOf (overlay (bytes props) 4
      (fRead (file.drop 4) ((bytes props).length - 4) second))) := by
  simp only [readCal]
  rw [if_neg (by simp [hsize]), if_neg (not_not_intro ((fileMagic_iff hsize).mpr hmagic))]

theorem overlay_file (hsize : file.length = (bytes props).length) :
    imageOf (overlay (bytes props) 4 (fRead (file.drop 4) ((bytes props).length - 4) .done)) =
      { imageOf file with magic := props.magic } := by
  have hmemory : bytes props =
      wordBytes props.magic ++ (props.body ++ [props.checksum]).flatMap wordBytes := rfl
  have hfour := hsize.trans (length_bytes props)
  match file, hfour, hsize with
  | b0 :: b1 :: b2 :: b3 :: rest, _, hsize =>
    have hdata : fRead ((b0 :: b1 :: b2 :: b3 :: rest).drop 4) ((bytes props).length - 4) .done =
        rest := by
      rw [← hsize]
      exact List.take_length
    have hend : (bytes props).drop (4 + rest.length) = [] := by
      rw [← List.length_eq_zero_iff, List.length_drop, ← hsize]
      simp only [List.length_cons]
      omega
    have hput : overlay (bytes props) 4 rest = wordBytes props.magic ++ rest := by
      rw [overlay, hend, List.append_nil, hmemory]
      rfl
    rw [hdata, hput, imageOf, bytesWords_append]
    rfl

theorem loadsWhole_rejected {props : Image}
    (h : readCal first second file s.props = (false, props)) :
    LoadsWhole board granted settle first second file s ↔ props = s.props := by
  have hload : loadCal board granted settle first second file s = (false, { s with props := props }) := by
    rw [loadCal, h]
  constructor
  · intro hwhole
    have hkept := hwhole.rejected (by rw [hload])
    rw [hload] at hkept
    exact congrArg Storage.props hkept
  · rintro rfl
    refine ⟨fun _ => ?_, fun img himg => ?_⟩
    · rw [hload]
    · rw [h] at himg
      cases himg

theorem loadsWhole_accepted {props : Image}
    (h : readCal first second file s.props = (true, props)) :
    LoadsWhole board granted settle first second file s ↔
      props.intact propertiesMagic = true := by
  have hload : (loadCal board granted settle first second file s).1 = true := by
    rw [loadCal, h]
  constructor
  · intro hwhole
    exact hwhole.accepted props h
  · intro hintact
    refine ⟨fun hrejected => ?_, fun img himg => ?_⟩
    · rw [hload] at hrejected
      cases hrejected
    · rw [h] at himg
      cases himg
      exact hintact

end Load

/-- A calibration file is loaded whole or not at all under these conditions only. -/
theorem loads_whole_iff (board : Board) (granted : Bool) (settle : Image → Image)
    (first second : ReadResult) (file : List Byte) (s : Storage) :
    LoadsWhole board granted settle first second file s ↔ Whole first second file s.props := by
  by_cases hread : file.length = (bytes s.props).length ∧ first = .done ∧
      (imageOf file).magic = propertiesMagic
  · obtain ⟨hsize, rfl, hmagic⟩ := hread
    have hcal := @readCal_read second file s.props hsize hmagic
    cases second with
    | done =>
      rw [overlay_file hsize] at hcal
      rw [loadsWhole_accepted hcal]
      simp only [Whole, hsize, hmagic, forall_const, intact_iff, Image.covered]
      constructor
      · rintro ⟨hown, hsum⟩
        rw [hown] at hsum
        exact ⟨hown, trivial, hsum⟩
      · rintro ⟨hown, -, hsum⟩
        rw [hown]
        exact ⟨rfl, hsum⟩
    | failed copied =>
      have hall : (file.drop 4).take ((bytes s.props).length - 4) = file.drop 4 :=
        List.take_of_length_le (Nat.le_of_eq (by rw [List.length_drop, hsize]))
      have hsame : ((bytes s.props).drop 4).take ((file.drop 4).take copied).length =
          ((bytes s.props).drop 4).take copied := by
        rw [List.length_take, List.length_drop, hsize, ← List.length_drop, ← List.take_eq_take_min]
      have hfits : 4 + ((file.drop 4).take copied).length ≤ (bytes s.props).length := by
        have hlength := length_bytes s.props
        rw [List.length_take, List.length_drop]
        omega
      rw [loadsWhole_rejected hcal, fRead, hall, imageOf_eq_iff (length_overlay hfits),
        overlay_eq_iff, hsame]
      simp only [Whole, hsize, hmagic, forall_const]
  · rw [loadsWhole_rejected (readCal_refused hread)]
    exact iff_of_true rfl fun hsize hfirst hmagic => absurd ⟨hsize, hfirst, hmagic⟩ hread

def sealedDevice : Storage where
  config := ⟨0, [], 0⟩
  props := Image.seal propertiesMagic ⟨0, [5], 0⟩
  flashConfig := ⟨0, [], 0⟩
  flashProps := fun _ => ⟨0, [], 0⟩
  lastsaveid := 0
  checksumOk := fun _ => false
  calibrating := false

/-- A file with a wrong checksum is taken, and a read that fails on the way leaves half of the file
in memory. -/
theorem loads_in_part :
    ¬ LoadsWhole .f072 true id .done .done (bytes ⟨propertiesMagic, [6], 0⟩) sealedDevice ∧
      ¬ LoadsWhole .f072 true id .done (.failed 4)
        (bytes (Image.seal propertiesMagic ⟨0, [6], 0⟩)) sealedDevice := by
  refine ⟨fun h => ?_, fun h => ?_⟩
  · exact absurd (h.accepted ⟨propertiesMagic, [6], 0⟩ (by decide +kernel)) (by decide +kernel)
  · have hkept := congrArg Storage.props (h.rejected (by decide +kernel))
    exact absurd hkept (by decide +kernel)

end NanoVNA.CalFiles
