import Mathlib.Logic.Function.Basic
import NanoVNA.SavedSlots

namespace NanoVNA.ConfigService

open NanoVNA.DeviceState NanoVNA.SavedSlots

abbrev Word := BitVec 32

/-- `value = __ROR(value, 31) + *p++` over the words before the checksum -/
def checksum (words : List Word) : Word :=
  words.foldl (fun value p => value.rotateRight 31 + p) 0

/-- `config_t` or `properties_t` as the words of its memory; the first one is the magic and the
last one the checksum. -/
structure Image where
  magic : Word
  body : List Word
  checksum : Word
  deriving DecidableEq

def Image.words (img : Image) : List Word := img.magic :: img.body ++ [img.checksum]

def Image.covered (img : Image) : List Word := img.magic :: img.body

def configMagic : Word := 0x434f4e56

def propertiesMagic : Word := 0x434f4e54

/-- The magic and the checksum are written into the image in memory before it is stored. -/
def Image.seal (magic : Word) (img : Image) : Image :=
  ⟨magic, img.body, ConfigService.checksum (magic :: img.body)⟩

def Image.intact (magic : Word) (img : Image) : Bool :=
  img.magic = magic ∧ ConfigService.checksum img.covered = img.checksum

def Image.setWord (img : Image) (k : Nat) (w : Word) : Image :=
  if k = 0 then { img with magic := w }
  else if k - 1 < img.body.length then { img with body := img.body.set (k - 1) w }
  else { img with checksum := w }

theorem words_setWord {img : Image} {k : Nat} (w : Word) (hk : k < img.words.length) :
    (img.setWord k w).words = img.words.set k w := by
  unfold Image.setWord Image.words
  cases k with
  | zero => rfl
  | succ k =>
    simp only [Image.words, List.length_append, List.length_cons, List.length_nil] at hk
    simp only [Nat.add_sub_cancel, Nat.add_eq_zero_iff, Nat.one_ne_zero, and_false, if_false,
      List.cons_append, List.set_cons_succ]
    split
    · rename_i hbody
      rw [List.set_append_left _ _ hbody]
    · rename_i hbody
      have hlast : k = img.body.length := by omega
      rw [List.set_append_right _ _ (Nat.le_of_not_lt hbody), hlast, Nat.sub_self]
      rfl

/-- The two images in memory, what the flash holds, and the state of the service. -/
structure Storage where
  config : Image
  props : Image
  flashConfig : Image
  flashProps : Nat → Image
  lastsaveid : Nat
  checksumOk : Nat → Bool
  calibrating : Bool

section Calls

variable (board : Board) (granted : Bool) (program : Image → Image) (s : Storage)

/-- `granted` tells whether the flash semaphore was obtained in time; `program` is what the flash
holds after an image was written to it. -/
def configSave : Int × Storage :=
  if !granted then (-1, s)
  else
    let config := s.config.seal configMagic
    (0, { s with config := config, flashConfig := program config })

def configRecall : Int × Storage :=
  if s.flashConfig.intact configMagic then (0, { s with config := s.flashConfig }) else (-1, s)

def caldataSave (id : Nat) : Int × Storage :=
  if saveareaMax board ≤ id then (-1, s)
  else if s.calibrating then (-1, s)
  else if !granted then (-1, s)
  else
    let props := s.props.seal propertiesMagic
    (0, { s with
      props := props
      flashProps := Function.update s.flashProps id (program props)
      lastsaveid := id })

/-- A slot that passed the test once is not tested again. -/
def getProperties (id : Nat) : Option Image × Storage :=
  if saveareaMax board ≤ id then (none, s)
  else if s.checksumOk id then (some (s.flashProps id), s)
  else if (s.flashProps id).intact propertiesMagic then
    (some (s.flashProps id), { s with checksumOk := Function.update s.checksumOk id true })
  else (none, s)

def caldataRecall (id : Nat) : Int × Storage :=
  let s := { s with lastsaveid := noSaveSlot }
  if id = noSaveSlot then (0, s)
  else if !granted then (-1, s)
  else
    match getProperties board s id with
    | (none, s) => (1, s)
    | (some src, s) => (0, { s with lastsaveid := id, props := src })

end Calls

/-- The flash outlives a reset; the memory starts from its initial images. -/
def Storage.reset (s : Storage) (config props : Image) : Storage :=
  { s with
    config := config
    props := props
    lastsaveid := 0
    checksumOk := fun _ => false
    calibrating := false }

inductive RecallCall
  | config
  | caldata (id : Nat) (granted : Bool)
  | properties (id : Nat)

def recallCall (board : Board) (s : Storage) : RecallCall → Storage
  | .config => (configRecall s).2
  | .caldata id granted => (caldataRecall board granted s id).2
  | .properties id => (getProperties board s id).2

end NanoVNA.ConfigService
