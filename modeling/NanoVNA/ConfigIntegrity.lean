import NanoVNA.ConfigService
import NanoVNA.InjectiveFold

namespace NanoVNA.ConfigIntegrity

open NanoVNA.DeviceState NanoVNA.ConfigService NanoVNA.InjectiveFold
open NanoVNA.SavedSlots (saveareaMax ne_noSaveSlot)

theorem rotateRight_injective : Function.Injective fun value : Word => value.rotateRight 31 := by
  intro v w h
  apply BitVec.eq_of_getLsbD_eq
  intro i hi
  have hbit := congrArg (fun u : Word => u.getLsbD ((i + 1) % 32)) h
  simp only [BitVec.getLsbD_rotateRight] at hbit
  by_cases hlast : i = 31
  · subst hlast
    simpa using hbit
  · have hmod : (i + 1) % 32 = i + 1 := Nat.mod_eq_of_lt (by omega)
    have hsub : i + 1 - (32 - 31 % 32) = i := by omega
    rw [hmod] at hbit
    simpa [hsub, show ¬ i + 1 < 32 - 31 % 32 by omega, show i + 1 < 32 by omega] using hbit

theorem checksum_set_ne {words : List Word} {k : Nat} {w b : Word} (hk : words[k]? = some b)
    (hne : w ≠ b) : checksum (words.set k w) ≠ checksum words := by
  have hvalue : ∀ p : Word, Function.Injective fun value : Word => value.rotateRight 31 + p :=
    fun p _ _ h => rotateRight_injective ((BitVec.add_left_inj p).mp h)
  have hword : ∀ value : Word, Function.Injective fun p : Word => value.rotateRight 31 + p :=
    fun value _ _ h => (BitVec.add_right_inj (value.rotateRight 31)).mp h
  exact foldl_set_ne hvalue hword hk hne 0

variable {magic : Word} {img : Image}

theorem seal_intact (magic : Word) (img : Image) : (img.seal magic).intact magic = true := by
  simp [Image.intact, Image.seal, Image.covered]

theorem intact_iff : img.intact magic = true ↔
    img.magic = magic ∧ checksum img.covered = img.checksum := by
  simp [Image.intact]

theorem setWord_not_intact (h : img.intact magic = true) {k : Nat} {w b : Word}
    (hk : img.words[k]? = some b) (hne : w ≠ b) : (img.setWord k w).intact magic = false := by
  obtain ⟨hmagic, hsum⟩ := intact_iff.mp h
  rw [Bool.eq_false_iff, Ne, intact_iff]
  rintro ⟨hmagic', hsum'⟩
  cases k with
  | zero =>
    obtain rfl := Option.some.inj hk
    exact hne (hmagic'.trans hmagic.symm)
  | succ k =>
    by_cases hbody : k < img.body.length
    · have hset : img.setWord (k + 1) w = { img with body := img.body.set k w } := by
        simp [Image.setWord, hbody]
      rw [hset] at hsum'
      have hcovered : img.covered[k + 1]? = some b := by
        simpa [Image.words, Image.covered, List.getElem?_append_left, hbody] using hk
      exact checksum_set_ne hcovered hne (hsum'.trans hsum.symm)
    · have hset : img.setWord (k + 1) w = { img with checksum := w } := by
        simp [Image.setWord, hbody]
      rw [hset] at hsum'
      have hlast : img.checksum = b := by
        have hk' : ([img.checksum] : List Word)[k - img.body.length]? = some b := by
          rw [← List.getElem?_append_right (Nat.le_of_not_lt hbody)]
          exact hk
        have hzero : k - img.body.length = 0 := by
          have := (List.getElem?_eq_some_iff.mp hk').1
          simpa using this
        rw [hzero] at hk'
        exact Option.some.inj hk'
      exact hne (hsum'.symm.trans (hsum.trans hlast))

/-- The cache marks only slots that would pass the test. -/
def CacheSound (s : Storage) : Prop :=
  ∀ id, s.checksumOk id = true → (s.flashProps id).intact propertiesMagic = true

variable {board : Board} {s : Storage}

theorem getProperties_cases (board : Board) (s : Storage) (id : Nat) :
    (getProperties board s id).2 = s ∨
      (s.flashProps id).intact propertiesMagic = true ∧
        (getProperties board s id).2 =
          { s with checksumOk := Function.update s.checksumOk id true } := by
  unfold getProperties
  split
  · exact .inl rfl
  · split
    · exact .inl rfl
    · split
      · exact .inr ⟨‹_›, rfl⟩
      · exact .inl rfl

structure Reads (s t : Storage) : Prop where
  config : t.flashConfig = s.flashConfig
  props : t.flashProps = s.flashProps
  cache : CacheSound s → CacheSound t

theorem reads_refl (s : Storage) : Reads s s := ⟨rfl, rfl, id⟩

theorem Reads.trans {t u : Storage} (h : Reads s t) (h' : Reads t u) : Reads s u :=
  ⟨h'.config.trans h.config, h'.props.trans h.props, fun hs => h'.cache (h.cache hs)⟩

theorem reads_getProperties (board : Board) (s : Storage) (id : Nat) :
    Reads s (getProperties board s id).2 := by
  obtain heq | ⟨hintact, heq⟩ := getProperties_cases board s id
  · rw [heq]
    exact reads_refl s
  · rw [heq]
    refine ⟨rfl, rfl, fun h i hi => ?_⟩
    by_cases hii : i = id
    · subst hii
      exact hintact
    · exact h i ((Function.update_of_ne hii ..).symm.trans hi)

theorem reads_caldataRecall (board : Board) (granted : Bool) (s : Storage) (id : Nat) :
    Reads s (caldataRecall board granted s id).2 := by
  unfold caldataRecall
  dsimp only
  split
  · exact ⟨rfl, rfl, fun h => h⟩
  · split
    · exact ⟨rfl, rfl, fun h => h⟩
    · obtain ⟨hconfig, hprops, hcache⟩ :=
        reads_getProperties board { s with lastsaveid := noSaveSlot } id
      split <;>
      · rename_i heq
        rw [heq] at hconfig hprops hcache
        exact ⟨hconfig, hprops, hcache⟩

theorem reads_recallCall (board : Board) (s : Storage) (call : RecallCall) :
    Reads s (recallCall board s call) := by
  cases call with
  | config =>
    simp only [recallCall, configRecall]
    split <;> exact ⟨rfl, rfl, fun h => h⟩
  | caldata id granted => exact reads_caldataRecall board granted s id
  | properties id => exact reads_getProperties board s id

theorem reads_recallCalls (board : Board) (s : Storage) (calls : List RecallCall) :
    Reads s (calls.foldl (recallCall board) s) := by
  induction calls generalizing s with
  | nil => exact reads_refl s
  | cons call calls ih => exact (reads_recallCall board s call).trans (ih _)

theorem caldataRecall_refused (h : CacheSound s) {id : Nat} (hid : id < saveareaMax board)
    (hbad : (s.flashProps id).intact propertiesMagic = false) (granted : Bool) :
    (caldataRecall board granted s id).1 ≠ 0 ∧
      (caldataRecall board granted s id).2.props = s.props := by
  have hslot := ne_noSaveSlot hid
  have hcache : s.checksumOk id = false :=
    Bool.eq_false_iff.mpr fun hok => Bool.false_ne_true (hbad.symm.trans (h id hok))
  cases granted with
  | false => simp [caldataRecall, hslot]
  | true => simp [caldataRecall, hslot, getProperties, Nat.not_le.mpr hid, hcache, hbad]

theorem caldataRecall_accepted {id : Nat} (hid : id < saveareaMax board)
    (hgood : (s.flashProps id).intact propertiesMagic = true) :
    (caldataRecall board true s id).1 = 0 ∧
      (caldataRecall board true s id).2.props = s.flashProps id := by
  have hslot := ne_noSaveSlot hid
  cases hcache : s.checksumOk id with
  | false => simp [caldataRecall, hslot, getProperties, Nat.not_le.mpr hid, hcache, hgood]
  | true => simp [caldataRecall, hslot, getProperties, Nat.not_le.mpr hid, hcache]

theorem configRecall_accepted (h : s.flashConfig.intact configMagic = true) :
    configRecall s = (0, { s with config := s.flashConfig }) := if_pos h

theorem configRecall_refused (h : s.flashConfig.intact configMagic = false) :
    configRecall s = (-1, s) := if_neg (Bool.eq_false_iff.mp h)

theorem caldataSave_ok {granted : Bool} {program : Image → Image} {id : Nat}
    (h : (caldataSave board granted program s id).1 = 0) :
    id < saveareaMax board ∧ s.calibrating = false ∧
      (caldataSave board granted program s id).2 =
        { s with
          props := s.props.seal propertiesMagic
          flashProps := Function.update s.flashProps id (program (s.props.seal propertiesMagic))
          lastsaveid := id } := by
  revert h
  unfold caldataSave
  split
  · exact nofun
  · split
    · exact nofun
    · split
      · exact nofun
      · exact fun _ => ⟨Nat.lt_of_not_le ‹_›, Bool.eq_false_iff.mpr ‹_›, rfl⟩

theorem after_reset (board : Board) (s : Storage) (config props : Image)
    (calls : List RecallCall) :
    let t := calls.foldl (recallCall board) (s.reset config props)
    CacheSound t ∧ t.flashConfig = s.flashConfig ∧ t.flashProps = s.flashProps := by
  intro t
  have hreset : CacheSound (s.reset config props) := fun _ h => nomatch h
  have hreads := reads_recallCalls board (s.reset config props) calls
  exact ⟨hreads.cache hreset, hreads.config, hreads.props⟩

/-- A recall gives back the image that was saved, whatever happened to the memory in between; and
after a reset an image with one word changed is refused by every recall, and leaves the image in
memory as it is. -/
theorem images_checked (board : Board) (s : Storage) :
    (∀ (granted : Bool) (t : Storage), (configSave granted id s).1 = 0 →
      t.flashConfig = (configSave granted id s).2.flashConfig →
      (configRecall t).1 = 0 ∧ (configRecall t).2.config = (configSave granted id s).2.config) ∧
    (∀ (granted : Bool) (slot : Nat) (t : Storage), (caldataSave board granted id s slot).1 = 0 →
      t.flashProps slot = (caldataSave board granted id s slot).2.flashProps slot →
      (caldataRecall board true t slot).1 = 0 ∧ (caldataRecall board true t slot).2.props =
        (caldataSave board granted id s slot).2.props) ∧
    (∀ (k : Nat) (w b : Word) (config props : Image) (calls : List RecallCall),
      s.flashConfig.intact configMagic = true →
      s.flashConfig.words[k]? = some b → w ≠ b →
      let damaged := { s with flashConfig := s.flashConfig.setWord k w }
      let t := calls.foldl (recallCall board) (damaged.reset config props)
      configRecall t = (-1, t)) ∧
    ∀ (slot k : Nat) (w b : Word) (config props : Image) (calls : List RecallCall)
      (granted : Bool), slot < saveareaMax board →
      (s.flashProps slot).intact propertiesMagic = true →
      (s.flashProps slot).words[k]? = some b → w ≠ b →
      let damaged := { s with
        flashProps := Function.update s.flashProps slot ((s.flashProps slot).setWord k w) }
      let t := calls.foldl (recallCall board) (damaged.reset config props)
      (caldataRecall board granted t slot).1 ≠ 0 ∧
        (caldataRecall board granted t slot).2.props = t.props := by
  refine ⟨fun granted t hsave ht => ?_, fun granted slot t hsave ht => ?_,
    fun k w b config props calls hgood hk hne => ?_,
    fun slot k w b config props calls granted hslot hgood hk hne => ?_⟩
  · cases granted with
    | false => cases hsave
    | true =>
      have hintact : t.flashConfig.intact configMagic = true := ht ▸ seal_intact configMagic s.config
      rw [configRecall_accepted hintact]
      exact ⟨rfl, ht⟩
  · obtain ⟨hslot, -, heq⟩ := caldataSave_ok hsave
    have hflash : t.flashProps slot = s.props.seal propertiesMagic := by
      rw [ht, heq]
      exact Function.update_self ..
    have hintact : (t.flashProps slot).intact propertiesMagic = true :=
      hflash ▸ seal_intact propertiesMagic s.props
    obtain ⟨hzero, hprops⟩ := caldataRecall_accepted hslot hintact
    refine ⟨hzero, hprops.trans (hflash.trans ?_)⟩
    rw [heq]
  · intro damaged t
    obtain ⟨-, hflash, -⟩ := after_reset board damaged config props calls
    refine configRecall_refused ?_
    rw [hflash]
    exact setWord_not_intact hgood hk hne
  · intro damaged t
    obtain ⟨hsound, -, hflash⟩ := after_reset board damaged config props calls
    refine caldataRecall_refused hsound hslot ?_ granted
    rw [hflash]
    refine (congrArg _ (Function.update_self ..)).trans ?_
    exact setWord_not_intact hgood hk hne

def twoImages : Storage where
  config := ⟨0, [], 0⟩
  props := ⟨0, [5], 0⟩
  flashConfig := Image.seal configMagic ⟨0, [], 0⟩
  flashProps _ := Image.seal propertiesMagic ⟨0, [5], 0⟩
  lastsaveid := 0
  checksumOk _ := false
  calibrating := false

theorem images_checked_two :
    (configRecall (configSave true id twoImages).2).1 = 0 ∧
      (caldataRecall .f303 true (caldataSave .f303 true id twoImages 1).2 1).1 = 0 ∧
      (configRecall (Storage.reset
        { twoImages with flashConfig := twoImages.flashConfig.setWord 1 7 }
        twoImages.config twoImages.props)).1 = -1 ∧
      (caldataRecall .f303 true (Storage.reset
        { twoImages with
          flashProps := Function.update twoImages.flashProps 1
            ((twoImages.flashProps 1).setWord 1 6) }
        twoImages.config twoImages.props) 1).1 ≠ 0 := by
  obtain ⟨hconfig, hprops, hword, hslot⟩ := images_checked .f303 twoImages
  refine ⟨(hconfig true _ rfl rfl).1, (hprops true 1 _ rfl rfl).1, ?_, ?_⟩
  · exact congrArg Prod.fst (hword 1 7 _ _ _ [] (by decide +kernel) rfl (by decide +kernel))
  · exact (hslot 1 1 6 5 _ _ [] true (by decide) (by decide +kernel) rfl (by decide)).1

end NanoVNA.ConfigIntegrity
