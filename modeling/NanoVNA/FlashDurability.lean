import NanoVNA.FlashStore

namespace NanoVNA.FlashDurability

open NanoVNA.DeviceState NanoVNA.ConfigIntegrity NanoVNA.FlashStore
open NanoVNA.ConfigService (Image Storage configMagic propertiesMagic)
open NanoVNA.SavedSlots (saveareaMax ne_noSaveSlot)

section View

variable {board : Board} {σ : Type} (d : FlashUnit σ)

def view (s : Memory board σ) : Storage where
  config := s.config
  props := s.props
  flashConfig := contents d board s.flash .config
  flashProps id :=
    if id < saveareaMax board then contents d board s.flash (.slot id) else ⟨0, [], 0⟩
  lastsaveid := s.lastsaveid
  checksumOk := s.checksumOk
  calibrating := s.calibrating

variable {d} {s : Memory board σ}

theorem view_flashProps {id : Nat} (hid : id < saveareaMax board) :
    (view d s).flashProps id = contents d board s.flash (.slot id) := if_pos hid

theorem view_configSave (granted : Bool) :
    ((configSave d granted s).1, view d (configSave d granted s).2) =
      ConfigService.configSave granted (stored d board .config s.flash) (view d s) := by
  unfold configSave ConfigService.configSave
  split
  · rfl
  · have hsize : (s.config.seal configMagic).words.length = Area.config.words board :=
      (length_seal _ _).trans s.configSize
    have hslots : ∀ id, (if id < saveareaMax board then
          contents d board (store d board .config (s.config.seal configMagic) s.flash).1 (.slot id)
        else ⟨0, [], 0⟩) = (view d s).flashProps id := by
      intro id
      by_cases hid : id < saveareaMax board
      · rw [if_pos hid, view_flashProps hid]
        exact contents_store s.flash hsize trivial hid (by simp)
      · exact (if_neg hid).trans (if_neg hid).symm
    simp only [view, Prod.mk.injEq, Storage.mk.injEq, true_and, and_true]
    exact ⟨rfl, funext hslots⟩

theorem view_caldataSave (granted : Bool) (id : Nat) :
    ((caldataSave d granted s id).1, view d (caldataSave d granted s id).2) =
      ConfigService.caldataSave board granted (stored d board (.slot id) s.flash) (view d s)
        id := by
  unfold caldataSave ConfigService.caldataSave
  split
  · rfl
  · rename_i hid
    have hid : id < saveareaMax board := Nat.lt_of_not_le hid
    split
    · rename_i hcal
      exact (if_pos hcal).symm
    · rename_i hcal
      refine Eq.trans ?_ (if_neg hcal).symm
      split
      · rfl
      · have hsize : (s.props.seal propertiesMagic).words.length = (Area.slot id).words board :=
          (length_seal _ _).trans s.propsSize
        have hother : ∀ other : Area, other.Used board → .slot id ≠ other →
            contents d board (store d board (.slot id) (s.props.seal propertiesMagic) s.flash).1
              other = contents d board s.flash other :=
          fun other ho hne => contents_store s.flash hsize hid ho hne
        have hslots : ∀ j, (if j < saveareaMax board then
              contents d board (store d board (.slot id) (s.props.seal propertiesMagic)
                s.flash).1 (.slot j) else ⟨0, [], 0⟩) =
            Function.update (view d s).flashProps id
              (stored d board (.slot id) s.flash (s.props.seal propertiesMagic)) j := by
          intro j
          by_cases hji : j = id
          · rw [hji, if_pos hid, Function.update_self]
            rfl
          · rw [Function.update_of_ne hji]
            by_cases hj : j < saveareaMax board
            · rw [if_pos hj, view_flashProps hj]
              exact hother (.slot j) hj (by simpa using Ne.symm hji)
            · exact (if_neg hj).trans (if_neg hj).symm
        simp only [view, Prod.mk.injEq, Storage.mk.injEq, true_and, and_true]
        exact ⟨hother .config trivial (by simp), funext hslots⟩

theorem view_configRecall :
    ((configRecall d s).1, view d (configRecall d s).2) =
      ConfigService.configRecall (view d s) := by
  unfold configRecall ConfigService.configRecall
  by_cases hintact : (view d s).flashConfig.intact configMagic
  · rw [if_pos hintact]
    exact congrArg (fun r : Int × Memory board σ => (r.1, view d r.2)) (if_pos hintact)
  · rw [if_neg hintact]
    exact congrArg (fun r : Int × Memory board σ => (r.1, view d r.2)) (if_neg hintact)

theorem view_getProperties (id : Nat) :
    ConfigService.getProperties board (view d s) id =
      (if (getProperties d s id).1 then some (slotImage d (getProperties d s id).2 id) else none,
        view d (getProperties d s id).2) := by
  unfold getProperties ConfigService.getProperties
  by_cases hid : saveareaMax board ≤ id
  · simp only [if_pos hid, Bool.false_eq_true, if_false]
  · have hslot : (view d s).flashProps id = slotImage d s id :=
      view_flashProps (Nat.lt_of_not_le hid)
    have hcache : (view d s).checksumOk = s.checksumOk := rfl
    rw [if_neg hid, if_neg hid, hslot, hcache]
    by_cases hok : s.checksumOk id
    · simp only [if_pos hok, if_true]
    · rw [if_neg hok, if_neg hok]
      by_cases hintact : (slotImage d s id).intact propertiesMagic
      · simp only [if_pos hintact, if_true]
        rfl
      · simp only [if_neg hintact, Bool.false_eq_true, if_false]

theorem view_caldataRecall (granted : Bool) (id : Nat) :
    ((caldataRecall d granted s id).1, view d (caldataRecall d granted s id).2) =
      ConfigService.caldataRecall board granted (view d s) id := by
  unfold caldataRecall ConfigService.caldataRecall
  by_cases hid : id = noSaveSlot
  · simp only [if_pos hid]
    rfl
  · cases granted with
    | false =>
      simp only [if_neg hid]
      rfl
    | true =>
      have hget := view_getProperties (d := d) (s := { s with lastsaveid := noSaveSlot }) id
      have hview : view d { s with lastsaveid := noSaveSlot } =
          { view d s with lastsaveid := noSaveSlot } := rfl
      rw [hview] at hget
      simp only [if_neg hid, Bool.not_true, Bool.false_eq_true, if_false, hget]
      cases (getProperties d { s with lastsaveid := noSaveSlot } id).1 <;> rfl

end View

/-- What happens to a device: the calls of the service, and changes of its memory in between. -/
inductive Event (board : Board)
  | configSave (granted : Bool)
  | configRecall
  | caldataSave (id : Nat) (granted : Bool)
  | caldataRecall (id : Nat) (granted : Bool)
  | properties (id : Nat)
  | clear (granted : Bool)
  | edit (config props : Image) (configSize : config.words.length = configWords)
      (propsSize : props.words.length = propertiesWords board)
  | calibrating (flag : Bool)
  | reset (config props : Image) (configSize : config.words.length = configWords)
      (propsSize : props.words.length = propertiesWords board)

def Event.Writes {board : Board} (area : Area) : Event board → Prop
  | .configSave _ => area = .config
  | .caldataSave id _ => area = .slot id
  | .clear _ => True
  | _ => False

section Run

variable {board : Board} {σ : Type} (d : FlashUnit σ)

def step (s : Memory board σ) : Event board → Memory board σ
  | .configSave granted => (configSave d granted s).2
  | .configRecall => (configRecall d s).2
  | .caldataSave id granted => (caldataSave d granted s id).2
  | .caldataRecall id granted => (caldataRecall d granted s id).2
  | .properties id => (getProperties d s id).2
  | .clear granted => clearAllConfigPropData d granted s
  | .edit config props configSize propsSize => { s with config, props, configSize, propsSize }
  | .calibrating flag => { s with calibrating := flag }
  | .reset config props configSize propsSize =>
    ⟨config, props, configSize, propsSize, s.flash, 0, fun _ => false, false⟩

def run (s : Memory board σ) (events : List (Event board)) : Memory board σ :=
  events.foldl (step d) s

/-- Every save of a slot that reports success was done by the flash. -/
def SavesDone (s : Memory board σ) : List (Event board) → Prop
  | [] => True
  | e :: events =>
    (∀ id granted, e = .caldataSave id granted → (caldataSave d granted s id).1 = 0 →
      (store d board (.slot id) (s.props.seal propertiesMagic) s.flash).2 = true) ∧
      SavesDone (step d s e) events

variable {d} {s : Memory board σ}

theorem flash_getProperties (id : Nat) : (getProperties d s id).2.flash = s.flash := by
  unfold getProperties
  split
  · rfl
  · split
    · rfl
    · split <;> rfl

theorem flash_caldataRecall (granted : Bool) (id : Nat) :
    (caldataRecall d granted s id).2.flash = s.flash := by
  unfold caldataRecall
  dsimp only
  split
  · rfl
  · split
    · rfl
    · split <;> exact flash_getProperties id

theorem flash_configSave (granted : Bool) :
    (configSave d granted s).2.flash =
      if granted then (store d board .config (s.config.seal configMagic) s.flash).1
      else s.flash := by
  cases granted <;> rfl

theorem flash_caldataSave (granted : Bool) (id : Nat) :
    (caldataSave d granted s id).2.flash = s.flash ∨
      id < saveareaMax board ∧ (caldataSave d granted s id).2.flash =
        (store d board (.slot id) (s.props.seal propertiesMagic) s.flash).1 := by
  unfold caldataSave
  split
  · exact Or.inl rfl
  · rename_i hid
    split
    · exact Or.inl rfl
    · split
      · exact Or.inl rfl
      · exact Or.inr ⟨Nat.lt_of_not_le hid, rfl⟩

theorem caldataSave_refused {granted : Bool} {id : Nat}
    (h : (caldataSave d granted s id).1 ≠ 0) : (caldataSave d granted s id).2 = s := by
  revert h
  unfold caldataSave
  split
  · exact fun _ => rfl
  · split
    · exact fun _ => rfl
    · split
      · exact fun _ => rfl
      · exact fun h => absurd rfl h

theorem contents_step {area : Area} (ha : area.Used board) {e : Event board}
    (hquiet : ¬ e.Writes area) :
    contents d board (step d s e).flash area = contents d board s.flash area := by
  cases e with
  | configSave granted =>
    have hsize : (s.config.seal configMagic).words.length = Area.config.words board :=
      (length_seal _ _).trans s.configSize
    rw [step, flash_configSave]
    cases granted with
    | false => rfl
    | true => exact contents_store s.flash hsize trivial ha (Ne.symm hquiet)
  | configRecall =>
    simp only [step, configRecall]
    split <;> rfl
  | caldataSave id granted =>
    have hsize : (s.props.seal propertiesMagic).words.length = (Area.slot id).words board :=
      (length_seal _ _).trans s.propsSize
    obtain hflash | ⟨hid, hflash⟩ := flash_caldataSave (d := d) (s := s) granted id
    · rw [step, hflash]
    · rw [step, hflash]
      exact contents_store s.flash hsize hid ha (Ne.symm hquiet)
  | caldataRecall id granted => exact congrArg (contents d board · area) (flash_caldataRecall _ id)
  | properties id => exact congrArg (contents d board · area) (flash_getProperties id)
  | clear granted => exact absurd trivial hquiet
  | edit config props configSize propsSize => rfl
  | calibrating flag => rfl
  | reset config props configSize propsSize => rfl

/-- An area that no event writes to holds what it held, whatever fails elsewhere. -/
theorem contents_run (area : Area) (ha : area.Used board) {events : List (Event board)}
    (hquiet : ∀ e ∈ events, ¬ e.Writes area) :
    contents d board (run d s events).flash area = contents d board s.flash area := by
  induction events generalizing s with
  | nil => rfl
  | cons e events ih =>
    exact (ih fun e' he' => hquiet e' (List.mem_cons_of_mem _ he')).trans
      (contents_step ha (hquiet e List.mem_cons_self))

theorem cacheSound_caldataSave {s : Storage} {program : Image → Image} {granted : Bool} {id : Nat}
    (h : CacheSound s) (hprogram : program (s.props.seal propertiesMagic) =
      s.props.seal propertiesMagic) :
    CacheSound (ConfigService.caldataSave board granted program s id).2 := by
  unfold ConfigService.caldataSave
  split
  · exact h
  · split
    · exact h
    · split
      · exact h
      · intro j hj
        by_cases hji : j = id
        · subst hji
          refine (congrArg _ (Function.update_self ..)).trans ?_
          rw [hprogram]
          exact seal_intact propertiesMagic s.props
        · exact (congrArg _ (Function.update_of_ne hji ..)).trans (h j hj)

theorem cacheSound_step (h : CacheSound (view d s)) {e : Event board}
    (hdone : ∀ id granted, e = .caldataSave id granted → (caldataSave d granted s id).1 = 0 →
      (store d board (.slot id) (s.props.seal propertiesMagic) s.flash).2 = true) :
    CacheSound (view d (step d s e)) := by
  cases e with
  | configSave granted =>
    have hview : view d (configSave d granted s).2 = _ :=
      congrArg Prod.snd (view_configSave granted)
    rw [step, hview]
    cases granted with
    | false => exact h
    | true => exact h
  | configRecall =>
    have hview : view d (configRecall d s).2 = _ := congrArg Prod.snd view_configRecall
    rw [step, hview]
    exact (reads_recallCall board (view d s) .config).cache h
  | caldataSave id granted =>
    by_cases hzero : (caldataSave d granted s id).1 = 0
    · have hview : view d (caldataSave d granted s id).2 = _ :=
        congrArg Prod.snd (view_caldataSave granted id)
      rw [step, hview]
      have hsize : (s.props.seal propertiesMagic).words.length = (Area.slot id).words board :=
        (length_seal _ _).trans s.propsSize
      exact cacheSound_caldataSave h (stored_eq hsize (hdone id granted rfl hzero))
    · rwa [step, caldataSave_refused hzero]
  | caldataRecall id granted =>
    have hview : view d (caldataRecall d granted s id).2 = _ :=
      congrArg Prod.snd (view_caldataRecall granted id)
    rw [step, hview]
    exact (reads_caldataRecall board granted (view d s) id).cache h
  | properties id =>
    have hview : _ = view d (getProperties d s id).2 := congrArg Prod.snd (view_getProperties id)
    rw [step, ← hview]
    exact (reads_getProperties board (view d s) id).cache h
  | clear granted =>
    cases granted with
    | false => exact h
    | true => exact fun id hid => absurd hid Bool.false_ne_true
  | edit config props configSize propsSize => exact h
  | calibrating flag => exact h
  | reset config props configSize propsSize =>
    exact fun id hid => absurd hid Bool.false_ne_true

theorem cacheSound_run (h : CacheSound (view d s)) {events : List (Event board)}
    (hdone : SavesDone d s events) : CacheSound (view d (run d s events)) := by
  induction events generalizing s with
  | nil => exact h
  | cons e events ih => exact ih (cacheSound_step h hdone.1) hdone.2

/-- Settings that were saved are what a later recall brings back, through any calls, changes of
the memory and resets, and whatever the flash fails to do for the other areas. -/
theorem saved_recalled (s : Memory board σ) (events : List (Event board)) :
    (∀ (id : Nat) (granted : Bool), (caldataSave d granted s id).1 = 0 →
      (store d board (.slot id) (s.props.seal propertiesMagic) s.flash).2 = true →
      (∀ e ∈ events, ¬ e.Writes (.slot id)) →
      let t := run d (caldataSave d granted s id).2 events
      (caldataRecall d true t id).1 = 0 ∧
        (caldataRecall d true t id).2.props = s.props.seal propertiesMagic) ∧
    ∀ granted : Bool, (configSave d granted s).1 = 0 →
      (store d board .config (s.config.seal configMagic) s.flash).2 = true →
      (∀ e ∈ events, ¬ e.Writes .config) →
      let t := run d (configSave d granted s).2 events
      (configRecall d t).1 = 0 ∧ (configRecall d t).2.config = s.config.seal configMagic := by
  refine ⟨fun id granted hsave hdone hquiet => ?_, fun granted hsave hdone hquiet => ?_⟩
  · intro t
    have hview : ((caldataSave d granted s id).1, view d (caldataSave d granted s id).2) = _ :=
      view_caldataSave granted id
    have hzero := (congrArg Prod.fst hview).symm.trans hsave
    obtain ⟨hid, -, hsaved⟩ := caldataSave_ok hzero
    have hsize : (s.props.seal propertiesMagic).words.length = (Area.slot id).words board :=
      (length_seal _ _).trans s.propsSize
    have hslot : (view d (caldataSave d granted s id).2).flashProps id =
        s.props.seal propertiesMagic := by
      have hviewed : view d (caldataSave d granted s id).2 = _ := congrArg Prod.snd hview
      rw [hviewed, hsaved]
      exact (Function.update_self ..).trans (stored_eq hsize hdone)
    have hkept : (view d t).flashProps id = s.props.seal propertiesMagic := by
      rw [← hslot, view_flashProps hid, view_flashProps hid]
      exact contents_run (.slot id) hid hquiet
    have hrecall : ((caldataRecall d true t id).1, view d (caldataRecall d true t id).2) = _ :=
      view_caldataRecall true id
    have hintact : ((view d t).flashProps id).intact propertiesMagic = true :=
      hkept ▸ seal_intact propertiesMagic s.props
    obtain ⟨hok, hprops⟩ := caldataRecall_accepted hid hintact
    exact ⟨(congrArg Prod.fst hrecall).trans hok,
      (congrArg (fun r : Int × Storage => r.2.props) hrecall).trans (hprops.trans hkept)⟩
  · intro t
    have hsize : (s.config.seal configMagic).words.length = Area.config.words board :=
      (length_seal _ _).trans s.configSize
    have hsaved : (view d (configSave d granted s).2).flashConfig = s.config.seal configMagic := by
      cases granted with
      | false =>
        have hfailed : (-1 : Int) = 0 := hsave
        exact absurd hfailed (by decide)
      | true => exact stored_eq hsize hdone
    have hkept : (view d t).flashConfig = s.config.seal configMagic := by
      rw [← hsaved]
      exact contents_run .config trivial hquiet
    have hrecall : ((configRecall d t).1, view d (configRecall d t).2) = _ := view_configRecall
    have hintact : (view d t).flashConfig.intact configMagic = true :=
      hkept ▸ seal_intact configMagic s.config
    rw [configRecall_accepted hintact] at hrecall
    exact ⟨congrArg Prod.fst hrecall,
      (congrArg (fun r : Int × Storage => r.2.config) hrecall).trans hkept⟩

end Run

def sound : FlashUnit (Nat → HalfWord) where
  page := 0x400
  erased := 0xFFFF
  cells s k := s k
  erase s a := (fun k => if k / 0x400 = a / 0x400 then 0xFFFF else s k, true)
  program s a v := if s a = 0xFFFF then (Function.update s a v, true) else (s, false)
  page_pos := by decide
  erase_frame _ _ _ hk := if_neg hk
  erase_done _ _ _ _ hk := if_pos hk
  program_frame s a v k hk := by
    split
    · exact Function.update_of_ne hk ..
    · rfl
  program_done s a v hdone := by
    split at hdone
    · rw [if_pos ‹_›]
      exact Function.update_self ..
    · exact absurd hdone Bool.false_ne_true
  page_eq := by decide

theorem sound_store {board : Board} (area : Area) (img : Image) (flash : Nat → HalfWord) :
    (store sound board area img flash).2 = true :=
  store_succeeds (fun _ _ => rfl) (fun _ _ _ h => congrArg Prod.snd (if_pos h)) area img flash

def zeroImage (words : Nat) : Image := ⟨0, List.replicate (words - 2) 0, 0⟩

theorem length_zeroImage {words : Nat} (h : 2 ≤ words) :
    (zeroImage words).words.length = words := by
  simp only [zeroImage, Image.words, List.length_append, List.length_cons, List.length_nil,
    List.length_replicate]
  omega

def fresh : Memory .f072 (Nat → HalfWord) where
  config := zeroImage configWords
  props := zeroImage (propertiesWords .f072)
  configSize := length_zeroImage (by decide)
  propsSize := length_zeroImage (by decide)
  flash := fun _ => 0xFFFF
  lastsaveid := 0
  checksumOk := fun _ => false
  calibrating := false

theorem saved_recalled_fresh :
    (caldataRecall sound true (run sound (caldataSave sound true fresh 1).2
      [.caldataSave 0 true, .configSave true]) 1).1 = 0 ∧
    (configRecall sound (run sound (configSave sound true fresh).2
      [.caldataSave 3 true])).1 = 0 := by
  have hslot := (saved_recalled (d := sound) fresh [.caldataSave 0 true, .configSave true]).1 1 true
  have hconfig := (saved_recalled (d := sound) fresh [.caldataSave 3 true]).2 true
  refine ⟨(hslot rfl (sound_store _ _ _) ?_).1, (hconfig rfl (sound_store _ _ _) ?_).1⟩
  · simp [Event.Writes]
  · simp [Event.Writes]

section Sound

variable {board : Board} {σ : Type} {d : FlashUnit σ}

/-- While every save that reported success was done by the flash, a recall either brings back an
image that passes its check, or fails and leaves the settings alone. -/
theorem recalled_intact (s : Memory board σ) (hcold : ∀ id, s.checksumOk id = false)
    (events : List (Event board)) (hdone : SavesDone d s events) (granted : Bool) {id : Nat}
    (hid : id < saveareaMax board) :
    let t := run d s events
    (caldataRecall d granted t id).1 = 0 ∧
        (caldataRecall d granted t id).2.props.intact propertiesMagic = true ∨
      (caldataRecall d granted t id).1 ≠ 0 ∧ (caldataRecall d granted t id).2.props = t.props := by
  intro t
  have hsound : CacheSound (view d t) :=
    cacheSound_run (fun i hi => absurd ((hcold i).symm.trans hi) Bool.false_ne_true) hdone
  have hrecall : ((caldataRecall d granted t id).1, view d (caldataRecall d granted t id).2) = _ :=
    view_caldataRecall granted id
  have hfst : (caldataRecall d granted t id).1 =
      (ConfigService.caldataRecall board granted (view d t) id).1 := congrArg Prod.fst hrecall
  have hprops : (caldataRecall d granted t id).2.props =
      (ConfigService.caldataRecall board granted (view d t) id).2.props :=
    congrArg (fun r : Int × Storage => r.2.props) hrecall
  rw [hfst, hprops]
  cases hgood : ((view d t).flashProps id).intact propertiesMagic with
  | false => exact Or.inr (caldataRecall_refused hsound hid hgood granted)
  | true =>
    cases granted with
    | false =>
      refine Or.inr ?_
      simp [ConfigService.caldataRecall, ne_noSaveSlot hid]
      rfl
    | true =>
      obtain ⟨hok, himage⟩ := caldataRecall_accepted hid hgood
      exact Or.inl ⟨hok, himage ▸ hgood⟩

end Sound

theorem recalled_intact_fresh :
    let t := run sound fresh [.caldataSave 2 true]
    (caldataRecall sound true t 2).1 = 0 ∧
        (caldataRecall sound true t 2).2.props.intact propertiesMagic = true ∨
      (caldataRecall sound true t 2).1 ≠ 0 ∧ (caldataRecall sound true t 2).2.props = t.props :=
  recalled_intact fresh (fun _ => rfl) [.caldataSave 2 true]
    ⟨fun _ _ _ _ => sound_store _ _ _, trivial⟩ true (by decide)

end NanoVNA.FlashDurability
