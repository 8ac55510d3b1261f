import NanoVNA.ConfigIntegrity

namespace NanoVNA.RecallRefinement

open NanoVNA.DeviceState NanoVNA.ConfigService NanoVNA.ConfigIntegrity
open NanoVNA.SavedSlots (saveareaMax)

variable {R : Type}

/-- The image of a slot that passes the test, as the properties it stands for. -/
def slotOf (decode : Image → Properties R) (s : Storage) (id : Nat) : Option (Properties R) :=
  if (s.flashProps id).intact propertiesMagic then some (decode (s.flashProps id)) else none

/-- The words in memory and in flash as properties, under any reading of the words. -/
def vnaOf (decode : Image → Properties R) (grid : Grid) (s : Storage) : Vna R where
  props := decode s.props
  grid := grid
  lastsaveid := s.lastsaveid
  slots := slotOf decode s

variable {board : Board} {s : Storage} (decode : Image → Properties R) (grid : Grid)

theorem getProperties_refines (h : CacheSound s) (id : Nat) :
    SavedSlots.getProperties board id (vnaOf decode grid s) =
      (getProperties board s id).1.map decode := by
  unfold SavedSlots.getProperties getProperties
  split
  · rfl
  · change slotOf decode s id = _
    cases hcache : s.checksumOk id with
    | true => exact if_pos (h id hcache)
    | false =>
      unfold slotOf
      cases (s.flashProps id).intact propertiesMagic <;> rfl

theorem vnaOf_getProperties (s : Storage) (id : Nat) :
    vnaOf decode grid (getProperties board s id).2 = vnaOf decode grid s := by
  obtain heq | ⟨-, heq⟩ := getProperties_cases board s id
  · rw [heq]
  · rw [heq]
    rfl

theorem caldataRecall_refines (h : CacheSound s) (id : Nat) (granted : Bool) :
    SavedSlots.caldataRecall board id granted (vnaOf decode grid s) =
      ((caldataRecall board granted s id).1,
        vnaOf decode grid (caldataRecall board granted s id).2) := by
  unfold SavedSlots.caldataRecall caldataRecall
  dsimp only
  split
  · rfl
  · split
    · rfl
    · have hget := @getProperties_refines R board { s with lastsaveid := noSaveSlot } decode grid h id
      have hvna := @vnaOf_getProperties R board decode grid { s with lastsaveid := noSaveSlot } id
      have hsource : SavedSlots.getProperties board id
          { vnaOf decode grid s with lastsaveid := noSaveSlot } =
            (getProperties board { s with lastsaveid := noSaveSlot } id).1.map decode := hget
      rw [hsource]
      revert hvna
      generalize getProperties board { s with lastsaveid := noSaveSlot } id = r
      obtain ⟨found, t⟩ := r
      intro hvna
      cases found with
      | none => exact congrArg (Prod.mk 1) hvna.symm
      | some src =>
        have hset := congrArg
          (fun v : Vna R => { v with lastsaveid := id, props := decode src }) hvna
        exact congrArg (Prod.mk 0) hset.symm

end NanoVNA.RecallRefinement
