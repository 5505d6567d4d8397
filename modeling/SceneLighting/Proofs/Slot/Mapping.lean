import SceneLighting.Proofs.Slot.Validity

/-!
# Changing all things in a slot map

To change each thing that a slot map holds leaves the keys alone, those that are given out and those
that are still to come. So it commutes with every operation.
-/

namespace SceneLighting.SlotMap

variable {space : KeySpace} {β γ : Type}

/-- Change each thing, whatever its key. -/
def map (f : β → γ) (m : SlotMap space β) : SlotMap space γ where
  slots := m.slots.map (Option.map fun occupant => ⟨occupant.version, f occupant.value⟩)
  free := m.free

variable (f : β → γ) (m : SlotMap space β)

lemma occupant?_map (number : Nat) : (m.map f).occupant? number =
    (m.occupant? number).map fun occupant => ⟨occupant.version, f occupant.value⟩ := by
  cases number with
  | zero => rfl
  | succ i => cases h : m.slots[i]? <;> simp [occupant?, map, h]

@[simp] lemma get?_map (key : Key space) : (m.map f).get? key = (m.get? key).map f := by
  rw [get?, get?, occupant?_map]
  cases m.occupant? key.slot with
  | none => rfl
  | some occupant =>
    simp only [Option.map_some, Option.bind_some]
    split <;> rfl

@[simp] lemma nextKey_map : (m.map f).nextKey = m.nextKey := by
  simp [nextKey, map]

lemma withOccupant_map (number : Nat) (occupant : Option (Occupant β)) :
    (m.withOccupant number occupant).map
        (Option.map fun occupant => ⟨occupant.version, f occupant.value⟩) =
      (m.map f).withOccupant number
        (occupant.map fun occupant => ⟨occupant.version, f occupant.value⟩) := by
  cases number with
  | zero => rfl
  | succ i => simp [withOccupant, map]

lemma map_insert (value : β) : (m.insert value).map f = (m.map f).insert (f value) := by
  have hfree : (m.map f).free = m.free := rfl
  rw [insert, insert, hfree]
  split
  · simp [map]
  · rw [map, withOccupant_map]
    rfl

lemma map_modify {key : Key space} {value : β} (hm : m.get? key = some value) (g : β → β) :
    (m.modify key g).map f = (m.map f).modify key fun _ => f (g value) := by
  rw [modify, modify, get?_map, hm]
  simp only [Option.map_some]
  rw [map, withOccupant_map]
  rfl

lemma map_erase (key : Key space) : (m.erase key).map f = (m.map f).erase key := by
  rw [erase, erase, get?_map]
  cases hm : m.get? key with
  | none => rfl
  | some value =>
    simp only [Option.map_some]
    rw [map, withOccupant_map]
    rfl

lemma map_foldl_erase (keys : List (Key space)) :
    (keys.foldl erase m).map f = keys.foldl erase (m.map f) := by
  induction keys generalizing m with
  | nil => rfl
  | cons key keys ih => rw [List.foldl_cons, ih, map_erase, List.foldl_cons]

/-- To put a thing back where it is changes nothing. -/
lemma modify_of_get? {key : Key space} {value : β} (h : m.get? key = some value) :
    (m.modify key fun _ => value) = m := by
  have hslots : m.withOccupant key.slot (some ⟨key.version, value⟩) = m.slots := by
    obtain ⟨i, hi, hslot⟩ := exists_slot_of_get? h
    rw [hi, withOccupant]
    apply Array.ext_getElem?
    intro j
    rw [Array.getElem?_setIfInBounds]
    split
    next hij =>
      subst hij
      split
      next => rw [hslot]
      next hsize => simp [Array.getElem?_eq_none (Nat.le_of_not_lt hsize)] at hslot
    next => rfl
  rw [modify, h]
  dsimp only
  rw [hslots]

/-- What is done to one thing and does not show in it does not show at all. -/
lemma map_modify_of_get? {key : Key space} {value : β} (hm : m.get? key = some value) {g : β → β}
    (h : f (g value) = f value) : (m.modify key g).map f = m.map f := by
  rw [map_modify f m hm, h]
  apply modify_of_get?
  rw [get?_map, hm, Option.map_some]

end SceneLighting.SlotMap
