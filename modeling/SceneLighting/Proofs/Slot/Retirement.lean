import SceneLighting.Proofs.Slot.Validity

/-!
# Keys that were given out

A slot is used again and again, each time under a later version. So a key whose thing was taken out
names nothing any more, whatever is put in afterwards.
-/

namespace SceneLighting.SlotMap

variable {space : KeySpace} {β : Type} {m : SlotMap space β} {key : Key space}

/-- The slot of a key has come to a later version than that of the key. -/
structure Retired (m : SlotMap space β) (key : Key space) : Prop where
  made : key.slot ≤ m.slots.size
  vacated : ∀ version ≤ key.version, m.get? ⟨key.slot, version⟩ = none
  later : ∀ next ∈ m.free, next.slot = key.slot → key.version < next.version

/-- A key was given out if it names something or is retired. -/
def Issued (m : SlotMap space β) (key : Key space) : Prop :=
  (m.get? key).isSome ∨ m.Retired key

lemma Retired.get?_eq (h : m.Retired key) : m.get? key = none :=
  h.vacated key.version (Nat.le_refl _)

lemma Issued.retired_of_get? (h : m.Issued key) (hkey : m.get? key = none) : m.Retired key := by
  rcases h with h | h
  · simp [hkey] at h
  · exact h

/-! ### The parts of a map after an operation -/

@[simp] lemma size_withOccupant (m : SlotMap space β) (number : Nat)
    (occupant : Option (Occupant β)) : (m.withOccupant number occupant).size = m.slots.size := by
  cases number <;> simp [withOccupant]

@[simp] lemma free_modify (m : SlotMap space β) (key : Key space) (f : β → β) :
    (m.modify key f).free = m.free := by
  rw [modify]
  split <;> rfl

@[simp] lemma size_slots_modify (m : SlotMap space β) (key : Key space) (f : β → β) :
    (m.modify key f).slots.size = m.slots.size := by
  rw [modify]
  split <;> simp

lemma size_slots_erase (m : SlotMap space β) (key : Key space) :
    (m.erase key).slots.size = m.slots.size := by
  rw [erase]
  split <;> simp

lemma size_slots_le_insert (m : SlotMap space β) (value : β) :
    m.slots.size ≤ (m.insert value).slots.size := by
  rw [insert]
  split <;> simp

lemma free_insert_subset (m : SlotMap space β) (value : β) : (m.insert value).free ⊆ m.free := by
  rw [insert]
  split
  next => exact fun _ hk => hk
  next hf => simp [hf]

/-- Erasing frees the slot of what was there, and no other. -/
lemma mem_free_erase {k : Key space} (hk : k ∈ (m.erase key).free) :
    k ∈ m.free ∨ (m.get? key).isSome ∧ k = ⟨key.slot, key.version + 2⟩ := by
  rw [erase] at hk
  split at hk
  next => exact Or.inl hk
  next hkey =>
    rcases List.mem_cons.1 hk with rfl | hk
    · exact Or.inr ⟨by simp [hkey], rfl⟩
    · exact Or.inl hk

/-- The version under which a thing is put in is not one that its slot has come past. -/
lemma Retired.ne_nextKey (h : m.Retired key) {k : Key space} (hs : k.slot = key.slot)
    (hv : k.version ≤ key.version) : k ≠ m.nextKey := by
  rintro rfl
  rw [nextKey] at hs hv
  split at hs
  next =>
    have := h.made
    simp only at hs
    omega
  next next rest hf =>
    simp only [hf] at hv
    have := h.later next (by simp [hf]) hs
    omega

/-- A slot holds one thing, so only one version of it names something. -/
lemma version_eq_of_get? {slot version version' : Nat} {value value' : β}
    (h : m.get? ⟨slot, version⟩ = some value) (h' : m.get? ⟨slot, version'⟩ = some value') :
    version = version' := by
  rw [get?_eq_some_iff] at h h'
  rw [h] at h'
  exact congrArg Occupant.version (Option.some.inj h')

/-! ### Operations keep keys retired -/

lemma Retired.insert (h : m.Retired key) (hv : m.Valid) (value : β) :
    (m.insert value).Retired key where
  made := Nat.le_trans h.made (size_slots_le_insert m value)
  vacated version hle := by
    have hne : (⟨key.slot, version⟩ : Key space) ≠ m.nextKey := h.ne_nextKey rfl hle
    rw [hv.get?_insert, if_neg hne]
    exact h.vacated version hle
  later next hn := h.later next (free_insert_subset m value hn)

lemma Retired.modify (h : m.Retired key) (k : Key space) (f : β → β) :
    (m.modify k f).Retired key where
  made := by
    rw [size_slots_modify]
    exact h.made
  vacated version hle := by
    rw [get?_modify]
    split
    next heq => rw [← heq, h.vacated version hle, Option.map_none]
    next => exact h.vacated version hle
  later := by
    rw [free_modify]
    exact h.later

lemma Retired.erase (h : m.Retired key) (k : Key space) : (m.erase k).Retired key where
  made := by
    rw [size_slots_erase]
    exact h.made
  vacated version hle := by
    rw [get?_erase]
    split
    next => rfl
    next => exact h.vacated version hle
  later next hn hs := by
    obtain hn | ⟨hk, rfl⟩ := mem_free_erase hn
    · exact h.later next hn hs
    · -- what was there was there under a later version
      have hlt : key.version < k.version := by
        apply Nat.lt_of_not_le
        intro hle
        have hvacated := h.vacated k.version hle
        rw [← hs] at hvacated
        simp [hvacated] at hk
      exact Nat.lt_add_right 2 hlt

/-- What is taken out retires its key. -/
lemma Valid.retired_erase (h : m.Valid) (hkey : (m.get? key).isSome) :
    (m.erase key).Retired key := by
  obtain ⟨value, hvalue⟩ := Option.isSome_iff_exists.1 hkey
  constructor
  case made =>
    obtain ⟨i, hi, hslot⟩ := exists_slot_of_get? hvalue
    have hlt := (Array.getElem?_eq_some_iff.1 hslot).1
    rw [size_slots_erase]
    omega
  case vacated =>
    intro version _
    rw [get?_erase]
    split
    next => rfl
    next hne =>
      rw [← Option.not_isSome_iff_eq_none, Option.isSome_iff_exists]
      rintro ⟨value', hvalue'⟩
      exact hne (Key.ext rfl (version_eq_of_get? hvalue' hvalue))
  case later =>
    intro next hn hs
    obtain hn | ⟨-, rfl⟩ := mem_free_erase hn
    · simp [h.get?_of_free hn hs.symm] at hkey
    · exact Nat.lt_add_of_pos_right (by decide)

/-! ### Operations keep keys given out -/

lemma Issued.insert (h : m.Issued key) (hv : m.Valid) (value : β) :
    (m.insert value).Issued key := by
  rcases h with h | h
  · left
    rw [hv.get?_insert]
    split
    · rfl
    · exact h
  · exact Or.inr (h.insert hv value)

lemma Issued.erase (h : m.Issued key) (hv : m.Valid) (k : Key space) :
    (m.erase k).Issued key := by
  rcases h with h | h
  · by_cases hk : key = k
    · exact Or.inr (hk ▸ hv.retired_erase h)
    · left
      rwa [get?_erase, if_neg hk]
  · exact Or.inr (h.erase k)

lemma Issued.modify (h : m.Issued key) (k : Key space) (f : β → β) :
    (m.modify k f).Issued key := by
  rcases h with h | h
  · left
    rw [get?_modify]
    split
    next hk => simpa [← hk] using h
    next => exact h
  · exact Or.inr (h.modify k f)

/-- The next key was not given out yet. -/
lemma Valid.not_issued_nextKey (h : m.Valid) : ¬m.Issued m.nextKey := by
  rintro (hnext | hnext)
  · simp [h.get?_nextKey] at hnext
  · exact hnext.ne_nextKey rfl (Nat.le_refl _) rfl

lemma Retired.foldl_erase (keys : List (Key space)) (h : m.Retired key) :
    (keys.foldl SlotMap.erase m).Retired key := by
  induction keys generalizing m with
  | nil => exact h
  | cons k keys ih => exact ih (h.erase k)

lemma Issued.foldl_erase (keys : List (Key space)) (h : m.Issued key) (hv : m.Valid) :
    (keys.foldl SlotMap.erase m).Issued key := by
  induction keys generalizing m with
  | nil => exact h
  | cons k keys ih => exact ih (h.erase hv k) (hv.erase k)

/-! ### Keys in the course of operations -/

/-- What was given out stays given out, and what was taken back stays so. -/
structure Continues (before after : SlotMap space β) : Prop where
  issued : ∀ key, before.Issued key → after.Issued key
  retired : ∀ key, before.Retired key → after.Retired key

namespace Continues

lemma refl (m : SlotMap space β) : Continues m m :=
  ⟨fun _ => id, fun _ => id⟩

lemma trans {a b c : SlotMap space β} (hab : Continues a b) (hbc : Continues b c) :
    Continues a c where
  issued key := hbc.issued key ∘ hab.issued key
  retired key := hbc.retired key ∘ hab.retired key

lemma insert (h : m.Valid) (value : β) : Continues m (m.insert value) :=
  ⟨fun _ hkey => hkey.insert h value, fun _ hkey => hkey.insert h value⟩

lemma modify (m : SlotMap space β) (key : Key space) (f : β → β) :
    Continues m (m.modify key f) where
  issued _ hkey := hkey.modify key f
  retired _ hkey := hkey.modify key f

lemma foldl_erase (h : m.Valid) (keys : List (Key space)) :
    Continues m (keys.foldl SlotMap.erase m) :=
  ⟨fun _ hkey => hkey.foldl_erase keys h, fun _ hkey => hkey.foldl_erase keys⟩

end Continues

end SceneLighting.SlotMap
