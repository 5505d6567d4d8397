import SceneLighting.Slot.Key

/-!
# Slot maps

A store that makes the key of each thing put into it. Slots are used again after an erasure, the
one freed last first, under a version of their own, so that an old key does not come to name a new
thing.
-/

namespace SceneLighting

/-- What a slot holds, and the version of the key that it is held under. -/
structure Occupant (β : Type) where
  version : Nat
  value : β

structure SlotMap (space : KeySpace) (β : Type) where
  /-- The slots made so far; a free one holds nothing. -/
  slots : Array (Option (Occupant β))
  /-- For each free slot the key to be given out next, last freed first. -/
  free : List (Key space)

namespace SlotMap

variable {space : KeySpace} {β : Type}

def empty : SlotMap space β :=
  ⟨#[], []⟩

/-- What the slot of a given number holds. Slots are numbered from one, so none has number zero. -/
def occupant? (m : SlotMap space β) : (number : Nat) → Option (Occupant β)
  | 0     => none
  | i + 1 => m.slots[i]?.join

/-- The thing that a key names. -/
def get? (m : SlotMap space β) (key : Key space) : Option β :=
  (m.occupant? key.slot).bind fun occupant =>
    if occupant.version = key.version then some occupant.value else none

/-- The slots after a change to the one of a given number. -/
def withOccupant (m : SlotMap space β) (number : Nat) (occupant : Option (Occupant β)) :
    Array (Option (Occupant β)) :=
  match number with
  | 0     => m.slots
  | i + 1 => m.slots.setIfInBounds i occupant

/-- The key that the next thing put in will have. -/
def nextKey (m : SlotMap space β) : Key space :=
  match m.free with
  | []       => ⟨m.slots.size + 1, 1⟩
  | key :: _ => key

/-- Put a thing in, under `m.nextKey`. -/
def insert (m : SlotMap space β) (value : β) : SlotMap space β :=
  match m.free with
  | []          => { m with slots := m.slots.push (some ⟨1, value⟩) }
  | key :: rest => ⟨m.withOccupant key.slot (some ⟨key.version, value⟩), rest⟩

/-- Change the thing that a key names, if it names one. -/
def modify (m : SlotMap space β) (key : Key space) (f : β → β) : SlotMap space β :=
  match m.get? key with
  | none       => m
  | some value => { m with slots := m.withOccupant key.slot (some ⟨key.version, f value⟩) }

/-- Take out the thing that a key names, if it names one, and free its slot. -/
def erase (m : SlotMap space β) (key : Key space) : SlotMap space β :=
  match m.get? key with
  | none   => m
  | some _ => ⟨m.withOccupant key.slot none, ⟨key.slot, key.version + 2⟩ :: m.free⟩

/-- The keys that name something, by slot. -/
def keys (m : SlotMap space β) : List (Key space) :=
  (m.slots.toList.zipIdx 1).filterMap fun (occupant, number) =>
    occupant.map fun occupant => ⟨number, occupant.version⟩

/-- The number of things held. -/
def size (m : SlotMap space β) : Nat :=
  m.keys.length

/-! ### Looking up -/

@[simp] theorem get?_empty (key : Key space) : (empty : SlotMap space β).get? key = none := by
  obtain ⟨slot, _⟩ := key
  cases slot <;> simp [get?, occupant?, empty]

@[simp] theorem get?_null (m : SlotMap space β) : m.get? .null = none :=
  rfl

theorem get?_eq_some_iff {m : SlotMap space β} {key : Key space} {value : β} :
    m.get? key = some value ↔ m.occupant? key.slot = some ⟨key.version, value⟩ := by
  rcases h : m.occupant? key.slot with _ | ⟨version, value'⟩ <;> simp [get?, h]

/-- Only slots that are there can be changed, and an occupied one is. -/
theorem occupant?_withOccupant {m : SlotMap space β} {number : Nat}
    (h : (m.occupant? number).isSome) (occupant : Option (Occupant β)) (free : List (Key space))
    (n : Nat) :
    (⟨m.withOccupant number occupant, free⟩ : SlotMap space β).occupant? n =
      if n = number then occupant else m.occupant? n := by
  cases number with
  | zero => simp [occupant?] at h
  | succ i =>
    have hi : i < m.slots.size := by
      rcases Nat.lt_or_ge i m.slots.size with hi | hi
      · exact hi
      · simp [occupant?, Array.getElem?_eq_none hi] at h
    cases n with
    | zero => simp [occupant?]
    | succ j => by_cases hij : i = j <;> grind [occupant?, withOccupant]

theorem get?_modify (m : SlotMap space β) (key k : Key space) (f : β → β) :
    (m.modify key f).get? k = if k = key then (m.get? key).map f else m.get? k := by
  rcases h : m.get? key with _ | value
  · by_cases hk : k = key <;> simp_all [modify]
  · have ho := get?_eq_some_iff.1 h
    have hm : m.modify key f =
        ⟨m.withOccupant key.slot (some ⟨key.version, f value⟩), m.free⟩ := by simp [modify, h]
    simp only [hm, get?, occupant?_withOccupant (Option.isSome_of_mem ho)]
    by_cases hs : k.slot = key.slot
    · by_cases hv : key.version = k.version <;> simp [Key.ext_iff, hs, ho, hv, eq_comm]
    · simp [Key.ext_iff, hs]

/-- What a change leaves of a thing is found as before. -/
theorem map_get?_modify {γ : Type} {m : SlotMap space β} {key : Key space} {f : β → β} {g : β → γ}
    (h : ∀ value, m.get? key = some value → g (f value) = g value) (k : Key space) :
    ((m.modify key f).get? k).map g = (m.get? k).map g := by
  rw [get?_modify]
  split
  next hk =>
    subst hk
    cases hvalue : m.get? k with
    | none => rfl
    | some value => simp [h value hvalue]
  next => rfl

theorem get?_erase (m : SlotMap space β) (key k : Key space) :
    (m.erase key).get? k = if k = key then none else m.get? k := by
  rcases h : m.get? key with _ | value
  · by_cases hk : k = key <;> simp_all [erase]
  · have ho := get?_eq_some_iff.1 h
    have hm : m.erase key =
        ⟨m.withOccupant key.slot none, ⟨key.slot, key.version + 2⟩ :: m.free⟩ := by
      simp [erase, h]
    simp only [hm, get?, occupant?_withOccupant (Option.isSome_of_mem ho)]
    by_cases hs : k.slot = key.slot
    · by_cases hv : key.version = k.version <;> simp [Key.ext_iff, hs, ho, hv, eq_comm]
    · simp [Key.ext_iff, hs]

end SlotMap

end SceneLighting
