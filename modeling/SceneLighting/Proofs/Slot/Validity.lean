import SceneLighting.Slot.Map
import Mathlib.Data.List.Nodup
import Mathlib.Data.List.Perm.Subperm
import Mathlib.Tactic.Lemma

/-!
# Valid slot maps

The free list of a slot map is only good for what it is meant for if it names empty slots, each of
them once. Every operation keeps it so, and then a thing put in is found under its key while all
other keys name what they named before.
-/

namespace SceneLighting.SlotMap

variable {space : KeySpace} {β : Type}

/-- The free list names empty slots, each once. -/
structure Valid (m : SlotMap space β) : Prop where
  vacant : ∀ key ∈ m.free, ∃ i, key.slot = i + 1 ∧ m.slots[i]? = some none
  nodup : (m.free.map Key.slot).Nodup

variable {m : SlotMap space β}

/-! ### Slots -/

lemma occupant?_setIfInBounds {i : Nat} (h : i < m.slots.size) (occupant : Option (Occupant β))
    (free : List (Key space)) (n : Nat) :
    (⟨m.slots.setIfInBounds i occupant, free⟩ : SlotMap space β).occupant? n =
      if n = i + 1 then occupant else m.occupant? n := by
  cases n with
  | zero => simp [occupant?]
  | succ j =>
    by_cases hij : i = j
    · subst hij
      simp [occupant?, h]
    · simp [occupant?, hij, Ne.symm hij]

/-- An occupied slot is one of those made. -/
lemma exists_slot_of_get? {key : Key space} {value : β} (h : m.get? key = some value) :
    ∃ i, key.slot = i + 1 ∧ m.slots[i]? = some (some ⟨key.version, value⟩) := by
  rw [get?_eq_some_iff] at h
  rcases hs : key.slot with _ | i
  · simp [hs, occupant?] at h
  · refine ⟨i, rfl, ?_⟩
    rw [hs, occupant?, Option.join_eq_some_iff] at h
    exact h

lemma get?_of_slot {i : Nat} {key : Key space} (hs : key.slot = i + 1)
    {occupant : Option (Occupant β)} (h : m.slots[i]? = some occupant) :
    m.get? key = occupant.bind fun o => if o.version = key.version then some o.value else none := by
  simp [get?, hs, occupant?, h]

/-- A key on the free list names nothing, whatever its version. -/
lemma Valid.get?_of_free (h : m.Valid) {key k : Key space} (hk : key ∈ m.free)
    (hs : k.slot = key.slot) : m.get? k = none := by
  obtain ⟨i, hi, hv⟩ := h.vacant key hk
  simpa using get?_of_slot (hs.trans hi) hv

/-! ### Putting in -/

lemma Valid.get?_nextKey (h : m.Valid) : m.get? m.nextKey = none := by
  rcases hf : m.free with _ | ⟨key, rest⟩
  · simp [nextKey, hf, get?, occupant?]
  · simpa [nextKey, hf] using h.get?_of_free (by simp [hf]) rfl

theorem Valid.get?_insert (h : m.Valid) (value : β) (k : Key space) :
    (m.insert value).get? k = if k = m.nextKey then some value else m.get? k := by
  rcases hf : m.free with _ | ⟨key, rest⟩
  · rcases k with ⟨_ | i, version⟩
    · simp [nextKey, hf, get?, occupant?, Key.ext_iff]
    · by_cases hi : i = m.slots.size
      · subst hi
        by_cases hv : version = 1 <;>
          simp [insert, nextKey, hf, get?, occupant?, Key.ext_iff, hv, eq_comm]
      · simp [insert, nextKey, hf, get?, occupant?, Key.ext_iff, Array.getElem?_push, hi]
  · obtain ⟨i, hi, hv⟩ := h.vacant key (by simp [hf])
    have hlt : i < m.slots.size := (Array.getElem?_eq_some_iff.1 hv).1
    have hm : m.insert value =
        ⟨m.slots.setIfInBounds i (some ⟨key.version, value⟩), rest⟩ := by
      simp [insert, hf, withOccupant, hi]
    have hn : m.nextKey = key := by simp [nextKey, hf]
    by_cases hs : k.slot = i + 1
    · have hk : m.get? k = none := h.get?_of_free (by simp [hf]) (hs.trans hi.symm)
      rw [hn, hk]
      by_cases hv : k.version = key.version <;>
        simp [hm, get?, occupant?_setIfInBounds hlt, hs, Key.ext_iff, hi, hv, Ne.symm]
    · simp [hm, hn, get?, occupant?_setIfInBounds hlt, hs, Key.ext_iff, hi]

/-! ### Operations keep validity -/

lemma valid_empty : (empty : SlotMap space β).Valid :=
  ⟨by simp [empty], by simp [empty]⟩

lemma Valid.insert (h : m.Valid) (value : β) : (m.insert value).Valid := by
  rcases hf : m.free with _ | ⟨key, rest⟩
  · constructor <;> simp [SlotMap.insert, hf]
  · obtain ⟨i, hi, -⟩ := h.vacant key (by simp [hf])
    have hnodup := h.nodup
    simp only [hf, List.map_cons, List.nodup_cons, List.mem_map, not_exists, not_and] at hnodup
    refine ⟨fun k hk => ?_, ?_⟩
    · simp only [SlotMap.insert, hf] at hk
      obtain ⟨j, hj, hv⟩ := h.vacant k (by simp [hf, hk])
      refine ⟨j, hj, ?_⟩
      have hij : i ≠ j := by
        rintro rfl
        exact hnodup.1 k hk (hj.trans hi.symm)
      simpa [SlotMap.insert, hf, withOccupant, hi, hij] using hv
    · simpa [SlotMap.insert, hf] using hnodup.2

lemma Valid.modify (h : m.Valid) (key : Key space) (f : β → β) : (m.modify key f).Valid := by
  rcases hg : m.get? key with _ | value
  · simpa [SlotMap.modify, hg] using h
  · obtain ⟨i, hi, hv⟩ := exists_slot_of_get? hg
    refine ⟨fun k hk => ?_, by simpa [SlotMap.modify, hg] using h.nodup⟩
    obtain ⟨j, hj, hvj⟩ := h.vacant k (by simpa [SlotMap.modify, hg] using hk)
    have hij : i ≠ j := by
      rintro rfl
      simp [hv] at hvj
    exact ⟨j, hj, by simpa [SlotMap.modify, hg, withOccupant, hi, hij] using hvj⟩

lemma Valid.erase (h : m.Valid) (key : Key space) : (m.erase key).Valid := by
  rcases hg : m.get? key with _ | value
  · simpa [SlotMap.erase, hg] using h
  · obtain ⟨i, hi, hv⟩ := exists_slot_of_get? hg
    have hlt : i < m.slots.size := (Array.getElem?_eq_some_iff.1 hv).1
    have hm : m.erase key =
        ⟨m.slots.setIfInBounds i none, ⟨key.slot, key.version + 2⟩ :: m.free⟩ := by
      simp [SlotMap.erase, hg, withOccupant, hi]
    rw [hm]
    refine ⟨fun k hk => ?_, ?_⟩
    · rcases List.mem_cons.1 hk with rfl | hk
      · exact ⟨i, hi, by simp [hlt]⟩
      · obtain ⟨j, hj, hvj⟩ := h.vacant k hk
        have hij : i ≠ j := by
          rintro rfl
          simp [hv] at hvj
        exact ⟨j, hj, by simpa [hij] using hvj⟩
    · simp only [List.map_cons, List.nodup_cons, List.mem_map, not_exists, not_and]
      refine ⟨fun k hk hs => ?_, h.nodup⟩
      simp [h.get?_of_free hk hs.symm] at hg

lemma Valid.foldl_erase (keys : List (Key space)) (h : m.Valid) :
    (keys.foldl SlotMap.erase m).Valid := by
  induction keys generalizing m with
  | nil => exact h
  | cons key keys ih => exact ih (h.erase key)

lemma get?_foldl_erase (keys : List (Key space)) (m : SlotMap space β) (k : Key space) :
    (keys.foldl SlotMap.erase m).get? k = if k ∈ keys then none else m.get? k := by
  induction keys generalizing m with
  | nil => simp
  | cons key keys ih =>
    rw [List.foldl_cons, ih, get?_erase]
    by_cases hk : k = key <;> simp [hk]

/-! ### When maps are the same -/

/-- Two maps are the same if every key names the same in both, and the same slots are free. -/
theorem ext_get? {m m' : SlotMap space β} (hsize : m.slots.size = m'.slots.size)
    (hfree : m.free = m'.free) (hget : ∀ key, m.get? key = m'.get? key) : m = m' := by
  obtain ⟨slots, free⟩ := m
  obtain ⟨slots', free'⟩ := m'
  obtain rfl : free = free' := hfree
  congr 1
  refine Array.ext hsize fun i hi hi' => Option.ext fun occupant => ?_
  have hkey := hget ⟨i + 1, occupant.version⟩
  have hslot : ∀ {slots : Array (Option (Occupant β))} (h : i < slots.size),
      slots[i] = some occupant ↔
        get? ⟨slots, free⟩ (⟨i + 1, occupant.version⟩ : Key space) = some occupant.value := by
    intro slots h
    simp [get?_eq_some_iff, occupant?, h]
  rw [hslot hi, hslot hi', hkey]

/-! ### The keys of a map -/

theorem mem_keys_iff {key : Key space} : key ∈ m.keys ↔ (m.get? key).isSome := by
  simp only [keys, List.mem_filterMap, Prod.exists, Option.map_eq_some_iff,
    List.mem_zipIdx_iff_le_and_getElem?_sub]
  constructor
  · rintro ⟨slot, number, ⟨hle, hslot⟩, occupant, rfl, rfl⟩
    obtain ⟨i, rfl⟩ := Nat.exists_eq_add_of_le' hle
    rw [Nat.add_sub_cancel, Array.getElem?_toList] at hslot
    have hkey : (⟨i + 1, occupant.version⟩ : Key space).slot = i + 1 := rfl
    simp [get?_of_slot hkey hslot]
  · intro h
    obtain ⟨value, hv⟩ := Option.isSome_iff_exists.1 h
    obtain ⟨i, hi, hslot⟩ := exists_slot_of_get? hv
    exact ⟨some ⟨key.version, value⟩, i + 1, ⟨by omega, by simpa using hslot⟩, _, rfl,
      Key.ext hi.symm rfl⟩

theorem nodup_keys (m : SlotMap space β) : m.keys.Nodup := by
  have hnumbers : (m.slots.toList.zipIdx 1).Pairwise fun a b => a.2 ≠ b.2 := by
    rw [← List.pairwise_map, List.zipIdx_map_snd]
    exact List.nodup_range'
  apply hnumbers.filterMap _
  intro a b hab key hkey key' hkey'
  obtain ⟨_, -, rfl⟩ := Option.map_eq_some_iff.1 hkey
  obtain ⟨_, -, rfl⟩ := Option.map_eq_some_iff.1 hkey'
  simp [hab]

/-- A list of different keys that all name something is no longer than the map is large. -/
theorem length_le_size {keys : List (Key space)} (hn : keys.Nodup)
    (h : ∀ key ∈ keys, (m.get? key).isSome) : keys.length ≤ m.size :=
  (List.subperm_of_subset hn fun key hk => mem_keys_iff.2 (h key hk)).length_le

/-- Where some keys have ceased to name something, the map is smaller by as many. -/
theorem size_add_length {m' : SlotMap space β} {gone : List (Key space)} (hn : gone.Nodup)
    (hgone : ∀ key ∈ gone, (m.get? key).isSome)
    (h : ∀ key, (m'.get? key).isSome ↔ (m.get? key).isSome ∧ key ∉ gone) :
    m'.size + gone.length = m.size := by
  have hdisjoint : m'.keys.Disjoint gone :=
    fun key hkey => ((h key).1 (mem_keys_iff.1 hkey)).2
  have hperm : (m'.keys ++ gone).Perm m.keys := by
    refine (List.perm_ext_iff_of_nodup ((nodup_keys m').append hn hdisjoint) (nodup_keys m)).2 ?_
    intro key
    rw [List.mem_append, mem_keys_iff, mem_keys_iff, h]
    have := hgone key
    tauto
  rw [size, size, ← hperm.length_eq, List.length_append]

end SceneLighting.SlotMap
