import SceneLighting.Proofs.Manager.Accounts
import SceneLighting.Proofs.Manager.Coherence
import Mathlib.Algebra.Order.BigOperators.Group.List
import Mathlib.Algebra.Order.Group.Nat

/-!
# Finding a set

A request is looked up by its fingerprint, and what is found is compared with it. Lists that the
comparison takes for the same have the same fingerprint, and no two kept sets share one. So the
lookup finds every kept set that the comparison accepts.
-/

namespace SceneLighting

variable {α : Type} [Scalar α] {mode : Fingerprint.Mode} {l l' : List Nat}

/-! ### Sets made for a list -/

/-- A frame makes the set for the lights at `indices`. -/
def LightSet.MadeFor (set : LightSet α) (mode : Fingerprint.Mode) (indices : List Nat) : Prop :=
  ∃ frame : Frame α, (∀ index ∈ indices, index < frame.lights.size) ∧
    set = frame.build (.ofIndices mode indices) indices

lemma LightSet.MadeFor.serves_iff {set : LightSet α} (h : set.MadeFor mode l) :
    set.Serves mode l' ↔ mode.Same l l' := by
  obtain ⟨frame, hlt, rfl⟩ := h
  rw [LightSet.serves_iff, frame.indices_build _ hlt]

/-- In a frame with enough lights a set is made for any list. -/
lemma LightSet.exists_madeFor (α : Type) [Scalar α] (mode : Fingerprint.Mode)
    (indices : List Nat) : ∃ set : LightSet α, set.MadeFor mode indices := by
  let entry : Registered α := ⟨⟨2, 1⟩, .standard, 1, .invalid⟩
  let frame : Frame α :=
    { Frame.blank 0 with lights := Array.replicate (indices.sum + 1) entry }
  have hlt : ∀ index ∈ indices, index < frame.lights.size := by
    intro index h
    rw [Array.size_replicate]
    exact Nat.lt_succ_of_le (List.le_sum_of_mem h)
  exact ⟨_, frame, hlt, rfl⟩

/-! ### The comparison -/

namespace Fingerprint

/-- A set made for one list serves requests for another. -/
def Mode.Accepts (α : Type) [Scalar α] (mode : Mode) (l l' : List Nat) : Prop :=
  ∃ set : LightSet α, set.MadeFor mode l ∧ set.Serves mode l'

lemma Mode.accepts_iff : mode.Accepts α l l' ↔ mode.Same l l' := by
  constructor
  · rintro ⟨set, hset, hserves⟩
    exact hset.serves_iff.1 hserves
  · intro h
    obtain ⟨set, hset⟩ := LightSet.exists_madeFor α mode l
    exact ⟨set, hset, hset.serves_iff.2 h⟩

lemma Mode.equivalence_accepts (α : Type) [Scalar α] (mode : Mode) :
    Equivalence (mode.Accepts α) where
  refl l := accepts_iff.2 (.refl mode l)
  symm h := accepts_iff.2 (accepts_iff.1 h).symm
  trans h h' := accepts_iff.2 ((accepts_iff.1 h).trans (accepts_iff.1 h'))

lemma ofIndices_eq_of_accepts (h : mode.Accepts α l l') : ofIndices mode l = ofIndices mode l' :=
  (Mode.accepts_iff.1 h).ofIndices_eq

/-- Where the order does not count, a list has the fingerprint that it has when sorted. -/
lemma ofIndices_sorted_eq (hperm : l'.Perm l) (hsorted : l'.Pairwise (· ≤ ·)) :
    ofIndices .sorted l = ofIndices .ordered l' := by
  have hsame : Mode.sorted.Same l l' := hperm.symm
  have hself : l'.mergeSort = l' := List.mergeSort_of_pairwise (by simpa using hsorted)
  rw [hsame.ofIndices_eq, ofIndices, Mode.representative, hself]
  rfl

end Fingerprint

/-! ### The lookup -/

omit [Scalar α] in
/-- When no two sets kept share a fingerprint, each is found by its own. -/
lemma Frame.cached?_of_mem {frame : Frame α}
    (hnodup : (frame.cache.map LightSet.fingerprint).Nodup) {set : LightSet α}
    (hset : set ∈ frame.cache) : frame.cached? set.fingerprint = some set := by
  obtain ⟨kept, hkept⟩ : ∃ kept, frame.cached? set.fingerprint = some kept :=
    Option.isSome_iff_exists.1 (cached?_isSome_iff.2 (List.mem_map_of_mem hset))
  have hmem : kept ∈ frame.cache := List.mem_of_find?_eq_some hkept
  have hfingerprint : kept.fingerprint = set.fingerprint := by simpa using List.find?_some hkept
  rw [hkept, List.inj_on_of_nodup_map hnodup hmem hset hfingerprint]

namespace Session

variable {settings : Settings} {run : List (Step α)}

lemma nodup_fingerprints_after (settings : Settings) (run : List (Step α)) :
    ((after settings run).manager.frame.cache.map LightSet.fingerprint).Nodup := by
  rw [← Ledger.toSession_after]
  exact (Ledger.sound_after settings run).tallies.nodup

/-- A kept set that serves a request is found. -/
lemma cached?_of_serves {set : LightSet α} (hset : set ∈ (after settings run).manager.frame.cache)
    (hserves : set.Serves settings.mode l) :
    (after settings run).manager.frame.cached? (.ofIndices settings.mode l) = some set := by
  have hcurrent := (coherent_after settings run).kept set hset
  have hfingerprint : set.fingerprint = .ofIndices settings.mode l :=
    hcurrent.fingerprint_eq.trans (LightSet.serves_iff.1 hserves).ofIndices_eq
  rw [← hfingerprint]
  exact Frame.cached?_of_mem (nodup_fingerprints_after settings run) hset

end Session

/-- A set made for one list serves requests for the same list, or for its permutations where the
order does not count. This makes lists equivalent, and equivalent lists have the same fingerprint.
So in every run a kept set that serves a request is found and answers it. Where the order does not
count, the fingerprint is that of the sorted list. -/
theorem comparison_agrees (α : Type) [Scalar α] (l l' : List Nat) :
    (∀ set : LightSet α, set.MadeFor .ordered l → (set.Serves .ordered l' ↔ l = l')) ∧
    (∀ set : LightSet α, set.MadeFor .sorted l → (set.Serves .sorted l' ↔ l'.Perm l)) ∧
    (∀ mode : Fingerprint.Mode, Equivalence (mode.Accepts α) ∧
      (mode.Accepts α l l' → Fingerprint.ofIndices mode l = .ofIndices mode l')) ∧
    (∀ (settings : Settings) (run : List (Session.Step α)),
      let frame := (Session.after settings run).manager.frame
      ∀ set ∈ frame.cache, set.Serves settings.mode l' →
        frame.cached? (.ofIndices settings.mode l') = some set ∧
        Frame.answer settings.mode l' frame = ⟨.ok set, frame.countHit, []⟩) ∧
    ∀ sorted : List Nat, sorted.Perm l → sorted.Pairwise (· ≤ ·) →
      Fingerprint.ofIndices .sorted l = .ofIndices .ordered sorted := by
  refine ⟨?_, ?_, ?_, ?_, ?_⟩
  · intro set hset
    exact hset.serves_iff
  · intro set hset
    exact hset.serves_iff.trans (List.perm_comm)
  · intro mode
    exact ⟨mode.equivalence_accepts α, Fingerprint.ofIndices_eq_of_accepts⟩
  · intro settings run frame set hset hserves
    have hcached := Session.cached?_of_serves hset hserves
    refine ⟨hcached, ?_⟩
    simp only [Frame.answer, frame, hcached, if_pos hserves]
  · intro sorted
    exact Fingerprint.ofIndices_sorted_eq

/-- A request with a repeated light, where the order does not count. -/
def Session.repeating : List (Session.Step Float32) :=
  List.replicate 3 (.register ⟨2, 1⟩ .standard 1) ++ [.request [2, 0, 2]]

lemma Session.indices_repeating :
    (after ⟨8, .sorted, true⟩ repeating).manager.frame.cache.map LightSet.indices =
      [[2, 0, 2]] := by
  decide +kernel

/-- The kept set answers a request for the same lights in another order. -/
theorem comparison_agrees_repeating :
    (∃ set : LightSet Float32, set.MadeFor .sorted [2, 0, 2] ∧ set.Serves .sorted [0, 2, 2]) ∧
    Fingerprint.ofIndices .sorted [2, 0, 2] = .ofIndices .sorted [0, 2, 2] ∧
    Fingerprint.ofIndices .sorted [2, 0, 2] = .ofIndices .ordered [0, 2, 2] ∧
    let frame := (Session.after ⟨8, .sorted, true⟩ Session.repeating).manager.frame
    ∃ set ∈ frame.cache, set.indices = [2, 0, 2] ∧
      Frame.answer .sorted [0, 2, 2] frame = ⟨.ok set, frame.countHit, []⟩ := by
  obtain ⟨-, hsorted, hmode, hlookup, hkey⟩ := comparison_agrees Float32 [2, 0, 2] [0, 2, 2]
  obtain ⟨set, hset⟩ := LightSet.exists_madeFor Float32 .sorted [2, 0, 2]
  have hserves : set.Serves .sorted [0, 2, 2] := (hsorted set hset).2 (by decide)
  obtain ⟨kept, hkept, hindices⟩ : ∃ kept ∈
      (Session.after ⟨8, .sorted, true⟩ Session.repeating).manager.frame.cache,
      kept.indices = [2, 0, 2] :=
    List.mem_map.1 (Session.indices_repeating ▸ List.mem_singleton_self _)
  have hagain : kept.Serves .sorted [0, 2, 2] := by
    rw [LightSet.serves_iff, hindices]
    exact (by decide : [2, 0, 2].Perm [0, 2, 2])
  exact ⟨⟨set, hset, hserves⟩, (hmode .sorted).2 ⟨set, hset, hserves⟩,
    hkey [0, 2, 2] (by decide) (by decide), kept, hkept, hindices,
    (hlookup ⟨8, .sorted, true⟩ Session.repeating kept hkept hagain).2⟩

end SceneLighting
