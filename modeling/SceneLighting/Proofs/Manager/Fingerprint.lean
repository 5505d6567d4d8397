import SceneLighting.Manager.Fingerprint
import Mathlib.Algebra.Ring.Nat
import Mathlib.Logic.ExistsUnique
import Mathlib.Tactic.Lemma

/-!
# Collisions of fingerprints

An index is mixed into a hash by sums that wrap around and one exclusive or, and both can be taken
back. So after any list there is exactly one last index for every hash, and two lists that share a
fingerprint differ before their last index.
-/

namespace SceneLighting.Fingerprint

/-- The word that turns one hash into another when it is mixed in. -/
def unmix (seed hash : UInt64) : UInt64 :=
  (seed ^^^ hash) - seed >>> (2 : UInt64) - seed <<< (6 : UInt64) - 0x9e3779b9

lemma xor_eq_iff_eq_xor {a b c : UInt64} : a ^^^ b = c ↔ b = a ^^^ c := by
  rw [← UInt64.xor_right_inj a, ← UInt64.xor_assoc, UInt64.xor_self, UInt64.zero_xor]

lemma mix_eq_iff {seed hash : UInt64} {index : Nat} :
    mix seed index = hash ↔ UInt64.ofNat index = unmix seed hash := by
  rw [mix, unmix, xor_eq_iff_eq_xor, UInt64.eq_sub_iff_add_eq, UInt64.eq_sub_iff_add_eq,
    UInt64.eq_sub_iff_add_eq]

/-! ### The last index -/

variable {p : List Nat} {i j : Nat}

lemma ofIndices_concat (p : List Nat) (i : Nat) :
    ofIndices .ordered (p ++ [i]) = ⟨mix (ofIndices .ordered p).word i⟩ := by
  rw [ofIndices, Mode.representative, List.foldl_append]
  rfl

/-- An index of 64 bits that ends a list is known from the hash. -/
lemma ofIndices_concat_eq_iff {hash : UInt64} (hi : i < 2 ^ 64) :
    ofIndices .ordered (p ++ [i]) = ⟨hash⟩ ↔
      i = (unmix (ofIndices .ordered p).word hash).toNat := by
  calc ofIndices .ordered (p ++ [i]) = ⟨hash⟩
      ↔ mix (ofIndices .ordered p).word i = hash := by rw [ofIndices_concat, Fingerprint.mk.injEq]
    _ ↔ i % 2 ^ 64 = (unmix (ofIndices .ordered p).word hash).toNat := by
        rw [mix_eq_iff, UInt64.ofNat_eq_iff_mod_eq_toNat]
    _ ↔ i = (unmix (ofIndices .ordered p).word hash).toNat := by rw [Nat.mod_eq_of_lt hi]

lemma eq_of_ofIndices_concat_eq (hi : i < 2 ^ 64) (hj : j < 2 ^ 64)
    (h : ofIndices .ordered (p ++ [i]) = ofIndices .ordered (p ++ [j])) : i = j :=
  ((ofIndices_concat_eq_iff hi).1 h).trans ((ofIndices_concat_eq_iff hj).1 rfl).symm

lemma existsUnique_last (p : List Nat) (hash : UInt64) :
    ∃! i, i < 2 ^ 64 ∧ ofIndices .ordered (p ++ [i]) = ⟨hash⟩ := by
  have hlt := (unmix (ofIndices .ordered p).word hash).toNat_lt
  refine ⟨_, ⟨hlt, (ofIndices_concat_eq_iff hlt).2 rfl⟩, ?_⟩
  rintro i ⟨hi, h⟩
  exact (ofIndices_concat_eq_iff hi).1 h

/-- Lists that differ in their last index alone have different fingerprints, and one last index
leads to each fingerprint. Other lists that share a fingerprint differ before the last index. -/
theorem last_separates (p : List Nat) :
    (∀ i j, i < 2 ^ 64 → j < 2 ^ 64 → i ≠ j →
      ofIndices .ordered (p ++ [i]) ≠ ofIndices .ordered (p ++ [j])) ∧
    (∀ hash : UInt64, ∃! i, i < 2 ^ 64 ∧ ofIndices .ordered (p ++ [i]) = ⟨hash⟩) ∧
    ∀ q i j, i < 2 ^ 64 → j < 2 ^ 64 → p ++ [i] ≠ q ++ [j] →
      ofIndices .ordered (p ++ [i]) = ofIndices .ordered (q ++ [j]) → p ≠ q := by
  refine ⟨?_, existsUnique_last p, ?_⟩
  · intro i j hi hj hne h
    exact hne (eq_of_ofIndices_concat_eq hi hj h)
  · rintro q i j hi hj hne h rfl
    exact hne (by rw [eq_of_ofIndices_concat_eq hi hj h])

/-- Two lists that collide, and a third that begins as one of them. -/
theorem last_separates_colliding :
    ofIndices .ordered [6, 24] = ofIndices .ordered [8, 21] ∧ [6] ≠ [8] ∧
      ofIndices .ordered [6, 24] ≠ ofIndices .ordered [6, 21] ∧
      ∃! i, i < 2 ^ 64 ∧ ofIndices .ordered [6, i] = ofIndices .ordered [8, 21] := by
  obtain ⟨hne, hunique, hearlier⟩ := last_separates [6]
  have h : ofIndices .ordered [6, 24] = ofIndices .ordered [8, 21] := by decide
  exact ⟨h, hearlier [8] 24 21 (by decide) (by decide) (by decide) h,
    hne 24 21 (by decide) (by decide) (by decide), hunique (ofIndices .ordered [8, 21]).word⟩

end SceneLighting.Fingerprint
