import SceneLighting.Geometry.Sphere
import SceneLighting.Proofs.Scalar.Binary32
import SceneLighting.Proofs.Scalar.Real

/-!
# Spheres that bound nothing

A sphere that is not valid is not made valid by moving it or by joining it with others like it, and
it touches nothing. For this the numbers need no laws: they may round, be infinite or be no numbers.
-/

namespace SceneLighting

/-- Minus one is not from zero on. -/
class Scalar.Signed (α : Type) [Scalar α] : Prop where
  not_zero_le_neg_one : ¬(0 : α) ≤ -1

instance : Scalar.Signed ℝ :=
  ⟨by norm_num⟩

instance : Scalar.Signed Float32 :=
  ⟨by decide +kernel⟩

namespace Sphere

variable {α : Type} [Scalar α] {s t : Sphere α}

lemma not_isValid_invalid [Scalar.Signed α] : ¬(invalid : Sphere α).IsValid :=
  Scalar.Signed.not_zero_le_neg_one

lemma map_of_not_isValid (hs : ¬s.IsValid) (m : Mat4 α) : s.map m = s :=
  if_neg hs

lemma isValid_of_map {m : Mat4 α} (h : (s.map m).IsValid) : s.IsValid := by
  by_contra hs
  rw [map_of_not_isValid hs] at h
  exact hs h

lemma enclose_of_right_invalid (ht : ¬t.IsValid) : s.enclose t = s := by
  rw [enclose, if_pos ht]

lemma enclose_of_left_invalid (hs : ¬s.IsValid) (ht : t.IsValid) : s.enclose t = t := by
  rw [enclose, if_neg (not_not.2 ht), if_pos hs]

lemma isValid_of_enclose (h : (s.enclose t).IsValid) : s.IsValid ∨ t.IsValid := by
  by_cases ht : t.IsValid
  · exact Or.inr ht
  · rw [enclose_of_right_invalid ht] at h
    exact Or.inl h

/-- In single precision a sphere is not valid when its radius is negative or no number. -/
lemma not_isValid_iff {s : Sphere Float32} :
    ¬s.IsValid ↔ s.radius < 0 ∨ s.radius.isNaN :=
  Binary32.not_zero_le_iff

end Sphere

end SceneLighting
