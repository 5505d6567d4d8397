import SceneLighting.Geometry.Matrix
import Mathlib.Analysis.SpecialFunctions.Trigonometric.Basic

/-!
# Exact scalars

Machine numbers round, so that products of matrices depend on the order in which they are taken.
Over the real numbers they do not.
-/

namespace SceneLighting

/-- Matrices multiply without rounding. -/
class Mat4.Exact (α : Type) [Scalar α] : Prop where
  mul_assoc : ∀ a b c : Mat4 α, a * b * c = a * (b * c)
  one_mul : ∀ a : Mat4 α, 1 * a = a
  mul_one : ∀ a : Mat4 α, a * 1 = a

lemma Mat4.one_def {α : Type} [Scalar α] :
    (1 : Mat4 α) = ⟨⟨1, 0, 0, 0⟩, ⟨0, 1, 0, 0⟩, ⟨0, 0, 1, 0⟩, ⟨0, 0, 0, 1⟩⟩ :=
  rfl

lemma Mat4.mul_def {α : Type} [Scalar α] (a b : Mat4 α) :
    a * b = ⟨a.mulVec b.x, a.mulVec b.y, a.mulVec b.z, a.mulVec b.w⟩ :=
  rfl

noncomputable instance : Scalar ℝ where
  decidableLE := inferInstance
  decidableLT := inferInstance
  sqrt := Real.sqrt
  cos := Real.cos
  pi := Real.pi

namespace Mat4

/-- To apply a product is to apply its factors, the last one first. -/
lemma mulVec_mul (a b : Mat4 ℝ) (v : Vec4 ℝ) : (a * b).mulVec v = a.mulVec (b.mulVec v) := by
  rw [mul_def]
  simp only [mulVec, Vec4.mk.injEq]
  refine ⟨?_, ?_, ?_, ?_⟩ <;> ring

lemma one_mulVec (v : Vec4 ℝ) : (1 : Mat4 ℝ).mulVec v = v := by
  rw [one_def]
  simp [mulVec]

instance : Exact ℝ where
  mul_assoc a b c := by
    calc a * b * c
        = ⟨(a * b).mulVec c.x, (a * b).mulVec c.y, (a * b).mulVec c.z, (a * b).mulVec c.w⟩ := rfl
      _ = a * (b * c) := by simp only [mulVec_mul]; rfl
  one_mul a := by
    calc 1 * a
        = ⟨(1 : Mat4 ℝ).mulVec a.x, (1 : Mat4 ℝ).mulVec a.y, (1 : Mat4 ℝ).mulVec a.z,
            (1 : Mat4 ℝ).mulVec a.w⟩ := rfl
      _ = a := by simp only [one_mulVec]
  mul_one a := by
    rw [mul_def, one_def]
    simp [mulVec]

end Mat4

end SceneLighting
