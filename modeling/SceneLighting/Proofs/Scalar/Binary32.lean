import SceneLighting.Scalar.Binary32
import Mathlib.Tactic.Lemma

/-!
# Signs, and what is no number

A number in single precision that is not from zero on is below zero or is no number at all. Zeros of
both signs are from zero on. What is no number is not below any number, and has no cosine.
-/

namespace SceneLighting.Binary32

open Float.Model

lemma unpack_zero : (0 : Float32).toModel.unpack = .zero .positive :=
  rfl

lemma zero_le_iff {x : Float32} : 0 ≤ x ↔ UnpackedFloat.le (.zero .positive) x.toModel.unpack := by
  rw [← unpack_zero]
  exact decide_eq_true_iff

lemma lt_zero_iff {x : Float32} : x < 0 ↔ UnpackedFloat.lt x.toModel.unpack (.zero .positive) := by
  rw [← unpack_zero]
  exact decide_eq_true_iff

theorem not_zero_le_iff {x : Float32} : ¬0 ≤ x ↔ x < 0 ∨ x.isNaN := by
  have hnan : x.isNaN = x.toModel.unpack.isNaN := rfl
  rw [zero_le_iff, lt_zero_iff, hnan]
  cases x.toModel.unpack with
  | infinity s => cases s <;> decide
  | notANumber => decide
  | zero s => cases s <;> decide
  | finite s =>
    cases s with
    | positive => exact iff_of_false (not_not_intro rfl) (not_or_intro nofun nofun)
    | negative => exact iff_of_true nofun (Or.inl rfl)

variable {x : Float32}

lemma unpack_of_isNaN (h : x.isNaN) : x.toModel.unpack = .notANumber := by
  have hnan : x.toModel.unpack.isNaN := h
  cases hx : x.toModel.unpack with
  | notANumber => rfl
  | _ =>
    rw [hx] at hnan
    cases hnan

lemma not_lt_of_isNaN (h : x.isNaN) (y : Float32) : ¬x < y := by
  have hlt : x < y ↔ UnpackedFloat.lt x.toModel.unpack y.toModel.unpack := decide_eq_true_iff
  rw [hlt, unpack_of_isNaN h]
  cases y.toModel.unpack <;> exact nofun

/-- No number times any number is no number, and always the same one. -/
lemma mul_of_isNaN (h : x.isNaN) (y : Float32) :
    x * y = ⟨Float32.Model.pack .notANumber⟩ := by
  have hmul : x * y = ⟨Float32.Model.pack
      (UnpackedFloat.mul Format.binary32 x.toModel.unpack y.toModel.unpack)⟩ := rfl
  rw [hmul, unpack_of_isNaN h]
  rfl

lemma isNaN_cosine_radians (h : x.isNaN) : (cosine (Scalar.radians x)).isNaN := by
  have hradians : Scalar.radians x = ⟨Float32.Model.pack .notANumber⟩ := mul_of_isNaN h _
  rw [hradians]
  decide +kernel

end SceneLighting.Binary32
