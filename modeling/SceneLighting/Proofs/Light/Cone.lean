import SceneLighting.Light.Packed
import SceneLighting.Proofs.Scalar.Binary32
import SceneLighting.Proofs.Scalar.Real
import Mathlib.Analysis.SpecialFunctions.Trigonometric.Complex

/-!
# Lights without a cone

That a light has no cone is told in two ways: by a cutoff from half a turn on, and in its record by
the cosine minus one. The record only has the cosine of the cutoff, so the two agree at half a turn
and whenever whole turns are added, and nowhere else.
-/

namespace SceneLighting.PackedLight

/-- The cosine is minus one at half a turn, and whole turns from there. -/
lemma spotCosine_eq_neg_one_iff (view : Mat4 ℝ) (light : Light ℝ) :
    (ofLight view light).spotCosine = -1 ↔ ∃ n : ℤ, light.spotCutoff = 180 + 360 * n := by
  have hcos : (ofLight view light).spotCosine = Real.cos (light.spotCutoff * (Real.pi / 180)) := by
    norm_num [ofLight, Scalar.radians, Scalar.cos, Scalar.pi]
  rw [hcos, Real.cos_eq_neg_one_iff]
  refine exists_congr fun n => ?_
  have hpi := Real.pi_pos
  constructor
  · intro h
    have hcutoff : Real.pi * (180 + 360 * n) = Real.pi * light.spotCutoff := by linarith
    exact (mul_left_cancel₀ hpi.ne' hcutoff).symm
  · intro h
    rw [h]
    ring

lemma not_isSpot_iff {light : Light ℝ} : ¬light.IsSpot ↔ 180 ≤ light.spotCutoff := by
  rw [Light.IsSpot, not_lt]
  norm_num

lemma spotCosine_eq_neg_one_iff_of_not_isSpot {view : Mat4 ℝ} {light : Light ℝ}
    (h : ¬light.IsSpot) :
    (ofLight view light).spotCosine = -1 ↔ ∃ n : ℕ, light.spotCutoff = 180 + 360 * n := by
  rw [not_isSpot_iff] at h
  rw [spotCosine_eq_neg_one_iff]
  constructor
  · rintro ⟨n, hn⟩
    have hreal : (0 : ℝ) ≤ n := by linarith
    have hn0 : 0 ≤ n := by exact_mod_cast hreal
    obtain ⟨k, rfl⟩ := Int.eq_ofNat_of_zero_le hn0
    exact ⟨k, by simpa using hn⟩
  · rintro ⟨n, hn⟩
    exact ⟨n, by simpa using hn⟩

/-! ### Single precision -/

lemma spotCosine_of_half_turn (view : Mat4 Float32) {light : Light Float32}
    (h : light.spotCutoff = 180.0) :
    ¬light.IsSpot ∧ (ofLight view light).spotCosine = -1 := by
  show ¬light.spotCutoff < 180.0 ∧ Scalar.cos (Scalar.radians light.spotCutoff) = -1
  rw [h]
  decide +kernel

lemma spotCosine_of_isNaN (view : Mat4 Float32) {light : Light Float32}
    (h : light.spotCutoff.isNaN) :
    ¬light.IsSpot ∧ (ofLight view light).spotCosine.isNaN :=
  ⟨Binary32.not_lt_of_isNaN h _, Binary32.isNaN_cosine_radians h⟩

/-- A light without a cone has the cosine minus one in its record when its cutoff is half a turn and
some whole turns more, in exact numbers. In single precision it has it at half a turn; and when the
cutoff is no number, the light has no cone and its cosine is no number. -/
theorem spotCosine_without_cone (view : Mat4 ℝ) (light : Light ℝ) (view' : Mat4 Float32)
    (single : Light Float32) :
    (¬light.IsSpot →
      ((ofLight view light).spotCosine = -1 ↔ ∃ n : ℕ, light.spotCutoff = 180 + 360 * n)) ∧
    (single.spotCutoff = 180.0 → ¬single.IsSpot ∧ (ofLight view' single).spotCosine = -1) ∧
    (single.spotCutoff.isNaN → ¬single.IsSpot ∧ (ofLight view' single).spotCosine.isNaN) :=
  ⟨spotCosine_eq_neg_one_iff_of_not_isSpot, spotCosine_of_half_turn view',
    spotCosine_of_isNaN view'⟩

/-- One and a half turns are as good as half a turn. Lights have half a turn at first. -/
theorem spotCosine_without_cone_standard :
    ¬({ Light.standard with spotCutoff := 540 } : Light ℝ).IsSpot ∧
      (ofLight 1 ({ Light.standard with spotCutoff := 540 } : Light ℝ)).spotCosine = -1 ∧
      ¬(Light.standard : Light Float32).IsSpot ∧
      (ofLight 1 (Light.standard : Light Float32)).spotCosine = -1 ∧
      (ofLight 1 ({ Light.standard with spotCutoff := 0.0 / 0.0 } :
        Light Float32)).spotCosine.isNaN := by
  have hcone : ¬({ Light.standard with spotCutoff := 540 } : Light ℝ).IsSpot := by
    rw [not_isSpot_iff]
    norm_num
  have hturns : ∃ n : ℕ, ({ Light.standard with spotCutoff := 540 } : Light ℝ).spotCutoff =
      180 + 360 * n := ⟨1, by norm_num⟩
  obtain ⟨hexact, hhalf, -⟩ := spotCosine_without_cone 1
    { Light.standard with spotCutoff := 540 } 1 Light.standard
  obtain ⟨-, -, hnan⟩ := spotCosine_without_cone 1
    { Light.standard with spotCutoff := 540 } 1 { Light.standard with spotCutoff := 0.0 / 0.0 }
  obtain ⟨hspot, hcosine⟩ := hhalf rfl
  exact ⟨hcone, (hexact hcone).2 hturns, hspot, hcosine, (hnan (by decide +kernel)).2⟩

/-- With three quarters of a turn there is no cone, and yet a cosine that is not minus one. -/
theorem not_always_spotCosine_eq :
    ¬∀ (view : Mat4 Float32) (light : Light Float32), ¬light.IsSpot →
      (ofLight view light).spotCosine = -1 := by
  intro h
  have hcosine := h 1 { Light.standard with spotCutoff := 270.0 } (by decide +kernel)
  exact absurd hcosine (by decide +kernel)

end SceneLighting.PackedLight
