import Mathlib.Analysis.InnerProductSpace.PiL2
import Mathlib.Analysis.Normed.Affine.AddTorsor
import SceneLighting.Geometry.Sphere
import SceneLighting.Proofs.Scalar.Real

/-!
# Vectors as points of space

With exact scalars, vectors are the points of Euclidean space: lengths are norms there, and
distances are distances. So one sphere holds all that another holds just when it reaches to the
farthest of these points.
-/

namespace SceneLighting

namespace Vec3

variable (u v w : Vec3 ℝ) (k : ℝ)

noncomputable def toSpace : EuclideanSpace ℝ (Fin 3) :=
  (EuclideanSpace.equiv (Fin 3) ℝ).symm ![u.x, u.y, u.z]

lemma toSpace_injective : Function.Injective toSpace := by
  rintro ⟨x, y, z⟩ ⟨x', y', z'⟩ h
  have hi := fun i => congrArg (fun p : EuclideanSpace ℝ (Fin 3) => p i) h
  have hx : x = x' := hi 0
  have hy : y = y' := hi 1
  have hz : z = z' := hi 2
  rw [hx, hy, hz]

lemma sub_def : u - v = ⟨u.x - v.x, u.y - v.y, u.z - v.z⟩ :=
  rfl

lemma add_def : u + v = ⟨u.x + v.x, u.y + v.y, u.z + v.z⟩ :=
  rfl

lemma toSpace_sub : (u - v).toSpace = u.toSpace - v.toSpace := by
  ext i
  fin_cases i <;> simp [toSpace, sub_def]

lemma toSpace_add : (u + v).toSpace = u.toSpace + v.toSpace := by
  ext i
  fin_cases i <;> simp [toSpace, add_def]

lemma toSpace_scale : (u.scale k).toSpace = k • u.toSpace := by
  ext i
  fin_cases i <;> simp [toSpace, scale, mul_comm]

lemma length_eq_norm : u.length = ‖u.toSpace‖ := by
  rw [EuclideanSpace.norm_eq, Fin.sum_univ_three, length, dot]
  simp [toSpace, Scalar.sqrt, sq]

lemma distance_eq_dist : u.distance v = dist u.toSpace v.toSpace := by
  rw [distance, length_eq_norm, toSpace_sub, dist_eq_norm]

lemma add_sub_self : u + v - u = v := by
  apply toSpace_injective
  rw [toSpace_sub, toSpace_add, add_sub_cancel_left]

/-! ### Distances -/

lemma length_nonneg : 0 ≤ u.length := by
  rw [length_eq_norm]
  exact norm_nonneg _

lemma length_scale : (u.scale k).length = |k| * u.length := by
  rw [length_eq_norm, toSpace_scale, norm_smul, Real.norm_eq_abs, length_eq_norm]

lemma distance_nonneg : 0 ≤ u.distance v :=
  length_nonneg _

@[simp] lemma distance_self : u.distance u = 0 := by
  rw [distance_eq_dist, dist_self]

lemma distance_comm : u.distance v = v.distance u := by
  rw [distance_eq_dist, distance_eq_dist, dist_comm]

lemma distance_triangle : u.distance w ≤ u.distance v + v.distance w := by
  simp only [distance_eq_dist]
  exact dist_triangle _ _ _

/-- The point that lies on the line from `u` to `v`, with `u` at zero and `v` at one. -/
lemma toSpace_along :
    (u + (v - u).scale k).toSpace = AffineMap.lineMap u.toSpace v.toSpace k := by
  rw [toSpace_add, toSpace_scale, toSpace_sub, AffineMap.lineMap_apply, vsub_eq_sub,
    vadd_eq_add, add_comm]

lemma distance_along_left : (u + (v - u).scale k).distance u = |k| * u.distance v := by
  rw [distance_eq_dist, distance_eq_dist, toSpace_along, dist_lineMap_left, Real.norm_eq_abs]

lemma distance_along_right : (u + (v - u).scale k).distance v = |1 - k| * u.distance v := by
  rw [distance_eq_dist, distance_eq_dist, toSpace_along, dist_lineMap_right, Real.norm_eq_abs]

variable {u v} in
/-- From `u` straight away from `v`. -/
lemma exists_beyond {r : ℝ} (hr : 0 ≤ r) :
    ∃ p : Vec3 ℝ, p.distance u = r ∧ p.distance v = u.distance v + r := by
  rcases (distance_nonneg u v).eq_or_lt with hd | hd
  · have huv : u = v := toSpace_injective (dist_eq_zero.1 (distance_eq_dist u v ▸ hd.symm))
    have hp : (u + ⟨r, 0, 0⟩ : Vec3 ℝ).distance u = r := by
      rw [distance_eq_dist, toSpace_add, dist_self_add_left, ← length_eq_norm, length, dot]
      simp [Scalar.sqrt, hr]
    exact ⟨u + ⟨r, 0, 0⟩, hp, by rw [← huv, hp, distance_self, zero_add]⟩
  · refine ⟨v + (u - v).scale (1 + r / u.distance v), ?_, ?_⟩
    · rw [distance_along_right, distance_comm v u]
      have hk : |1 - (1 + r / u.distance v)| = r / u.distance v := by
        rw [sub_add_cancel_left, abs_neg, abs_of_nonneg (div_nonneg hr hd.le)]
      rw [hk, div_mul_cancel₀ _ hd.ne']
    · rw [distance_along_left, distance_comm v u,
        abs_of_nonneg (add_nonneg zero_le_one (div_nonneg hr hd.le)), one_add_mul,
        div_mul_cancel₀ _ hd.ne']

end Vec3

namespace Sphere

/-- The point lies in the sphere or on it. -/
def Holds (s : Sphere ℝ) (p : Vec3 ℝ) : Prop :=
  p.distance s.center ≤ s.radius

variable {s t : Sphere ℝ}

/-- A sphere that is not valid holds no point. -/
lemma isValid_of_holds {p : Vec3 ℝ} (hp : s.Holds p) : s.IsValid :=
  (Vec3.distance_nonneg p s.center).trans hp

/-- The points of one sphere are those of another when its point that is farthest from the other's
centre is. -/
theorem holds_imp_iff (hs : s.IsValid) :
    (∀ p, s.Holds p → t.Holds p) ↔ s.center.distance t.center + s.radius ≤ t.radius := by
  constructor
  · intro h
    obtain ⟨p, hnear, hfar⟩ := Vec3.exists_beyond (v := t.center) hs
    exact hfar ▸ h p hnear.le
  · intro h p hp
    calc p.distance t.center
        ≤ p.distance s.center + s.center.distance t.center := Vec3.distance_triangle _ _ _
      _ ≤ s.radius + s.center.distance t.center := by gcongr; exact hp
      _ ≤ t.radius := by rwa [add_comm]

end Sphere

end SceneLighting
