import SceneLighting.Proofs.Geometry.Space
import SceneLighting.Proofs.Geometry.Validity

/-!
# How far a matrix stretches a sphere

The image of a sphere is an ellipsoid, and the sphere that is taken about it reaches as far as the
longest image of the three axes. That is enough when the axes stay orthogonal, as they do under a
scale by different factors that comes first, with turns, moves and even scales after it. It is not
enough when such a scale comes after a turn: then a direction between the axes may be stretched more
than any of them, but at most `√3` times as much.
-/

namespace SceneLighting

lemma Scalar.larger_eq_max (a b : ℝ) : Scalar.larger a b = max a b := by
  rw [larger, max_def_lt]
  simp

lemma Vec3.sq_length (u : Vec3 ℝ) : u.length ^ 2 = u.dot u := by
  have h : 0 ≤ u.dot u :=
    add_nonneg (add_nonneg (mul_self_nonneg _) (mul_self_nonneg _)) (mul_self_nonneg _)
  exact Real.sq_sqrt h

lemma Vec3.sq_dot_le (u v : Vec3 ℝ) : u.dot v ^ 2 ≤ u.length ^ 2 * v.length ^ 2 := by
  have hinner : u.dot v = inner ℝ u.toSpace v.toSpace := by
    simp [toSpace, dot, EuclideanSpace.inner_eq_star_dotProduct, mul_comm, add_assoc]
  rw [hinner, length_eq_norm, length_eq_norm, ← mul_pow]
  exact sq_le_sq.2 ((abs_real_inner_le_norm _ _).trans (le_abs_self _))

namespace Mat4

variable (m : Mat4 ℝ)

/-! ### Axes -/

lemma longestAxis_eq :
    m.longestAxis = max (max m.x.xyz.length m.y.xyz.length) m.z.xyz.length := by
  rw [longestAxis, Scalar.larger_eq_max, Scalar.larger_eq_max]

lemma length_x_le : m.x.xyz.length ≤ m.longestAxis := by
  simp [longestAxis_eq]

lemma length_y_le : m.y.xyz.length ≤ m.longestAxis := by
  simp [longestAxis_eq]

lemma length_z_le : m.z.xyz.length ≤ m.longestAxis := by
  simp [longestAxis_eq]

lemma longestAxis_nonneg : 0 ≤ m.longestAxis :=
  (Vec3.length_nonneg _).trans m.length_x_le

/-- The last row is that of the identity. -/
structure IsAffine (m : Mat4 ℝ) : Prop where
  x : m.x.w = 0
  y : m.y.w = 0
  z : m.z.w = 0
  w : m.w.w = 1

/-- The images of the axes are orthogonal. -/
structure HasOrthogonalAxes (m : Mat4 ℝ) : Prop where
  xy : m.x.xyz.dot m.y.xyz = 0
  xz : m.x.xyz.dot m.z.xyz = 0
  yz : m.y.xyz.dot m.z.xyz = 0

/-- Shapes are kept: a product of turns, moves and even scales, maybe mirrored. -/
structure IsSimilarity (m : Mat4 ℝ) : Prop extends IsAffine m, HasOrthogonalAxes m where
  length_y : m.y.xyz.length = m.x.xyz.length
  length_z : m.z.xyz.length = m.x.xyz.length

/-- No direction is stretched more than the longest axis. -/
def StretchesAxesMost (m : Mat4 ℝ) : Prop :=
  ∀ u, (m.mapDirection u).length ≤ m.longestAxis * u.length

/-! ### Directions -/

lemma mapDirection_scale (u : Vec3 ℝ) (k : ℝ) :
    m.mapDirection (u.scale k) = (m.mapDirection u).scale k := by
  simp only [mapDirection, Vec3.scale, Vec3.mk.injEq]
  refine ⟨?_, ?_, ?_⟩ <;> ring

lemma mapDirection_one (u : Vec3 ℝ) : (1 : Mat4 ℝ).mapDirection u = u := by
  rw [one_def]
  simp [mapDirection]

lemma distance_mapPoint (p q : Vec3 ℝ) :
    (m.mapPoint p).distance (m.mapPoint q) = (m.mapDirection (p - q)).length := by
  have h : m.mapPoint p - m.mapPoint q = m.mapDirection (p - q) := by
    simp only [Vec3.sub_def, mapPoint, mapDirection, Vec3.mk.injEq]
    refine ⟨?_, ?_, ?_⟩ <;> ring
  rw [Vec3.distance, h]

/-- The stretch of a direction, from the lengths of the axes and the angles between them. -/
lemma sq_length_mapDirection (u : Vec3 ℝ) :
    (m.mapDirection u).length ^ 2 =
      u.x ^ 2 * m.x.xyz.length ^ 2 + u.y ^ 2 * m.y.xyz.length ^ 2 + u.z ^ 2 * m.z.xyz.length ^ 2 +
        2 * (u.x * u.y * m.x.xyz.dot m.y.xyz + u.x * u.z * m.x.xyz.dot m.z.xyz +
          u.y * u.z * m.y.xyz.dot m.z.xyz) := by
  simp only [Vec3.sq_length, Vec3.dot, mapDirection, Vec4.xyz]
  ring

/-- Three axes can stretch a direction between them, by `√3` at most. -/
lemma length_mapDirection_le (u : Vec3 ℝ) :
    (m.mapDirection u).length ≤ √3 * (m.longestAxis * u.length) := by
  have hnonneg := mul_nonneg m.longestAxis_nonneg u.length_nonneg
  have hx := pow_le_pow_left₀ (Vec3.length_nonneg _) m.length_x_le 2
  have hy := pow_le_pow_left₀ (Vec3.length_nonneg _) m.length_y_le 2
  have hz := pow_le_pow_left₀ (Vec3.length_nonneg _) m.length_z_le 2
  -- each component of the image is the product of a row with the direction
  have hrow := fun a b c : ℝ => Vec3.sq_dot_le ⟨a, b, c⟩ u
  have hsq : (m.mapDirection u).length ^ 2 ≤ 3 * (m.longestAxis * u.length) ^ 2 := by
    calc (m.mapDirection u).length ^ 2
        = (m.mapDirection u).x ^ 2 + (m.mapDirection u).y ^ 2 + (m.mapDirection u).z ^ 2 := by
          rw [Vec3.sq_length, Vec3.dot]; ring
      _ ≤ (⟨m.x.x, m.y.x, m.z.x⟩ : Vec3 ℝ).length ^ 2 * u.length ^ 2 +
            (⟨m.x.y, m.y.y, m.z.y⟩ : Vec3 ℝ).length ^ 2 * u.length ^ 2 +
            (⟨m.x.z, m.y.z, m.z.z⟩ : Vec3 ℝ).length ^ 2 * u.length ^ 2 := by
          gcongr <;> exact hrow _ _ _
      _ = (m.x.xyz.length ^ 2 + m.y.xyz.length ^ 2 + m.z.xyz.length ^ 2) * u.length ^ 2 := by
          simp only [Vec3.sq_length, Vec3.dot, Vec4.xyz]; ring
      _ ≤ (m.longestAxis ^ 2 + m.longestAxis ^ 2 + m.longestAxis ^ 2) * u.length ^ 2 := by
          gcongr
      _ = 3 * (m.longestAxis * u.length) ^ 2 := by ring
  rw [← Real.sqrt_sq hnonneg, ← Real.sqrt_mul (by norm_num)]
  exact Real.le_sqrt_of_sq_le hsq

lemma length_mapDirection_of_zero {u : Vec3 ℝ} (hu : u.length = 0) :
    (m.mapDirection u).length = 0 := by
  have h := m.length_mapDirection_le u
  rw [hu, mul_zero, mul_zero] at h
  exact h.antisymm (Vec3.length_nonneg _)

variable {m}

lemma HasOrthogonalAxes.stretchesAxesMost (h : m.HasOrthogonalAxes) : m.StretchesAxesMost := by
  intro u
  have hnonneg := mul_nonneg m.longestAxis_nonneg u.length_nonneg
  rw [← pow_le_pow_iff_left₀ (Vec3.length_nonneg _) hnonneg two_ne_zero, sq_length_mapDirection,
    h.xy, h.xz, h.yz]
  have hx := pow_le_pow_left₀ (Vec3.length_nonneg _) m.length_x_le 2
  have hy := pow_le_pow_left₀ (Vec3.length_nonneg _) m.length_y_le 2
  have hz := pow_le_pow_left₀ (Vec3.length_nonneg _) m.length_z_le 2
  calc _ = u.x ^ 2 * m.x.xyz.length ^ 2 + u.y ^ 2 * m.y.xyz.length ^ 2 +
        u.z ^ 2 * m.z.xyz.length ^ 2 := by ring
    _ ≤ u.x ^ 2 * m.longestAxis ^ 2 + u.y ^ 2 * m.longestAxis ^ 2 +
        u.z ^ 2 * m.longestAxis ^ 2 := by gcongr
    _ = (m.longestAxis * u.length) ^ 2 := by rw [mul_pow, Vec3.sq_length, Vec3.dot]; ring

/-- A similarity stretches all directions alike. -/
lemma IsSimilarity.length_mapDirection (h : m.IsSimilarity) (u : Vec3 ℝ) :
    (m.mapDirection u).length = m.x.xyz.length * u.length := by
  have hnonneg := mul_nonneg (Vec3.length_nonneg m.x.xyz) u.length_nonneg
  rw [← pow_left_inj₀ (Vec3.length_nonneg _) hnonneg two_ne_zero, sq_length_mapDirection,
    h.xy, h.xz, h.yz, h.length_y, h.length_z, mul_pow, u.sq_length, Vec3.dot]
  ring

/-! ### Products -/

section Products

variable {a b : Mat4 ℝ}

lemma IsAffine.mul (ha : a.IsAffine) (hb : b.IsAffine) : (a * b).IsAffine := by
  rw [mul_def]
  constructor <;> simp [mulVec, ha.x, ha.y, ha.z, ha.w, hb.x, hb.y, hb.z, hb.w]

lemma mapDirection_mul (hb : b.IsAffine) (u : Vec3 ℝ) :
    (a * b).mapDirection u = a.mapDirection (b.mapDirection u) := by
  rw [mul_def]
  simp only [mapDirection, mulVec, hb.x, hb.y, hb.z, Vec3.mk.injEq]
  refine ⟨?_, ?_, ?_⟩ <;> ring

/-- After a similarity the axes are all longer by the same factor. -/
lemma IsSimilarity.longestAxis_mul (ha : a.IsSimilarity) (hb : b.IsAffine) :
    (a * b).longestAxis = a.x.xyz.length * b.longestAxis := by
  have haxis : ∀ v : Vec4 ℝ, v.w = 0 →
      (a.mulVec v).xyz.length = a.x.xyz.length * v.xyz.length := by
    intro v hv
    rw [← ha.length_mapDirection]
    simp [mulVec, mapDirection, Vec4.xyz, hv]
  rw [longestAxis_eq, longestAxis_eq, mul_def, haxis _ hb.x, haxis _ hb.y, haxis _ hb.z,
    mul_max_of_nonneg _ _ (Vec3.length_nonneg _), mul_max_of_nonneg _ _ (Vec3.length_nonneg _)]

lemma IsSimilarity.stretchesAxesMost_mul (ha : a.IsSimilarity) (hb : b.IsAffine)
    (h : b.StretchesAxesMost) : (a * b).StretchesAxesMost := by
  intro u
  rw [mapDirection_mul hb, ha.length_mapDirection, ha.longestAxis_mul hb, mul_assoc]
  exact mul_le_mul_of_nonneg_left (h u) (Vec3.length_nonneg _)

/-- Similarities may follow one another, after a matrix that keeps the axes orthogonal. -/
theorem stretchesAxesMost_foldr {ms : List (Mat4 ℝ)} (hms : ∀ m ∈ ms, m.IsSimilarity)
    (haffine : b.IsAffine) (horth : b.HasOrthogonalAxes) :
    (ms.foldr (· * ·) b).StretchesAxesMost := by
  suffices h : (ms.foldr (· * ·) b).IsAffine ∧ (ms.foldr (· * ·) b).StretchesAxesMost from h.2
  induction ms with
  | nil => exact ⟨haffine, horth.stretchesAxesMost⟩
  | cons m ms ih =>
    obtain ⟨hm, hms⟩ := List.forall_mem_cons.1 hms
    obtain ⟨ihaffine, ihmost⟩ := ih hms
    exact ⟨hm.toIsAffine.mul ihaffine, hm.stretchesAxesMost_mul ihaffine ihmost⟩

end Products

/-! ### Turns, moves and scales -/

lemma isSimilarity_translation (u : Vec3 ℝ) : (translation u).IsSimilarity := by
  have h : translation u = ⟨⟨1, 0, 0, 0⟩, ⟨0, 1, 0, 0⟩, ⟨0, 0, 1, 0⟩, ⟨u.x, u.y, u.z, 1⟩⟩ := rfl
  rw [h]
  refine ⟨⟨?_, ?_, ?_, ?_⟩, ⟨?_, ?_, ?_⟩, ?_, ?_⟩ <;> simp [Vec4.xyz, Vec3.dot, Vec3.length]

lemma isAffine_scaling (u : Vec3 ℝ) : (scaling u).IsAffine :=
  ⟨rfl, rfl, rfl, rfl⟩

lemma hasOrthogonalAxes_scaling (u : Vec3 ℝ) : (scaling u).HasOrthogonalAxes := by
  constructor <;> simp [scaling, Vec4.xyz, Vec3.dot]

lemma isSimilarity_scaling (k : ℝ) : (scaling ⟨k, k, k⟩).IsSimilarity := by
  refine ⟨isAffine_scaling _, hasOrthogonalAxes_scaling _, ?_, ?_⟩ <;>
    simp [scaling, Vec4.xyz, Vec3.dot, Vec3.length]

/-- The turn about the third axis by the angle with cosine `c` and sine `s`. -/
def turn (c s : ℝ) : Mat4 ℝ :=
  ⟨⟨c, s, 0, 0⟩, ⟨-s, c, 0, 0⟩, ⟨0, 0, 1, 0⟩, ⟨0, 0, 0, 1⟩⟩

lemma isSimilarity_turn {c s : ℝ} (h : c ^ 2 + s ^ 2 = 1) : (turn c s).IsSimilarity := by
  have h' : c * c + s * s = 1 := by rw [← h]; ring
  refine ⟨⟨?_, ?_, ?_, ?_⟩, ⟨?_, ?_, ?_⟩, ?_, ?_⟩ <;>
    simp [turn, Vec4.xyz, Vec3.dot, Vec3.length, h', add_comm, mul_comm]

end Mat4

/-! ### Spheres -/

namespace Sphere

variable {s : Sphere ℝ} {m : Mat4 ℝ}

lemma map_of_isValid (hs : s.IsValid) (m : Mat4 ℝ) :
    s.map m = ⟨m.mapPoint s.center, s.radius * m.longestAxis⟩ :=
  if_pos hs

theorem isValid_map_iff : (s.map m).IsValid ↔ s.IsValid := by
  refine ⟨isValid_of_map, fun hs => ?_⟩
  rw [map_of_isValid hs]
  exact mul_nonneg hs m.longestAxis_nonneg

lemma distance_map (hs : s.IsValid) (m : Mat4 ℝ) (p : Vec3 ℝ) :
    (m.mapPoint p).distance (s.map m).center = (m.mapDirection (p - s.center)).length := by
  rw [map_of_isValid hs, Mat4.distance_mapPoint]

lemma holds_map_mapPoint_iff (hs : s.IsValid) (m : Mat4 ℝ) (p : Vec3 ℝ) :
    (s.map m).Holds (m.mapPoint p) ↔
      (m.mapDirection (p - s.center)).length ≤ m.longestAxis * s.radius := by
  rw [Holds, distance_map hs, map_of_isValid hs, mul_comm]

lemma longestAxis_mul_length_le (m : Mat4 ℝ) {p : Vec3 ℝ} (hp : s.Holds p) :
    m.longestAxis * (p - s.center).length ≤ m.longestAxis * s.radius :=
  mul_le_mul_of_nonneg_left hp m.longestAxis_nonneg

/-- A sphere that is no point has a point in each direction, as far off as the radius. -/
lemma stretchesAxesMost_of_holds_map (hs : s.IsValid) (hr : s.radius ≠ 0)
    (h : ∀ p, s.Holds p → (s.map m).Holds (m.mapPoint p)) : m.StretchesAxesMost := by
  intro u
  obtain hu | hu := u.length_nonneg.eq_or_lt
  · rw [m.length_mapDirection_of_zero hu.symm, ← hu, mul_zero]
  have hk : 0 < s.radius / u.length := div_pos (hs.lt_of_ne' hr) hu
  have hp : s.Holds (s.center + u.scale (s.radius / u.length)) := by
    rw [Holds, Vec3.distance, Vec3.add_sub_self, Vec3.length_scale, abs_of_pos hk,
      div_mul_cancel₀ _ hu.ne']
  have hfar := (holds_map_mapPoint_iff hs m _).1 (h _ hp)
  rw [Vec3.add_sub_self, Mat4.mapDirection_scale, Vec3.length_scale, abs_of_pos hk] at hfar
  refine le_of_mul_le_mul_left (hfar.trans_eq ?_) hk
  rw [mul_left_comm, div_mul_cancel₀ _ hu.ne']

/-- The sphere that is taken is big enough just when no direction is stretched more than the longest
axis. -/
theorem holds_map_iff (hs : s.IsValid) :
    (∀ p, s.Holds p → (s.map m).Holds (m.mapPoint p)) ↔ s.radius = 0 ∨ m.StretchesAxesMost := by
  constructor
  · exact fun h => or_iff_not_imp_left.2 fun hr => stretchesAxesMost_of_holds_map hs hr h
  · intro h p hp
    rw [holds_map_mapPoint_iff hs]
    obtain hr | hmost := h
    · have hzero : (p - s.center).length = 0 := le_antisymm (hr ▸ hp) (Vec3.length_nonneg _)
      rw [m.length_mapDirection_of_zero hzero, hr, mul_zero]
    · exact (hmost _).trans (longestAxis_mul_length_le m hp)

/-- The sphere that is taken about the image of another is big enough just when no direction is
stretched more than the longest axis. So it is where similarities follow one another after a matrix
that keeps the axes orthogonal. Otherwise it may be too small, but by no more than `√3`. -/
theorem map_conservative (hs : s.IsValid) :
    (∀ m : Mat4 ℝ, (∀ p, s.Holds p → (s.map m).Holds (m.mapPoint p)) ↔
        s.radius = 0 ∨ m.StretchesAxesMost) ∧
      (∀ (ms : List (Mat4 ℝ)) (n : Mat4 ℝ), (∀ m ∈ ms, m.IsSimilarity) → n.IsAffine →
        n.HasOrthogonalAxes → ∀ p, s.Holds p →
          (s.map (ms.foldr (· * ·) n)).Holds ((ms.foldr (· * ·) n).mapPoint p)) ∧
      ∀ (m : Mat4 ℝ) p, s.Holds p →
        (m.mapPoint p).distance (s.map m).center ≤ √3 * (s.map m).radius := by
  refine ⟨fun m => holds_map_iff hs, fun ms n hms haffine horth => ?_, fun m p hp => ?_⟩
  · exact (holds_map_iff hs).2 (Or.inr (Mat4.stretchesAxesMost_foldr hms haffine horth))
  · rw [distance_map hs, map_of_isValid hs, mul_comm s.radius]
    apply (m.length_mapDirection_le _).trans
    exact mul_le_mul_of_nonneg_left (longestAxis_mul_length_le m hp) (Real.sqrt_nonneg 3)

/-- The ball about the origin. -/
def ball (r : ℝ) : Sphere ℝ :=
  ⟨⟨0, 0, 0⟩, r⟩

/-- Stretched along the axes, turned, scaled evenly and moved, in this order. -/
noncomputable def placed (factors : Vec3 ℝ) (c s k : ℝ) (place : Vec3 ℝ) : Mat4 ℝ :=
  [Mat4.translation place, Mat4.scaling ⟨k, k, k⟩, Mat4.turn c s].foldr (· * ·)
    (Mat4.scaling factors)

theorem map_conservative_placed :
    (ball 5).IsValid ∧ ∀ p, (ball 5).Holds p →
      ((ball 5).map (placed ⟨10, 5, 5⟩ (3 / 5) (4 / 5) 2 ⟨1, 2, 3⟩)).Holds
        ((placed ⟨10, 5, 5⟩ (3 / 5) (4 / 5) 2 ⟨1, 2, 3⟩).mapPoint p) := by
  have hvalid : (ball 5).IsValid := Nat.ofNat_nonneg 5
  obtain ⟨-, h, -⟩ := map_conservative hvalid
  refine ⟨hvalid, h _ _ ?_ (Mat4.isAffine_scaling _) (Mat4.hasOrthogonalAxes_scaling _)⟩
  have hturn : (Mat4.turn (3 / 5) (4 / 5)).IsSimilarity := Mat4.isSimilarity_turn (by norm_num)
  simpa only [List.forall_mem_cons, List.not_mem_nil, false_imp_iff, implies_true, and_true] using
    ⟨Mat4.isSimilarity_translation _, Mat4.isSimilarity_scaling _, hturn⟩

/-- Turned first, and stretched along the axes then. -/
noncomputable def sheared (c s : ℝ) (factors : Vec3 ℝ) : Mat4 ℝ :=
  Mat4.scaling factors * Mat4.turn c s

lemma sheared_eq : sheared (3 / 5) (4 / 5) ⟨10, 5, 5⟩ =
    ⟨⟨6, 4, 0, 0⟩, ⟨-8, 3, 0, 0⟩, ⟨0, 0, 5, 0⟩, ⟨0, 0, 0, 1⟩⟩ := by
  rw [sheared, Mat4.mul_def]
  norm_num [Mat4.scaling, Mat4.turn, Mat4.mulVec]

lemma longestAxis_sheared_lt : (sheared (3 / 5) (4 / 5) ⟨10, 5, 5⟩).longestAxis < 10 := by
  rw [Mat4.longestAxis_eq, sheared_eq, max_lt_iff, max_lt_iff]
  refine ⟨⟨?_, ?_⟩, ?_⟩ <;> rw [Vec3.length] <;>
    exact (Real.sqrt_lt' (by norm_num)).2 (by norm_num [Vec3.dot, Vec4.xyz])

/-- A turn and a scale may bring a point of a sphere out of the sphere that is taken. -/
theorem not_holds_map_sheared :
    (ball 5).IsValid ∧ (sheared (3 / 5) (4 / 5) ⟨10, 5, 5⟩).IsAffine ∧ (ball 5).Holds ⟨3, -4, 0⟩ ∧
      ¬((ball 5).map (sheared (3 / 5) (4 / 5) ⟨10, 5, 5⟩)).Holds
        ((sheared (3 / 5) (4 / 5) ⟨10, 5, 5⟩).mapPoint ⟨3, -4, 0⟩) := by
  have hvalid : (ball 5).IsValid := Nat.ofNat_nonneg 5
  have hlength : ∀ (u : Vec3 ℝ) (r : ℝ), 0 ≤ r → u.dot u = r * r → u.length = r := by
    intro u r hr hu
    rw [Vec3.length, hu]
    exact Real.sqrt_mul_self hr
  have hsub : (⟨3, -4, 0⟩ : Vec3 ℝ) - (ball 5).center = ⟨3, -4, 0⟩ := by
    norm_num [Vec3.sub_def, ball]
  refine ⟨hvalid, ?_, ?_, ?_⟩
  · rw [sheared_eq]
    exact ⟨rfl, rfl, rfl, rfl⟩
  · rw [Holds, Vec3.distance, hsub]
    exact (hlength _ 5 (by norm_num) (by norm_num [Vec3.dot])).le
  · have hfar :
        ((sheared (3 / 5) (4 / 5) ⟨10, 5, 5⟩).mapDirection ⟨3, -4, 0⟩).length = 50 := by
      apply hlength _ _ (by norm_num)
      norm_num [sheared_eq, Mat4.mapDirection, Vec3.dot]
    rw [holds_map_mapPoint_iff hvalid, hsub, hfar, not_le]
    calc (sheared (3 / 5) (4 / 5) ⟨10, 5, 5⟩).longestAxis * 5
        < 10 * 5 := mul_lt_mul_of_pos_right longestAxis_sheared_lt (by norm_num)
      _ = 50 := by norm_num

end Sphere

end SceneLighting
