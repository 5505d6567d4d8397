import SceneLighting.Proofs.Geometry.Space
import SceneLighting.Proofs.Geometry.Validity

/-!
# The smallest sphere about two

A sphere that is to hold two others reaches as far as each of them, and half as far as from the far
end of one to the far end of the other. The sphere that is taken reaches no farther. Its centre is
looked for on the line of centres only when neither sphere holds the other; then the centres differ,
so that the place on the line can be computed.
-/

namespace SceneLighting

/-- The real numbers with another division. -/
noncomputable abbrev Scalar.dividing (div : ℝ → ℝ → ℝ) : Scalar ℝ :=
  { (inferInstance : Scalar ℝ) with div := div }

namespace Sphere

variable {s t u : Sphere ℝ}

/-- Neither sphere holds the other. -/
structure Apart (s t : Sphere ℝ) : Prop where
  left : s.radius < s.center.distance t.center + t.radius
  right : t.radius < s.center.distance t.center + s.radius

lemma Apart.distance_pos (h : s.Apart t) : 0 < s.center.distance t.center := by
  linarith [h.left, h.right]

/-! ### Cases -/

section Valid

variable (hs : s.IsValid) (ht : t.IsValid)

include hs ht

lemma enclose_eq_left (h : s.center.distance t.center + t.radius ≤ s.radius) :
    s.enclose t = s := by
  rw [enclose, if_neg (not_not.2 ht), if_neg (not_not.2 hs)]
  exact if_pos h

lemma enclose_eq_right (hleft : ¬s.center.distance t.center + t.radius ≤ s.radius)
    (h : s.center.distance t.center + s.radius ≤ t.radius) : s.enclose t = t := by
  rw [enclose, if_neg (not_not.2 ht), if_neg (not_not.2 hs)]
  exact (if_neg hleft).trans (if_pos h)

lemma enclose_eq_between (h : s.Apart t) :
    s.enclose t =
      ⟨s.center + (t.center - s.center).scale
          (((s.radius + s.center.distance t.center + t.radius) / 2 - s.radius) /
            s.center.distance t.center),
        (s.radius + s.center.distance t.center + t.radius) / 2⟩ := by
  rw [enclose, if_neg (not_not.2 ht), if_neg (not_not.2 hs)]
  refine (if_neg h.left.not_ge).trans ((if_neg h.right.not_ge).trans ?_)
  have hhalf : (s.radius + s.center.distance t.center + t.radius) * 0.5 =
    (s.radius + s.center.distance t.center + t.radius) / 2 := by norm_num [div_eq_mul_inv]
  rw [← hhalf]

lemma eq_or_eq_or_apart : s.enclose t = s ∧ s.center.distance t.center + t.radius ≤ s.radius ∨
    s.enclose t = t ∧ s.center.distance t.center + s.radius ≤ t.radius ∨ s.Apart t := by
  by_cases hleft : s.center.distance t.center + t.radius ≤ s.radius
  · exact Or.inl ⟨enclose_eq_left hs ht hleft, hleft⟩
  by_cases hright : s.center.distance t.center + s.radius ≤ t.radius
  · exact Or.inr (Or.inl ⟨enclose_eq_right hs ht hleft hright, hright⟩)
  · exact Or.inr (Or.inr ⟨not_le.1 hleft, not_le.1 hright⟩)

/-! ### Where the new sphere lies -/

/-- The new sphere is touched by both from within, each at its far end. -/
lemma distance_enclose_of_apart (h : s.Apart t) :
    s.center.distance (s.enclose t).center = (s.enclose t).radius - s.radius ∧
      t.center.distance (s.enclose t).center = (s.enclose t).radius - t.radius := by
  have hd := h.distance_pos
  rw [enclose_eq_between hs ht h]
  dsimp only
  generalize hr : (s.radius + s.center.distance t.center + t.radius) / 2 = r
  have hleft : 0 ≤ r - s.radius := by linarith [h.left]
  have hright : 0 ≤ r - t.radius := by linarith [h.right]
  constructor
  · rw [Vec3.distance_comm, Vec3.distance_along_left, abs_of_nonneg (div_nonneg hleft hd.le),
      div_mul_cancel₀ _ hd.ne']
  · have hk : 1 - (r - s.radius) / s.center.distance t.center =
        (r - t.radius) / s.center.distance t.center := by
      rw [eq_div_iff hd.ne', sub_mul, one_mul, div_mul_cancel₀ _ hd.ne']
      linarith
    rw [Vec3.distance_comm, Vec3.distance_along_right, hk,
      abs_of_nonneg (div_nonneg hright hd.le), div_mul_cancel₀ _ hd.ne']

/-- Both spheres lie within the new one. -/
theorem distance_enclose_le :
    s.center.distance (s.enclose t).center + s.radius ≤ (s.enclose t).radius ∧
      t.center.distance (s.enclose t).center + t.radius ≤ (s.enclose t).radius := by
  obtain ⟨he, h⟩ | ⟨he, h⟩ | h := eq_or_eq_or_apart hs ht
  · rw [he, Vec3.distance_self, Vec3.distance_comm, zero_add]
    exact ⟨le_rfl, h⟩
  · rw [he, Vec3.distance_self, zero_add]
    exact ⟨h, le_rfl⟩
  · obtain ⟨hleft, hright⟩ := distance_enclose_of_apart hs ht h
    constructor <;> linarith

/-- The new sphere reaches as far as it has to. -/
theorem radius_enclose :
    (s.enclose t).radius = max (max s.radius t.radius)
      ((s.radius + s.center.distance t.center + t.radius) / 2) := by
  have hd := Vec3.distance_nonneg s.center t.center
  symm
  obtain ⟨he, h⟩ | ⟨he, h⟩ | h := eq_or_eq_or_apart hs ht
  · rw [he, max_eq_left (b := t.radius) (by linarith), max_eq_left (by linarith)]
  · rw [he, max_eq_right (by linarith : s.radius ≤ t.radius), max_eq_left (by linarith)]
  · rw [enclose_eq_between hs ht h]
    exact max_eq_right (max_le (by linarith [h.left]) (by linarith [h.right]))

end Valid

theorem isValid_enclose_iff : (s.enclose t).IsValid ↔ s.IsValid ∨ t.IsValid := by
  refine ⟨isValid_of_enclose, fun h => ?_⟩
  by_cases ht : t.IsValid
  · by_cases hs : s.IsValid
    · have hle := (distance_enclose_le hs ht).1
      have hd := Vec3.distance_nonneg s.center (s.enclose t).center
      have hradius : 0 ≤ s.radius := hs
      show 0 ≤ (s.enclose t).radius
      linarith
    · rwa [enclose_of_left_invalid hs ht]
  · rw [enclose_of_right_invalid ht]
    exact h.resolve_right ht

theorem holds_enclose_left {p : Vec3 ℝ} (hp : s.Holds p) : (s.enclose t).Holds p := by
  have hs := isValid_of_holds hp
  by_cases ht : t.IsValid
  · exact (holds_imp_iff hs).2 (distance_enclose_le hs ht).1 p hp
  · rwa [enclose_of_right_invalid ht]

theorem holds_enclose_right {p : Vec3 ℝ} (hp : t.Holds p) : (s.enclose t).Holds p := by
  have ht := isValid_of_holds hp
  by_cases hs : s.IsValid
  · exact (holds_imp_iff ht).2 (distance_enclose_le hs ht).2 p hp
  · rwa [enclose_of_left_invalid hs ht]

/-- A sphere that holds two others is not smaller than the one that is taken. -/
theorem radius_enclose_le (hs : s.IsValid) (ht : t.IsValid)
    (hleft : ∀ p, s.Holds p → u.Holds p) (hright : ∀ p, t.Holds p → u.Holds p) :
    (s.enclose t).radius ≤ u.radius := by
  have hl := (holds_imp_iff hs).1 hleft
  have hr := (holds_imp_iff ht).1 hright
  have hsu := Vec3.distance_nonneg s.center u.center
  have htu := Vec3.distance_nonneg t.center u.center
  have htri : s.center.distance t.center ≤
      s.center.distance u.center + t.center.distance u.center := by
    rw [Vec3.distance_comm t.center]
    exact Vec3.distance_triangle _ _ _
  rw [radius_enclose hs ht]
  refine max_le (max_le ?_ ?_) ?_ <;> linarith

/-- What a division by zero gives does not matter: there is none. -/
theorem enclose_dividing (s t : Sphere ℝ) {div : ℝ → ℝ → ℝ}
    (hdiv : ∀ a b, b ≠ 0 → div a b = a / b) :
    @enclose ℝ (Scalar.dividing div) s t = s.enclose t := by
  have hcases : @enclose ℝ (Scalar.dividing div) s t =
      if ¬t.IsValid then s
      else if ¬s.IsValid then t
      else if s.center.distance t.center + t.radius ≤ s.radius then s
      else if s.center.distance t.center + s.radius ≤ t.radius then t
      else
        let radius := (s.radius + s.center.distance t.center + t.radius) * 0.5
        ⟨s.center + (t.center - s.center).scale
          (div (radius - s.radius) (s.center.distance t.center)), radius⟩ := rfl
  rw [hcases, enclose]
  dsimp only
  split_ifs with ht hs hleft hright
  · rfl
  · rfl
  · have h : s.Apart t := ⟨not_le.1 hleft, not_le.1 hright⟩
    rw [hdiv _ _ h.distance_pos.ne']
  · rfl
  · rfl

/-- A sphere that holds two others, and the smallest of them. -/
structure IsLeastAbout (u s t : Sphere ℝ) : Prop where
  left : ∀ p, s.Holds p → u.Holds p
  right : ∀ p, t.Holds p → u.Holds p
  radius_eq : u.radius =
    max (max s.radius t.radius) ((s.radius + s.center.distance t.center + t.radius) / 2)
  le : s.radius ≤ u.radius
  least : ∀ v : Sphere ℝ, (∀ p, s.Holds p → v.Holds p) → (∀ p, t.Holds p → v.Holds p) →
    u.radius ≤ v.radius

/-- The sphere about two spheres is the smallest. A sphere that is not valid adds nothing, and
nothing is ever divided by zero. -/
theorem enclose_isLeast (s t : Sphere ℝ) :
    (∀ div : ℝ → ℝ → ℝ, (∀ a b, b ≠ 0 → div a b = a / b) →
        @enclose ℝ (Scalar.dividing div) s t = s.enclose t) ∧
      (¬t.IsValid → s.enclose t = s) ∧
      (¬s.IsValid → t.IsValid → s.enclose t = t) ∧
      (s.IsValid → t.IsValid → IsLeastAbout (s.enclose t) s t) := by
  refine ⟨fun div => enclose_dividing s t, enclose_of_right_invalid, enclose_of_left_invalid,
    fun hs ht => ?_⟩
  obtain ⟨hleft, hright⟩ := distance_enclose_le hs ht
  constructor
  case left => exact (holds_imp_iff hs).2 hleft
  case right => exact (holds_imp_iff ht).2 hright
  case radius_eq => exact radius_enclose hs ht
  case le => linarith [Vec3.distance_nonneg s.center (s.enclose t).center]
  case least => exact fun v => radius_enclose_le hs ht

end Sphere

end SceneLighting
