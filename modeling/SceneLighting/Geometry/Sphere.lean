import SceneLighting.Geometry.Matrix

/-!
# Bounding spheres

A sphere bounds what a part of the scene occupies, or what a light reaches. One whose radius is no
number from zero on is not valid: it bounds nothing, touches nothing and adds nothing to a union.
-/

namespace SceneLighting

structure Sphere (α : Type) where
  center : Vec3 α
  radius : α
  deriving BEq

namespace Sphere

variable {α : Type} [Scalar α]

/-- The bound of nothing. -/
def invalid : Sphere α :=
  ⟨0, -1⟩

def IsValid (s : Sphere α) : Prop :=
  0 ≤ s.radius

instance (s : Sphere α) : Decidable s.IsValid :=
  inferInstanceAs (Decidable (0 ≤ s.radius))

/-- Two valid spheres touch when their centres are no farther apart than their radii together. -/
def Touches (s t : Sphere α) : Prop :=
  s.IsValid ∧ t.IsValid ∧
    s.center.distanceSquared t.center ≤ (s.radius + t.radius) * (s.radius + t.radius)

instance (s t : Sphere α) : Decidable (s.Touches t) :=
  inferInstanceAs (Decidable (_ ∧ _ ∧ _))

/-- The bound of what `s` bounds, moved by `m`. The radius grows by the longest axis. -/
def map (m : Mat4 α) (s : Sphere α) : Sphere α :=
  if s.IsValid then ⟨m.mapPoint s.center, s.radius * m.longestAxis⟩ else s

/-- A sphere about both `s` and `t`: one of them if it already holds the other, and otherwise the
sphere through the far ends of the line of centres. -/
def enclose (s t : Sphere α) : Sphere α :=
  if ¬t.IsValid then s
  else if ¬s.IsValid then t
  else
    let d := s.center.distance t.center
    if d + t.radius ≤ s.radius then s
    else if d + s.radius ≤ t.radius then t
    else
      let radius := (s.radius + d + t.radius) * 0.5
      ⟨s.center + (t.center - s.center).scale ((radius - s.radius) / d), radius⟩

end Sphere

end SceneLighting
