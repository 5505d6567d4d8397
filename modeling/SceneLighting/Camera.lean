import SceneLighting.Geometry.Matrix

/-!
# Cameras
-/

namespace SceneLighting

/-- The view matrix takes world space to the camera's own space, and the projection from there to
the picture. -/
structure Camera (α : Type) where
  view : Mat4 α
  projection : Mat4 α
  deriving BEq

namespace Camera

variable {α : Type} [Scalar α]

/-- The camera that changes nothing. -/
def identity : Camera α :=
  ⟨1, 1⟩

def viewProjection (c : Camera α) : Mat4 α :=
  c.projection * c.view

end Camera

end SceneLighting
