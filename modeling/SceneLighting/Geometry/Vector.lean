import SceneLighting.Scalar

/-!
# Vectors

Vectors of three and of four components. Sums are taken from left to right, which matters where
numbers round.
-/

namespace SceneLighting

/-- A point or a direction of space. -/
structure Vec3 (α : Type) where
  x : α
  y : α
  z : α
  deriving BEq

/-- A colour, or a point of space in homogeneous coordinates: one with `w = 0` is a direction. -/
structure Vec4 (α : Type) where
  x : α
  y : α
  z : α
  w : α
  deriving BEq

variable {α : Type} [Scalar α]

namespace Vec3

instance : Zero (Vec3 α) := ⟨⟨0, 0, 0⟩⟩

instance : Add (Vec3 α) := ⟨fun u v => ⟨u.x + v.x, u.y + v.y, u.z + v.z⟩⟩

instance : Sub (Vec3 α) := ⟨fun u v => ⟨u.x - v.x, u.y - v.y, u.z - v.z⟩⟩

instance : Neg (Vec3 α) := ⟨fun u => ⟨-u.x, -u.y, -u.z⟩⟩

def scale (c : α) (u : Vec3 α) : Vec3 α :=
  ⟨u.x * c, u.y * c, u.z * c⟩

def dot (u v : Vec3 α) : α :=
  u.x * v.x + u.y * v.y + u.z * v.z

def length (u : Vec3 α) : α :=
  Scalar.sqrt (u.dot u)

def distance (u v : Vec3 α) : α :=
  (u - v).length

def distanceSquared (u v : Vec3 α) : α :=
  (u - v).dot (u - v)

def withW (u : Vec3 α) (w : α) : Vec4 α :=
  ⟨u.x, u.y, u.z, w⟩

def toList (u : Vec3 α) : List α :=
  [u.x, u.y, u.z]

end Vec3

namespace Vec4

def xyz (u : Vec4 α) : Vec3 α :=
  ⟨u.x, u.y, u.z⟩

def toList (u : Vec4 α) : List α :=
  [u.x, u.y, u.z, u.w]

end Vec4

end SceneLighting
