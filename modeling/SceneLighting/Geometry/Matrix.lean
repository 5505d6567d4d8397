import SceneLighting.Geometry.Vector

/-!
# Matrices

Four by four matrices, held by their columns and applied to columns, so that `a * b` first does
what `b` does.
-/

namespace SceneLighting

structure Mat4 (α : Type) where
  x : Vec4 α
  y : Vec4 α
  z : Vec4 α
  w : Vec4 α
  deriving BEq

namespace Mat4

variable {α : Type} [Scalar α]

instance : One (Mat4 α) := ⟨⟨⟨1, 0, 0, 0⟩, ⟨0, 1, 0, 0⟩, ⟨0, 0, 1, 0⟩, ⟨0, 0, 0, 1⟩⟩⟩

def translation (u : Vec3 α) : Mat4 α :=
  { (1 : Mat4 α) with w := u.withW 1 }

def scaling (u : Vec3 α) : Mat4 α :=
  ⟨⟨u.x, 0, 0, 0⟩, ⟨0, u.y, 0, 0⟩, ⟨0, 0, u.z, 0⟩, ⟨0, 0, 0, 1⟩⟩

def mulVec (m : Mat4 α) (v : Vec4 α) : Vec4 α where
  x := m.x.x * v.x + m.y.x * v.y + m.z.x * v.z + m.w.x * v.w
  y := m.x.y * v.x + m.y.y * v.y + m.z.y * v.z + m.w.y * v.w
  z := m.x.z * v.x + m.y.z * v.y + m.z.z * v.z + m.w.z * v.w
  w := m.x.w * v.x + m.y.w * v.y + m.z.w * v.z + m.w.w * v.w

instance : Mul (Mat4 α) :=
  ⟨fun a b => ⟨a.mulVec b.x, a.mulVec b.y, a.mulVec b.z, a.mulVec b.w⟩⟩

/-- Where an affine matrix moves a point. The last row is not looked at. -/
def mapPoint (m : Mat4 α) (p : Vec3 α) : Vec3 α where
  x := m.x.x * p.x + m.y.x * p.y + m.z.x * p.z + m.w.x
  y := m.x.y * p.x + m.y.y * p.y + m.z.y * p.z + m.w.y
  z := m.x.z * p.x + m.y.z * p.y + m.z.z * p.z + m.w.z

/-- Where a matrix turns a direction: the translation is left out. -/
def mapDirection (m : Mat4 α) (u : Vec3 α) : Vec3 α where
  x := m.x.x * u.x + m.y.x * u.y + m.z.x * u.z
  y := m.x.y * u.x + m.y.y * u.y + m.z.y * u.z
  z := m.x.z * u.x + m.y.z * u.y + m.z.z * u.z

/-- The length of the longest of the three axes' images. -/
def longestAxis (m : Mat4 α) : α :=
  Scalar.larger (Scalar.larger m.x.xyz.length m.y.xyz.length) m.z.xyz.length

/-- The entries, column by column. -/
def toList (m : Mat4 α) : List α :=
  m.x.toList ++ m.y.toList ++ m.z.toList ++ m.w.toList

end Mat4

end SceneLighting
