import SceneLighting.Geometry.Vector

/-!
# Lights

A light is a homogeneous position, colours, and terms for how it fades with distance and away from
its axis. A light source adds how far the light reaches.
-/

namespace SceneLighting

structure Light (α : Type) where
  /-- The place of the light among the lights of a draw. -/
  number : Nat
  /-- A point, or with `w = 0` the direction from which the light comes. -/
  position : Vec4 α
  ambient : Vec4 α
  diffuse : Vec4 α
  specular : Vec4 α
  /-- The axis of the cone. -/
  direction : Vec3 α
  /-- The constant, linear and quadratic terms of the fading with distance. -/
  attenuation : Vec3 α
  spotExponent : α
  /-- Half the opening of the cone, in degrees. -/
  spotCutoff : α
  deriving BEq

namespace Light

variable {α : Type} [Scalar α]

/-- A dim white light from the viewer, without a cone and without fading. -/
def standard : Light α where
  number := 0
  position := ⟨0, 0, 1, 0⟩
  ambient := ⟨0.05, 0.05, 0.05, 1⟩
  diffuse := ⟨0.8, 0.8, 0.8, 1⟩
  specular := ⟨0.05, 0.05, 0.05, 1⟩
  direction := ⟨0, 0, -1⟩
  attenuation := ⟨1, 0, 0⟩
  spotExponent := 0
  spotCutoff := 180.0

def point (position : Vec3 α) : Light α :=
  { standard with position := position.withW 1 }

/-- A light that shines along `direction` from infinitely far away. -/
def directional (direction : Vec3 α) : Light α :=
  { standard with position := (-direction).withW 0 }

def withSpot (light : Light α) (direction : Vec3 α) (cutoff exponent : α) : Light α :=
  { light with direction, spotCutoff := cutoff, spotExponent := exponent }

/-- Whether the light has a place, rather than only a direction. -/
def isPositional (light : Light α) : Bool :=
  light.position.w != 0

def IsSpot (light : Light α) : Prop :=
  light.spotCutoff < 180.0

instance (light : Light α) : Decidable light.IsSpot :=
  inferInstanceAs (Decidable (_ < _))

end Light

/-- A light with the radius of the sphere it reaches, about its node's origin. -/
structure LightSource (α : Type) where
  light : Light α
  radius : α

namespace LightSource

variable {α : Type} [Scalar α]

def standard : LightSource α :=
  ⟨Light.standard, 0⟩

end LightSource

end SceneLighting
