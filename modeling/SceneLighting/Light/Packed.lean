import SceneLighting.Geometry.Matrix
import SceneLighting.Light.Basic
import SceneLighting.Scalar.Binary32

/-!
# Packed lights

The record of a light that a shader reads: all places and directions seen from the camera, the cone
given by a cosine. A list of records has an image in memory, 96 bytes a record without gaps.
-/

namespace SceneLighting

/-- The fields in the order in which they lie in memory. -/
structure PackedLight (α : Type) where
  position : Vec4 α
  ambient : Vec4 α
  diffuse : Vec4 α
  specular : Vec4 α
  spotDirection : Vec3 α
  spotExponent : α
  attenuation : Vec3 α
  spotCosine : α

namespace PackedLight

variable {α : Type} [Scalar α]

/-- The record of a light that is placed in the world, for a camera with this view matrix. -/
def ofLight (view : Mat4 α) (light : Light α) : PackedLight α where
  position := view.mulVec light.position
  ambient := light.ambient
  diffuse := light.diffuse
  specular := light.specular
  spotDirection := view.mapDirection light.direction
  spotExponent := light.spotExponent
  attenuation := light.attenuation
  spotCosine := Scalar.cos (Scalar.radians light.spotCutoff)

/-- The 24 numbers of a record. -/
def numbers (record : PackedLight α) : List α :=
  record.position.toList ++ record.ambient.toList ++ record.diffuse.toList ++
    record.specular.toList ++ record.spotDirection.toList ++ [record.spotExponent] ++
    record.attenuation.toList ++ [record.spotCosine]

/-- A word as four bytes, lowest first. -/
def wordBytes (word : UInt32) : List UInt8 :=
  [word.toUInt8, (word >>> 8).toUInt8, (word >>> 16).toUInt8, (word >>> 24).toUInt8]

/-- The memory image of a list of records. -/
def image (records : List (PackedLight Float32)) : List UInt8 :=
  records.flatMap fun record => record.numbers.flatMap fun number => wordBytes number.toBits

end PackedLight

end SceneLighting
