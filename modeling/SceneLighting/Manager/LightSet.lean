import SceneLighting.Light.Packed
import SceneLighting.Manager.Fingerprint
import SceneLighting.Slot.Key

/-!
# Light sets

The lights that a part of the scene is drawn with, in order, each placed in the world. A set is made
once in a frame for all the requests that it serves.
-/

namespace SceneLighting

structure PlacedLight (α : Type) where
  /-- The place in the set. -/
  slot : Nat
  /-- The place among the lights registered in the frame. -/
  index : Nat
  /-- The node that the light comes from. -/
  source : NodeKey
  light : Light α

/-- Tells the sets of one manager apart: the frame that a set was made in, and how many were made
before it in that frame. -/
structure Stamp where
  frame : Nat
  serial : Nat
  deriving DecidableEq

structure LightSet (α : Type) where
  stamp : Stamp
  fingerprint : Fingerprint
  slots : List (PlacedLight α)

namespace LightSet

variable {α : Type}

/-- The registry places of the lights, in the order of the set. -/
def indices (set : LightSet α) : List Nat :=
  set.slots.map PlacedLight.index

/-- Whether a set is the answer to a request. The lengths are compared first, for speed alone. -/
def Serves (set : LightSet α) (mode : Fingerprint.Mode) (indices : List Nat) : Prop :=
  indices.length = set.slots.length ∧
    mode.representative set.indices = mode.representative indices

instance (set : LightSet α) (mode : Fingerprint.Mode) (indices : List Nat) :
    Decidable (set.Serves mode indices) :=
  inferInstanceAs (Decidable (_ ∧ _))

/-- The records of the lights for a camera with this view matrix. -/
def packed [Scalar α] (set : LightSet α) (view : Mat4 α) : List (PackedLight α) :=
  set.slots.map fun placed => PackedLight.ofLight view placed.light

end LightSet

end SceneLighting
