import SceneLighting.Action
import SceneLighting.Camera
import SceneLighting.Geometry.Sphere
import SceneLighting.Manager.LightSet

/-!
# Frames of a light manager

What a manager knows for one frame only: the lights registered, their bounds as one camera sees
them, and the light sets made so far.
-/

namespace SceneLighting

/-- A light registered for a frame. -/
structure Registered (α : Type) where
  node : NodeKey
  source : LightSource α
  world : Mat4 α
  /-- What the light reaches, in the space of the camera that the frame is prepared for. -/
  bound : Sphere α

namespace Registered

variable {α : Type} [Scalar α]

/-- What the light reaches, in the space of a camera. -/
def seenBy (entry : Registered α) (camera : Camera α) : Sphere α :=
  Sphere.map (camera.view * entry.world) ⟨0, entry.source.radius⟩

/-- The light as a set holds it, placed in the world. -/
def placed (entry : Registered α) (index slot : Nat) : PlacedLight α where
  slot := slot
  index := index
  source := entry.node
  light :=
    { entry.source.light with
      number := slot
      position := entry.world.mulVec entry.source.light.position }

end Registered

structure FrameStats where
  registered : Nat
  /-- How often the bounds were computed for a camera. -/
  preparations : Nat
  /-- How many requests were answered with a set made before. -/
  hits : Nat
  /-- How many sets were made. -/
  misses : Nat
  /-- How many selections left lights out. -/
  truncations : Nat
  deriving DecidableEq

structure Frame (α : Type) where
  number : Nat
  lights : Array (Registered α)
  /-- The sets that requests are answered from, at most one for a fingerprint. -/
  cache : List (LightSet α)
  /-- The view matrix that the bounds were computed for. -/
  preparedView : Option (Mat4 α)
  stats : FrameStats

namespace Frame

variable {α : Type}

/-- A frame at its beginning. -/
def blank (number : Nat) : Frame α :=
  ⟨number, #[], [], none, ⟨0, 0, 0, 0, 0⟩⟩

/-- The set that requests of a fingerprint are answered from. -/
def cached? (frame : Frame α) (fingerprint : Fingerprint) : Option (LightSet α) :=
  frame.cache.find? fun set => set.fingerprint = fingerprint

variable [Scalar α]

/-- Add a light. Its bound stays invalid until bounds are computed again. -/
def register (frame : Frame α) (node : NodeKey) (source : LightSource α) (world : Mat4 α) :
    Frame α :=
  { frame with
    lights := frame.lights.push ⟨node, source, world, .invalid⟩
    stats := { frame.stats with registered := frame.stats.registered + 1 } }

def isPreparedFor (frame : Frame α) (camera : Camera α) : Bool :=
  frame.preparedView == some camera.view

/-- Compute the bounds for a camera, unless they were computed for its view already. -/
def prepare (frame : Frame α) (camera : Camera α) : Frame α :=
  if frame.isPreparedFor camera then frame
  else
    { frame with
      lights := frame.lights.map fun entry => { entry with bound := entry.seenBy camera }
      preparedView := some camera.view
      stats := { frame.stats with preparations := frame.stats.preparations + 1 } }

/-- Make the set of the lights at the given places. Its serial is the number of sets made before. -/
def build (frame : Frame α) (fingerprint : Fingerprint) (indices : List Nat) : LightSet α where
  stamp := ⟨frame.number, frame.stats.misses⟩
  fingerprint := fingerprint
  slots := indices.zipIdx.filterMap fun (index, slot) =>
    frame.lights[index]?.map fun entry => entry.placed index slot

def countHit (frame : Frame α) : Frame α :=
  { frame with stats := { frame.stats with hits := frame.stats.hits + 1 } }

def countMiss (frame : Frame α) : Frame α :=
  { frame with stats := { frame.stats with misses := frame.stats.misses + 1 } }

def countTruncation (frame : Frame α) : Frame α :=
  { frame with stats := { frame.stats with truncations := frame.stats.truncations + 1 } }

/-- Answer a request. The first set made for a fingerprint is kept and answers every request that
it serves; a different list of the same fingerprint gets a set of its own each time. -/
def answer (mode : Fingerprint.Mode) (indices : List Nat) : Action (Frame α) (LightSet α) :=
  fun frame =>
    let fingerprint := Fingerprint.ofIndices mode indices
    let fresh := frame.build fingerprint indices
    match frame.cached? fingerprint with
    | none     => ⟨.ok fresh, { frame.countMiss with cache := fresh :: frame.cache }, []⟩
    | some set =>
      if set.Serves mode indices then ⟨.ok set, frame.countHit, []⟩
      else ⟨.ok fresh, frame.countMiss, [.collided fingerprint indices]⟩

end Frame

end SceneLighting
