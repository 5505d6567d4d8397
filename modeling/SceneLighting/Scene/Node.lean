import SceneLighting.Geometry.Sphere
import SceneLighting.Light.Basic
import SceneLighting.Slot.Key

/-!
# Nodes
-/

namespace SceneLighting

/-- What a node is for. -/
inductive Kind (α : Type) where
  /-- Holds its children together. -/
  | group
  /-- Moves its children. -/
  | transform (matrix : Mat4 α)
  /-- Has a light manager for the lights below it. -/
  | manager (manager : ManagerKey)
  /-- Shines. -/
  | light (source : LightSource α)
  /-- Is drawn. It has no children. -/
  | drawable (bound : Sphere α)

structure Node (α : Type) where
  name : String
  kind : Kind α
  parent : Option NodeKey
  children : List NodeKey
  /-- The manager whose lights fall on the node and on what is below it. -/
  selector : Option ManagerKey

namespace Node

variable {α : Type}

def isDrawable (node : Node α) : Bool :=
  match node.kind with
  | .drawable _ => true
  | _           => false

def isManager (node : Node α) : Bool :=
  match node.kind with
  | .manager _ => true
  | _          => false

variable [Scalar α]

/-- From the space of the node to that of its parent. -/
def matrix (node : Node α) : Mat4 α :=
  match node.kind with
  | .transform matrix => matrix
  | _                 => 1

/-- The bound of a node in its own space, when `below` is that of its children. -/
def bound (node : Node α) (below : Sphere α) : Sphere α :=
  match node.kind with
  | .drawable bound => bound
  | _               => below

/-- A bound in the space of the node, seen from its parent. -/
def outward (node : Node α) (bound : Sphere α) : Sphere α :=
  match node.kind with
  | .transform matrix => bound.map matrix
  | _                 => bound

end Node

end SceneLighting
