import SceneLighting.Manager.Basic
import SceneLighting.Scene.Forest

/-!
# Scenes

A scene is a tree of nodes under one root, with the light managers of its manager nodes.
-/

namespace SceneLighting

/-- The light managers of a scene. -/
abbrev Managers (α : Type) := SlotMap .manager (Manager α)

structure Scene (α : Type) where
  nodes : Nodes α
  managers : Managers α
  root : NodeKey

namespace Scene

variable {α : Type}

/-- The scene of a root alone. -/
def new : Scene α :=
  let nodes : Nodes α := .empty
  ⟨nodes.insert ⟨"root", .group, none, [], none⟩, .empty, nodes.nextKey⟩

def node? (scene : Scene α) (key : NodeKey) : Option (Node α) :=
  scene.nodes.get? key

def size (scene : Scene α) : Nat :=
  scene.nodes.size

/-- The tree of the whole scene. -/
def tree (scene : Scene α) : Forest α :=
  .ofKeys scene.nodes [scene.root]

/-- The trees below a node. -/
def below (scene : Scene α) (node : Node α) : Forest α :=
  .ofKeys scene.nodes node.children

/-- The manager that a manager node owns. -/
def managerKey? (scene : Scene α) (key : NodeKey) : Option ManagerKey :=
  match (scene.node? key).map Node.kind with
  | some (.manager manager) => some manager
  | _                       => none

def manager? (scene : Scene α) (key : NodeKey) : Option (Manager α) :=
  (scene.managerKey? key).bind scene.managers.get?

def source? (scene : Scene α) (key : NodeKey) : Option (LightSource α) :=
  match (scene.node? key).map Node.kind with
  | some (.light source) => some source
  | _                    => none

/-- The node that a key should name. -/
def findNode (scene : Scene α) (key : NodeKey) : Except Fault (Node α) :=
  match scene.node? key with
  | some node => .ok node
  | none      => .error (.nodeNotFound key)

/-- A manager node and the key of its manager. -/
def findManagerNode (scene : Scene α) (key : NodeKey) : Except Fault (Node α × ManagerKey) :=
  match scene.node? key with
  | none      => .error (.notManager key)
  | some node =>
    match node.kind with
    | .manager manager => .ok (node, manager)
    | _                => .error (.notManager key)

/-- The manager that a key should name. -/
def findManager (scene : Scene α) (key : ManagerKey) : Except Fault (Manager α) :=
  match scene.managers.get? key with
  | some manager => .ok manager
  | none         => .error (.managerNotFound key)

/-- Run an action on the manager that a key names. Without one, the fault is `missing`. -/
def onManagerKey {β : Type} (key : ManagerKey) (part : Part) (missing : Fault)
    (act : Action (Manager α) β) : Action (Managers α) β :=
  fun managers =>
    match managers.get? key with
    | none         => Action.fail part missing managers
    | some manager =>
      let o := act manager
      { o with state := managers.modify key fun _ => o.state }

/-- Run an action on the managers alone. -/
def onManagers {β : Type} : Action (Managers α) β → Action (Scene α) β :=
  Action.on managers fun scene managers => { scene with managers }

/-- Run an action on the manager of a node. Answers nothing if the node has none. -/
def onManager {β : Type} (key : NodeKey) (act : Action (Manager α) β) :
    Action (Scene α) (Option β) :=
  fun scene =>
    match scene.managerKey? key, scene.manager? key with
    | some managerKey, some manager =>
      let o := act manager
      { result := o.result.map some
        state := { scene with managers := scene.managers.modify managerKey fun _ => o.state }
        log := o.log }
    | _, _ => ⟨.ok none, scene, []⟩

variable [Scalar α]

/-- The bound of a node in its own space. A key that names no node has an invalid one. -/
def bound (scene : Scene α) (key : NodeKey) : Sphere α :=
  match scene.node? key with
  | none      => .invalid
  | some node => node.bound (scene.below node).bound

/-- The nodes above a node, from its parent on, `steps` of them at most. -/
def ancestors (nodes : Nodes α) : (steps : Nat) → Node α → List (Node α)
  | 0, _          => []
  | steps + 1, node =>
    match node.parent.bind nodes.get? with
    | none        => []
    | some parent => parent :: ancestors nodes steps parent

/-- From the space of a node to that of the world. -/
def worldMatrix (key : NodeKey) : Action (Scene α) (Mat4 α) := do
  let scene ← Action.get
  let node ← Action.check .scene (scene.findNode key)
  return (ancestors scene.nodes scene.size node).foldl
    (fun matrix parent => parent.matrix * matrix) node.matrix

end Scene

end SceneLighting
