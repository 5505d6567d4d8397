import SceneLighting.Scene.Basic

/-!
# Edits

Adding, removing and changing nodes. An edit that fails changes nothing.
-/

namespace SceneLighting

/-- What a node to be added is for. -/
inductive Content (α : Type) where
  | group
  | transform (matrix : Mat4 α)
  /-- The node gets a manager of its own, with these settings. -/
  | manager (settings : Settings)
  | light (source : LightSource α)
  | drawable (bound : Sphere α)

namespace Content

variable {α : Type}

/-- The kind of the new node, and the managers when it is there. -/
def realize (managers : Managers α) : Content α → Except Fault (Kind α × Managers α)
  | .group            => .ok (.group, managers)
  | .transform matrix => .ok (.transform matrix, managers)
  | .light source     => .ok (.light source, managers)
  | .drawable bound   => .ok (.drawable bound, managers)
  | .manager settings =>
    (Manager.ofSettings settings).map fun manager =>
      (.manager managers.nextKey, managers.insert manager)

end Content

namespace Scene

variable {α : Type}

/-! ### Adding -/

/-- A node can be added under any node that is not drawable. -/
def checkParent (scene : Scene α) (parent : NodeKey) (name : String) : Except Fault Unit :=
  match scene.node? parent with
  | none      => .error (.parentNotFound parent name)
  | some node => if node.isDrawable then .error (.drawableParent node.name name) else .ok ()

/-- The scene with one more node, the last child of `parent`. -/
def withNode (scene : Scene α) (parent : NodeKey) (name : String) (kind : Kind α) : Scene α :=
  let nodes := scene.nodes.insert ⟨name, kind, some parent, [], none⟩
  { scene with
    nodes := nodes.modify parent fun node =>
      { node with children := node.children ++ [scene.nodes.nextKey] } }

/-- Add a node as the last child of `parent`. The parent is looked at before the settings of a
manager are. Answers the key of the node. -/
def add (parent : NodeKey) (name : String) (content : Content α) : Action (Scene α) NodeKey := do
  let scene ← Action.get
  Action.check .scene (scene.checkParent parent name)
  let (kind, managers) ← Action.check .settings (content.realize scene.managers)
  Action.modify fun scene => { scene with managers }.withNode parent name kind
  return scene.nodes.nextKey

/-! ### Removing -/

/-- A node other than the root can be removed. Answers the node. -/
def checkRemoval (scene : Scene α) (key : NodeKey) : Except Fault (Node α) :=
  if key = scene.root then .error .rootRemoval else scene.findNode key

/-- The managers of the manager nodes in a list. -/
def ownedManagers (nodes : List (NodeKey × Node α)) : List ManagerKey :=
  nodes.filterMap fun (_, node) =>
    match node.kind with
    | .manager manager => some manager
    | _                => none

/-- The nodes when `key` is no child of its parent any more. -/
def unlink (nodes : Nodes α) (key : NodeKey) (parent : Option NodeKey) : Nodes α :=
  match parent with
  | none        => nodes
  | some parent =>
    nodes.modify parent fun node => { node with children := node.children.filter (· ≠ key) }

/-- The scene without a node and all that is below it. Slots are freed parent before child and later
children first, which decides the order in which they are used again. -/
def withoutTree (scene : Scene α) (key : NodeKey) (node : Node α) : Scene α :=
  let gone := (Forest.ofKeys scene.nodes [key]).lastFirst
  { scene with
    nodes := (gone.map Prod.fst).foldl SlotMap.erase (unlink scene.nodes key node.parent)
    managers := (ownedManagers gone).foldl SlotMap.erase scene.managers }

/-- Remove a node and all that is below it, with the managers there. -/
def erase (key : NodeKey) : Action (Scene α) Unit := do
  let scene ← Action.get
  let node ← Action.check .scene (scene.checkRemoval key)
  Action.modify fun scene => scene.withoutTree key node

/-! ### Changing -/

/-- Only a transform has a matrix to be set. -/
def checkTransform (scene : Scene α) (key : NodeKey) : Except Fault Unit := do
  let node ← scene.findNode key
  match node.kind with
  | .transform _ => .ok ()
  | _            => .error (.notTransform node.name)

def withKind (scene : Scene α) (key : NodeKey) (kind : Kind α) : Scene α :=
  { scene with nodes := scene.nodes.modify key fun node => { node with kind } }

/-- Give a transform another matrix. -/
def setTransform (key : NodeKey) (matrix : Mat4 α) : Action (Scene α) Unit := do
  let scene ← Action.get
  Action.check .scene (scene.checkTransform key)
  Action.modify fun scene => scene.withKind key (.transform matrix)

/-- Change a light source. Answers the light source afterwards, if the node is one. -/
def modifySource (key : NodeKey) (f : LightSource α → LightSource α) :
    Action (Scene α) (Option (LightSource α)) :=
  fun scene =>
    match scene.source? key with
    | none        => ⟨.ok none, scene, []⟩
    | some source => ⟨.ok (some (f source)), scene.withKind key (.light (f source)), []⟩

end Scene

end SceneLighting
