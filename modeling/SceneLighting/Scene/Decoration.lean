import SceneLighting.Scene.Basic

/-!
# Decoration

Attaching managers to the nodes that they light: by hand, or once for all nodes of a manager that
have something to draw.
-/

namespace SceneLighting

variable {α : Type}

namespace Forest

/-- The nodes of a tree that are to be lit, when `below` are those under its root. The root is one
when nothing lights it yet and a child of it is drawn. -/
def unlitTree (key : NodeKey) (node : Node α) (children : Forest α) (below : List NodeKey) :
    List NodeKey :=
  if node.selector.isNone && children.hasDrawable then key :: below else below

/-- The nodes of the trees that are to be lit, other managers and all below them left out. -/
def unlit : Forest α → List NodeKey
  | .nil                         => []
  | .lost _ rest                 => rest.unlit
  | .tree key node children rest =>
    if node.isManager then rest.unlit
    else unlitTree key node children children.unlit ++ rest.unlit

end Forest

namespace Scene

/-- The nodes that the manager of a manager node is to light: that node and those below. -/
def unlitBy (scene : Scene α) (key : NodeKey) (node : Node α) : List NodeKey :=
  let children := scene.below node
  Forest.unlitTree key node children children.unlit

/-- Let a manager light a node. -/
def withSelector (nodes : Nodes α) (manager : ManagerKey) (key : NodeKey) : Nodes α :=
  nodes.modify key fun node => { node with selector := some manager }

/-- Let a manager light all of `keys`, and take it as decorated. -/
def withDecoration (scene : Scene α) (manager : ManagerKey) (keys : List NodeKey) : Scene α :=
  { scene with
    nodes := keys.foldl (fun nodes key => withSelector nodes manager key) scene.nodes
    managers := scene.managers.modify manager fun m => { m with isDecorated := true } }

/-- Attach the manager of a node to all that it is to light, unless this was done before. Answers
how many nodes it was attached to. -/
def decorate (key : NodeKey) : Action (Scene α) Nat := do
  let scene ← Action.get
  let (node, managerKey) ← Action.check .scene (scene.findManagerNode key)
  let manager ← Action.check .scene (scene.findManager managerKey)
  if manager.isDecorated then
    return 0
  else
    let keys := scene.unlitBy key node
    Action.modify fun scene => scene.withDecoration managerKey keys
    Action.emit (.decorated node.name keys.length)
    return keys.length

/-- Attach the manager of a manager node to a node, in place of the one attached before. -/
def attach (key managerNode : NodeKey) : Action (Scene α) Unit := do
  let scene ← Action.get
  let (_, manager) ← Action.check .scene (scene.findManagerNode managerNode)
  let _ ← Action.check .scene (scene.findNode key)
  Action.modify fun scene => { scene with nodes := withSelector scene.nodes manager key }

end Scene

end SceneLighting
