import SceneLighting.Scene.Decoration

/-!
# Collection

At the beginning of a frame each manager is given the lights of its part of the scene, which is all
below its node that is not below another manager node.
-/

namespace SceneLighting

variable {α : Type} [Scalar α]

namespace Forest

/-- What a node does to the managers at the beginning of a frame, where `world` takes its space to
the world and `owner` is the nearest manager above. Answers the nearest manager for the nodes below,
and whether the node's own manager is still to be attached to nodes. -/
def collectNode (key : NodeKey) (node : Node α) (world : Mat4 α) (owner : Option ManagerKey) :
    Action (Managers α) (Option ManagerKey × Bool) :=
  match node.kind with
  | .manager manager => do
    let pending ← Scene.onManagerKey manager .collection (.ownManagerNotFound manager node.name)
      Manager.beginFrame
    return (some manager, pending)
  | .light source =>
    match owner with
    | none         => Action.fail .collection (.lightOutsideManager node.name)
    | some manager => do
      Scene.onManagerKey manager .collection (.managerNotFound manager)
        (Action.modify fun m => m.register key source world)
      return (owner, false)
  | _ => return (owner, false)

/-- Begin a frame for all managers of the trees and register the lights with them, each node before
its children. Answers the manager nodes whose managers are still to be attached. -/
def collect : Forest α → Mat4 α → Option ManagerKey → Action (Managers α) (List NodeKey)
  | .nil, _, _ => return []
  | .lost key _, _, _ => Action.fail .collection (.nodeNotFound key)
  | .tree key node children rest, world, owner => do
    let inner := world * node.matrix
    let (innerOwner, pending) ← collectNode key node inner owner
    let below ← children.collect inner innerOwner
    let after ← rest.collect world owner
    return (if pending then [key] else []) ++ below ++ after

end Forest

namespace Scene

/-- Begin a frame: collect the lights, then attach the managers that are not attached yet. -/
def beginFrame : Action (Scene α) Unit := do
  let scene ← Action.get
  let pending ← onManagers (scene.tree.collect 1 none)
  pending.forM fun key => do
    let _ ← decorate key

end Scene

end SceneLighting
