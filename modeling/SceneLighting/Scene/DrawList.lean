import SceneLighting.Manager.Selection
import SceneLighting.Scene.Basic
import SceneLighting.Scene.CountedStack

/-!
# Draw lists

What a camera draws: every drawable of the scene, with its matrix and with the lights in force
there, which are those that the nearest node above it selected, if any selected some.
-/

namespace SceneLighting

/-- A light set together with the manager that made it. -/
structure Lighting (α : Type) where
  manager : ManagerKey
  set : LightSet α

/-- One thing to draw. -/
structure Draw (α : Type) where
  node : NodeKey
  modelView : Mat4 α
  lighting : Option (Lighting α)

/-- What a node with a manager selected of its lights. -/
structure Selection (α : Type) where
  node : NodeKey
  lighting : Option (Lighting α)

structure DrawStats where
  drawables : Nat
  selections : Nat
  pushes : Nat
  pops : Nat
  deriving DecidableEq

structure DrawList (α : Type) where
  draws : List (Draw α)
  /-- All selections, in the order in which they were made. -/
  selections : List (Selection α)
  /-- How often lights were put in force. -/
  pushes : Nat
  /-- How often lights were taken out of force. -/
  pops : Nat

namespace DrawList

variable {α : Type}

def empty : DrawList α :=
  ⟨[], [], 0, 0⟩

def find? (list : DrawList α) (key : NodeKey) : Option (Draw α) :=
  list.draws.find? fun draw => draw.node = key

def stats (list : DrawList α) : DrawStats :=
  ⟨list.draws.length, list.selections.length, list.pushes, list.pops⟩

end DrawList

/-- What changes while a draw list is made. -/
structure Culling (α : Type) where
  managers : Managers α
  /-- The model-view matrices of the transforms that were entered and not left, the innermost first,
  and in the end that of the camera. -/
  modelViews : List (Mat4 α)
  /-- The lighting in force, below it what it hides. -/
  lighting : CountedStack (Lighting α)
  selections : List (Selection α)

namespace Culling

variable {α : Type}

def start (camera : Camera α) (managers : Managers α) : Culling α :=
  ⟨managers, [camera.view], .empty, []⟩

def onManagers {β : Type} : Action (Managers α) β → Action (Culling α) β :=
  Action.on managers fun c managers => { c with managers }

/-- Note a selection, and put the lights in force if there are any. -/
def select (c : Culling α) (selection : Selection α) : Culling α :=
  { c with
    selections := c.selections ++ [selection]
    lighting := match selection.lighting with
      | none          => c.lighting
      | some lighting => c.lighting.push lighting }

/-- Take the lights of a selection out of force. -/
def release (c : Culling α) (lighting : Option (Lighting α)) : Culling α :=
  match lighting with
  | none   => c
  | some _ => { c with lighting := c.lighting.pop }

/-- Come back out of the space of a node. -/
def leave (c : Culling α) (node : Node α) : Culling α :=
  match node.kind with
  | .transform _ => { c with modelViews := c.modelViews.tail }
  | _            => c

variable [Scalar α]

/-- From the space that was entered last to that of the camera. -/
def modelView (c : Culling α) : Mat4 α :=
  c.modelViews.headD 1

/-- Go into the space of a node. Only transforms multiply, so that no other node can round. -/
def enter (c : Culling α) (node : Node α) : Culling α :=
  match node.kind with
  | .transform matrix => { c with modelViews := c.modelView * matrix :: c.modelViews }
  | _                 => c

end Culling

namespace Forest

variable {α : Type} [Scalar α]

/-- Select the lights of a node and put them in force, if the node has a manager. -/
def selectNode (camera : Camera α) (key : NodeKey) (node : Node α) (children : Forest α) :
    Action (Culling α) (Option (Lighting α)) :=
  match node.selector with
  | none         => return none
  | some manager => do
    let c ← Action.get
    let set? ← Culling.onManagers
      (Scene.onManagerKey manager .culling (.selectedManagerNotFound manager node.name)
        (Manager.select camera (node.bound children.bound) c.modelView))
    let lighting := set?.map fun set => ⟨manager, set⟩
    Action.modify fun c => c.select ⟨key, lighting⟩
    return lighting

/-- The node itself as a thing to draw, under the lighting in force. -/
def drawNode (key : NodeKey) (node : Node α) : Action (Culling α) (List (Draw α)) := do
  let c ← Action.get
  return if node.isDrawable then [⟨key, c.modelView, c.lighting.top?⟩] else []

/-- The drawables of the trees, each node before its children. -/
def draws (camera : Camera α) : Forest α → Action (Culling α) (List (Draw α))
  | .nil => return []
  | .lost key _ => Action.fail .culling (.nodeNotFound key)
  | .tree key node children rest => do
    Action.modify fun c => c.enter node
    let lighting ← selectNode camera key node children
    let own ← drawNode key node
    let below ← children.draws camera
    Action.modify fun c => (c.release lighting).leave node
    let after ← rest.draws camera
    return own ++ below ++ after

end Forest

namespace Scene

variable {α : Type} [Scalar α]

/-- What a camera draws. Of the scene only the frames of managers change. -/
def drawList (camera : Camera α) : Action (Scene α) (DrawList α) := do
  let scene ← Action.get
  Action.on (fun scene => .start camera scene.managers)
    (fun scene c => { scene with managers := c.managers }) do
      let draws ← scene.tree.draws camera
      let c ← Action.get
      return ⟨draws, c.selections, c.lighting.pushes, c.lighting.pops⟩

end Scene

end SceneLighting
