import SceneLighting.Slot.Key

/-!
# Faults

Why an operation on a scene or on a light manager failed, and how a failure is told.
-/

namespace SceneLighting

inductive ErrorKind where
  | lightOutsideManager
  | invalidNode
  | invalidConfig
  | sceneError
  deriving DecidableEq

/-- The words that an error of a kind begins with. -/
def ErrorKind.title : ErrorKind → String
  | .lightOutsideManager => "Light outside manager"
  | .invalidNode         => "Invalid node"
  | .invalidConfig       => "Invalid config"
  | .sceneError          => "Scene error"

structure Error where
  kind : ErrorKind
  message : String
  deriving DecidableEq

def Error.text (e : Error) : String :=
  s!"{e.kind.title}: {e.message}"

inductive Fault where
  | parentNotFound (parent : NodeKey) (name : String)
  | drawableParent (parent name : String)
  | rootRemoval
  | nodeNotFound (node : NodeKey)
  | notTransform (name : String)
  | notManager (node : NodeKey)
  | managerNotFound (manager : ManagerKey)
  /-- A manager node whose manager is gone. -/
  | ownManagerNotFound (manager : ManagerKey) (name : String)
  /-- A node that is to be lit by a manager that is gone. -/
  | selectedManagerNotFound (manager : ManagerKey) (name : String)
  | lightOutsideManager (name : String)
  | capOutOfRange (limit cap : Nat)
  | capExceeded (count cap : Nat)
  | lightNotRegistered (index registered : Nat)
  deriving DecidableEq

namespace Fault

def kind : Fault → ErrorKind
  | .lightOutsideManager .. => .lightOutsideManager
  | .capOutOfRange ..       => .invalidConfig
  | .capExceeded ..         => .sceneError
  | _                       => .invalidNode

def message : Fault → String
  | .parentNotFound parent name =>
    s!"Parent {parent.text} of '{name}' not found"
  | .drawableParent parent name =>
    s!"Drawable '{parent}' cannot have children ('{name}')"
  | .rootRemoval =>
    "The root node cannot be removed"
  | .nodeNotFound node =>
    s!"Node {node.text} not found"
  | .notTransform name =>
    s!"Node '{name}' is not a Transform"
  | .notManager node =>
    s!"Node {node.text} is not a LightManager"
  | .managerNotFound manager =>
    s!"LightManager {manager.text} not found"
  | .ownManagerNotFound manager name =>
    s!"LightManager {manager.text} of node '{name}' not found"
  | .selectedManagerNotFound manager name =>
    s!"LightManager {manager.text} for node '{name}' not found"
  | .lightOutsideManager name =>
    s!"Light source '{name}' has no enclosing LightManager"
  | .capOutOfRange limit cap =>
    s!"max_lights must be in 1..={limit}, got {cap}"
  | .capExceeded count cap =>
    s!"{count} lights requested, cap is {cap}"
  | .lightNotRegistered index registered =>
    s!"Light index {index} out of range ({registered} registered)"

def error (fault : Fault) : Error :=
  ⟨fault.kind, fault.message⟩

end Fault

end SceneLighting
