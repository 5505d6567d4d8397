import SceneLighting.Manager.Frame
import SceneLighting.Manager.Settings

/-!
# Light managers

A light manager collects the lights of its part of the scene anew in each frame and answers
requests for sets of them.
-/

namespace SceneLighting

structure Manager (α : Type) where
  settings : Settings
  /-- Whether the manager was attached to the nodes that it lights. This is done once. -/
  isDecorated : Bool
  frame : Frame α

namespace Manager

variable {α : Type}

/-- A manager before its first frame. -/
def new (settings : Settings) : Manager α :=
  ⟨settings, false, .blank 0⟩

def ofSettings (settings : Settings) : Except Fault (Manager α) :=
  settings.check.map fun _ => new settings

/-- Run an action on the frame. -/
def onFrame {β : Type} : Action (Frame α) β → Action (Manager α) β :=
  Action.on frame fun m frame => { m with frame }

/-- Forget the last frame and begin the next. Answers whether the manager is still to be attached
to nodes. -/
def beginFrame : Action (Manager α) Bool :=
  fun m =>
    let number := m.frame.number + 1
    ⟨.ok !m.isDecorated, { m with frame := .blank number }, [.frameBegun number]⟩

/-- A list can be asked for when it is no longer than the cap and all its lights are registered. -/
def checkIndices (m : Manager α) (indices : List Nat) : Except Fault Unit :=
  if m.settings.cap < indices.length then
    .error (.capExceeded indices.length m.settings.cap)
  else
    match indices.find? fun index => m.frame.lights.size ≤ index with
    | some index => .error (.lightNotRegistered index m.frame.lights.size)
    | none       => .ok ()

variable [Scalar α]

def register (m : Manager α) (node : NodeKey) (source : LightSource α) (world : Mat4 α) :
    Manager α :=
  { m with frame := m.frame.register node source world }

def prepare (m : Manager α) (camera : Camera α) : Manager α :=
  { m with frame := m.frame.prepare camera }

/-- Ask for the set of the lights at the given places of the registry. -/
def request (indices : List Nat) : Action (Manager α) (LightSet α) := do
  let m ← Action.get
  Action.check .manager (m.checkIndices indices)
  onFrame (Frame.answer m.settings.mode indices)

end Manager

end SceneLighting
