import SceneLighting.Proofs.Scene.WellFormed
import SceneLighting.Scalar.Binary32
import Mathlib.Data.List.Induction

/-!
# Runs

A scene is used by a run of steps from the empty scene on. A step may fail; the next one then starts
from what is left. Besides the operations of a scene there is a step that changes one manager in any
way whatever, which is what a holder of the manager can do.
-/

namespace SceneLighting.Scene

variable {α : Type} [Scalar α]

/-- One use of a scene. -/
inductive Step (α : Type) where
  | add (parent : NodeKey) (name : String) (content : Content α)
  | erase (key : NodeKey)
  | setTransform (key : NodeKey) (matrix : Mat4 α)
  | modifySource (key : NodeKey) (f : LightSource α → LightSource α)
  | decorate (key : NodeKey)
  | attach (key managerNode : NodeKey)
  | beginFrame
  | drawList (camera : Camera α)
  /-- Change the manager of a manager node by hand. -/
  | onManager (key : NodeKey) (f : Manager α → Manager α)

/-- The scene after a step, whether the step answered or failed. -/
def Step.apply (scene : Scene α) : Step α → Scene α
  | .add parent name content  => (Scene.add parent name content scene).state
  | .erase key                => (Scene.erase key scene).state
  | .setTransform key matrix  => (Scene.setTransform key matrix scene).state
  | .modifySource key f       => (Scene.modifySource key f scene).state
  | .decorate key             => (Scene.decorate key scene).state
  | .attach key managerNode   => (Scene.attach key managerNode scene).state
  | .beginFrame               => (Scene.beginFrame scene).state
  | .drawList camera          => (Scene.drawList camera scene).state
  | .onManager key f          => (Scene.onManager key (.modify f) scene).state

/-- Whether a step leaves the managers to the scene. -/
def Step.IsByScene : Step α → Prop
  | .onManager _ _ => False
  | _              => True

/-- The scene after a run. -/
def after (run : List (Step α)) : Scene α :=
  run.foldl Step.apply new

@[simp] lemma after_nil : after ([] : List (Step α)) = new :=
  rfl

@[simp] lemma after_concat (run : List (Step α)) (step : Step α) :
    after (run ++ [step]) = step.apply (after run) := by
  simp [after]

/-- A lamp and a table in one hall, at the beginning of the first frame. -/
def hall : List (Step Float32) :=
  [.add ⟨1, 1⟩ "hall" (.manager .standard), .add ⟨2, 1⟩ "lamp" (.light ⟨.standard, 2⟩),
    .add ⟨2, 1⟩ "table" (.drawable ⟨⟨1, 0, 0⟩, 1⟩), .beginFrame]

/-- A hall with a stand that is moved, where a lamp and a table are and a niche with a manager of
its own. A lantern and a bench come after it, and a loft that is out of reach of all lights. -/
def house : List (Step Float32) :=
  [.add ⟨1, 1⟩ "hall" (.manager .standard),
    .add ⟨2, 1⟩ "stand" (.transform (Mat4.translation ⟨4, 0, 0⟩)),
    .add ⟨3, 1⟩ "lamp" (.light ⟨.standard, 2⟩), .add ⟨3, 1⟩ "niche" (.manager .standard),
    .add ⟨5, 1⟩ "candle" (.light ⟨.standard, 1⟩),
    .add ⟨5, 1⟩ "statue" (.drawable ⟨⟨0, 1, 0⟩, 1⟩), .add ⟨3, 1⟩ "table" (.drawable ⟨0, 1⟩),
    .add ⟨2, 1⟩ "lantern" (.light ⟨.standard, 1⟩),
    .add ⟨2, 1⟩ "bench" (.drawable ⟨⟨0, 0, 2⟩, 1⟩),
    .add ⟨2, 1⟩ "loft" (.transform (Mat4.translation ⟨0, 9, 0⟩)),
    .add ⟨11, 1⟩ "chest" (.drawable ⟨0, 1⟩), .beginFrame]

variable {scene : Scene α}

omit [Scalar α] in
theorem WellFormed.onManager (h : scene.WellFormed) {β : Type} (key : NodeKey)
    (act : Action (Manager α) β) : (onManager key act scene).state.WellFormed := by
  rw [Scene.onManager]
  split
  · exact h.withManagers (R := fun _ _ => True) (.modify (fun _ => trivial) fun _ _ => trivial)
  · exact h

theorem WellFormed.apply (h : scene.WellFormed) (step : Step α) :
    (step.apply scene).WellFormed := by
  cases step with
  | add => exact h.add _ _ _
  | erase => exact h.erase _
  | setTransform => exact h.setTransform _ _
  | modifySource => exact h.modifySource _ _
  | decorate => exact h.decorate _
  | attach => exact h.attach _ _
  | beginFrame => exact h.beginFrame
  | drawList => exact h.drawList _
  | onManager => exact h.onManager _ _

/-- Every run leaves a well-formed scene. -/
theorem wellFormed_after (run : List (Step α)) : (after run).WellFormed := by
  induction run using List.reverseRecOn with
  | nil => exact wellFormed_new
  | append_singleton run step ih => exact after_concat run step ▸ ih.apply step

end SceneLighting.Scene
