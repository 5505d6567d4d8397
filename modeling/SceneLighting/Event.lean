import SceneLighting.Fault
import SceneLighting.Log.Entry
import SceneLighting.Manager.Fingerprint

/-!
# Events

What operations report while they run, and the log entry of each report.
-/

namespace SceneLighting

/-- The parts of the library that report events. -/
inductive Part where
  | settings
  | manager
  | selection
  | scene
  | collection
  | culling
  deriving DecidableEq

/-- The source that a part's entries carry. -/
def Part.source : Part → String
  | .settings   => "lumen::LightManagerConfig"
  | .manager    => "lumen::LightManager"
  | .selection  => "lumen::LightSelector"
  | .scene      => "lumen::SceneGraph"
  | .collection => "lumen::UpdateVisitor"
  | .culling    => "lumen::CullVisitor"

inductive Event where
  /-- A manager began a frame. -/
  | frameBegun (number : Nat)
  /-- More lights touch a node than the cap allows. -/
  | truncated (touching cap : Nat)
  /-- A list of lights has the fingerprint of a different one that was asked for before. -/
  | collided (fingerprint : Fingerprint) (indices : List Nat)
  /-- A manager was attached to the nodes that it lights. -/
  | decorated (name : String) (count : Nat)
  /-- An operation failed. -/
  | failed (part : Part) (fault : Fault)
  deriving DecidableEq

namespace Event

/-- The written form of a list of indices, such as `[0, 4]`. -/
def indicesText (indices : List Nat) : String :=
  "[" ++ ", ".intercalate (indices.map fun index => s!"{index}") ++ "]"

/-- The log entry of an event. Only failures tell where they were found. -/
def entry : Event → Log.Entry
  | .frameBegun number =>
    ⟨.trace, Part.source .manager, s!"Frame {number} reset", none⟩
  | .truncated touching cap =>
    ⟨.debug, Part.source .selection,
      s!"{touching} lights touch the node, keeping the first {cap}", none⟩
  | .collided fingerprint indices =>
    let indices := indicesText indices
    ⟨.warn, Part.source .manager,
      s!"Combination key {fingerprint.text} collides for {indices}, building uncached", none⟩
  | .decorated name count =>
    ⟨.info, Part.source .scene,
      s!"LightManager '{name}' decorated with {count} light selectors", none⟩
  | .failed part fault =>
    ⟨.error, part.source, fault.message, some .here⟩

end Event

end SceneLighting
