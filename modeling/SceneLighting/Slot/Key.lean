/-!
# Keys

A key names a thing of the scene. The slot says where the thing is held, and the version which of
the things held there one after another is meant.
-/

namespace SceneLighting

/-- What a key can name. -/
inductive KeySpace where
  | node
  | manager
  deriving DecidableEq

/-- The name under which keys of a space are written. -/
def KeySpace.label : KeySpace → String
  | .node    => "NodeKey"
  | .manager => "LightManagerKey"

@[ext] structure Key (space : KeySpace) where
  /-- The number of the slot, from one on. -/
  slot : Nat
  version : Nat
  deriving DecidableEq

abbrev NodeKey := Key .node

abbrev ManagerKey := Key .manager

namespace Key

variable {space : KeySpace}

/-- The key that never names anything. -/
def null : Key space :=
  ⟨0, 0⟩

/-- The written form of a key, such as `NodeKey(3v1)`. -/
def text (key : Key space) : String :=
  let inner := if key.slot = 0 then "null" else s!"{key.slot}v{key.version}"
  s!"{space.label}({inner})"

end Key

end SceneLighting
