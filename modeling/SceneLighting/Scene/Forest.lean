import SceneLighting.Scene.Node
import SceneLighting.Slot.Map

/-!
# Forests

The nodes below a node, or below several, as the links between them unfold to a tree. What goes
through the scene recurses on a forest.
-/

namespace SceneLighting

/-- The nodes of a scene. -/
abbrev Nodes (α : Type) := SlotMap .node (Node α)

/-- The trees that begin at a list of nodes, in order. -/
inductive Forest (α : Type) where
  | nil
  /-- A link that leads to no node. -/
  | lost (key : NodeKey) (rest : Forest α)
  | tree (key : NodeKey) (node : Node α) (children rest : Forest α)

namespace Forest

variable {α : Type}

/-- Follow the links from `keys` on, `depth` of them one after another at most. -/
def unfold (nodes : Nodes α) : (depth : Nat) → List NodeKey → Forest α
  | 0, _           => .nil
  | depth + 1, keys =>
    keys.foldr
      (fun key rest =>
        match nodes.get? key with
        | none      => .lost key rest
        | some node => .tree key node (unfold nodes depth node.children) rest)
      .nil

/-- The trees that begin at `keys`. No path has more nodes than there are, so none is cut off. -/
def ofKeys (nodes : Nodes α) (keys : List NodeKey) : Forest α :=
  unfold nodes nodes.size keys

/-- All nodes, each before its children. -/
def preorder : Forest α → List (NodeKey × Node α)
  | .nil                         => []
  | .lost _ rest                 => rest.preorder
  | .tree key node children rest => (key, node) :: (children.preorder ++ rest.preorder)

/-- All nodes, each before its children, trees and children from the last to the first. -/
def lastFirst : Forest α → List (NodeKey × Node α)
  | .nil                         => []
  | .lost _ rest                 => rest.lastFirst
  | .tree key node children rest => rest.lastFirst ++ (key, node) :: children.lastFirst

/-- Whether one of the trees is a single drawable. -/
def hasDrawable : Forest α → Bool
  | .nil                => false
  | .lost _ rest        => rest.hasDrawable
  | .tree _ node _ rest => node.isDrawable || rest.hasDrawable

variable [Scalar α]

/-- A bound about `start` and the trees, one after another. -/
def boundFrom (start : Sphere α) : Forest α → Sphere α
  | .nil                        => start
  | .lost _ rest                => rest.boundFrom start
  | .tree _ node children rest =>
    let own := node.outward (node.bound (children.boundFrom .invalid))
    rest.boundFrom (start.enclose own)

/-- The bound of the trees, in the space of their parent. -/
def bound (forest : Forest α) : Sphere α :=
  forest.boundFrom .invalid

end Forest

end SceneLighting
