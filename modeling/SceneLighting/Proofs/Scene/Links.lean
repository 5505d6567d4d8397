import SceneLighting.Proofs.Scene.Path
import SceneLighting.Proofs.Scene.Run

/-!
# How the nodes of a scene hang together

What is kept in order by all operations, told of the nodes themselves. Traversals rely on it: they
follow the links from the root, and reach every node of the scene, each once.
-/

namespace SceneLighting

variable {α : Type}

lemma Node.owned_eq_some {node : Node α} {m : ManagerKey} :
    node.owned = some m ↔ node.kind = .manager m := by
  cases h : node.kind <;> simp [owned, h]

namespace Scene

/-- The links between nodes agree, a walk along them reaches every node once, and managers and
manager nodes come in pairs. -/
structure Linked (scene : Scene α) : Prop where
  root : ∃ node, scene.node? scene.root = some node ∧ node.parent = none
  /-- Every other node is a child of its parent, once, and of no other node. -/
  parent : ∀ key node, scene.node? key = some node → key ≠ scene.root →
    ∃ p parent, node.parent = some p ∧ scene.node? p = some parent ∧
      parent.children.count key = 1 ∧
      ∀ q other, scene.node? q = some other → key ∈ other.children → q = p
  child : ∀ key node, scene.node? key = some node → ∀ c ∈ node.children,
    ∃ child, scene.node? c = some child ∧ child.parent = some key
  drawable : ∀ key node, scene.node? key = some node → node.isDrawable → node.children = []
  /-- The tree of the scene follows all links, to the end. -/
  spans : Forest.Spans scene.nodes [scene.root] scene.tree
  count_keys : ∀ key, scene.tree.keys.count key = if (scene.node? key).isSome then 1 else 0
  managed : ∀ key node m, scene.node? key = some node → node.kind = .manager m →
    (scene.managers.get? m).isSome
  /-- Every manager is that of one node only. -/
  owner : ∀ m, (scene.managers.get? m).isSome →
    ∃! key, ∃ node, scene.node? key = some node ∧ node.kind = .manager m

variable {scene : Scene α}

/-- A node that is not the root is a child of its parent alone. -/
lemma WellFormed.exists_parent (h : scene.WellFormed) {key : NodeKey} {node : Node α}
    (hnode : scene.node? key = some node) (hroot : key ≠ scene.root) :
    ∃ p parent, node.parent = some p ∧ scene.node? p = some parent ∧
      parent.children.count key = 1 ∧
      ∀ q other, scene.node? q = some other → key ∈ other.children → q = p := by
  obtain ⟨p, s, hp, hs, hc⟩ := h.tree.up (Forest.shapes_of_get? hnode) hroot
  obtain ⟨parent, hparent, rfl⟩ := Forest.exists_of_shapes hs
  refine ⟨p, parent, hp, hparent, List.count_eq_one_of_mem (h.tree.nodup hs) hc, ?_⟩
  intro q other hother hkey
  exact h.tree.eq_of_mem_children (Forest.shapes_of_get? hother) hs hkey hc

lemma WellFormed.exists_child (h : scene.WellFormed) {key c : NodeKey} {node : Node α}
    (hnode : scene.node? key = some node) (hc : c ∈ node.children) :
    ∃ child, scene.node? c = some child ∧ child.parent = some key := by
  obtain ⟨s, hs, hparent⟩ := h.tree.down (Forest.shapes_of_get? hnode) hc
  obtain ⟨child, hchild, rfl⟩ := Forest.exists_of_shapes hs
  exact ⟨child, hchild, hparent⟩

/-- The walk from the root meets what is there, once. -/
lemma WellFormed.count_keys (h : scene.WellFormed) (key : NodeKey) :
    scene.tree.keys.count key = if (scene.node? key).isSome then 1 else 0 := by
  have hmem : key ∈ scene.tree.keys ↔ (scene.node? key).isSome :=
    h.keys_perm.mem_iff.trans SlotMap.mem_keys_iff
  rw [h.nodup_keys.count]
  simp only [hmem]

lemma WellFormed.isSome_of_kind (h : scene.WellFormed) {key : NodeKey} {node : Node α}
    {m : ManagerKey} (hnode : scene.node? key = some node) (hkind : node.kind = .manager m) :
    (scene.managers.get? m).isSome :=
  h.owners.owned (Forest.shapes_of_get? hnode) (Node.owned_eq_some.2 hkind)

lemma WellFormed.existsUnique_owner (h : scene.WellFormed) {m : ManagerKey}
    (hm : (scene.managers.get? m).isSome) :
    ∃! key, ∃ node, scene.node? key = some node ∧ node.kind = .manager m := by
  obtain ⟨key, s, hs, howned⟩ := h.owners.owner hm
  obtain ⟨node, hnode, rfl⟩ := Forest.exists_of_shapes hs
  refine ⟨key, ⟨node, hnode, Node.owned_eq_some.1 howned⟩, ?_⟩
  rintro key' ⟨node', hnode', hkind'⟩
  exact h.owners.unique (Forest.shapes_of_get? hnode') hs (Node.owned_eq_some.2 hkind') howned

theorem WellFormed.linked (h : scene.WellFormed) : scene.Linked where
  root := by
    obtain ⟨s, hs, hparent⟩ := h.tree.root_parent
    obtain ⟨node, hnode, rfl⟩ := Forest.exists_of_shapes hs
    exact ⟨node, hnode, hparent⟩
  parent _ _ := h.exists_parent
  child _ _ hnode _ := h.exists_child hnode
  drawable _ _ hnode := h.tree.drawable (Forest.shapes_of_get? hnode)
  spans := h.spans
  count_keys := h.count_keys
  managed _ _ _ := h.isSome_of_kind
  owner _ := h.existsUnique_owner

/-- After any run, the nodes hang together. -/
theorem linked_after [Scalar α] (run : List (Step α)) : (after run).Linked :=
  (wellFormed_after run).linked

end Scene

end SceneLighting
