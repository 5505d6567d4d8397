import SceneLighting.Proofs.Scene.WellFormed

/-!
# Paths

The path of a node is the node with all nodes above it, found by going up from parent to parent.
Traversals go down from the root instead. In a well-formed scene the nodes they meet, in order, are
the nodes of the tree, and on the way to each they have gone through its path.
-/

namespace SceneLighting

/-- A node and the nodes above it, the nearest first. -/
abbrev Path (α : Type) := List (NodeKey × Node α)

variable {α : Type}

namespace Node

/-- The matrix of a transform. Other nodes have none. -/
def transform? (node : Node α) : Option (Mat4 α) :=
  match node.kind with
  | .transform matrix => some matrix
  | _                 => none

/-- Only transforms move what is below them. -/
lemma matrix_eq [Scalar α] (node : Node α) : node.matrix = node.transform?.getD 1 := by
  cases h : node.kind <;> simp [matrix, transform?, h]

end Node

namespace Path

/-- The manager of the nearest manager node. -/
def owner (path : Path α) : Option ManagerKey :=
  path.findSome? fun (_, node) => node.owned

@[simp] lemma owner_nil : owner ([] : Path α) = none :=
  rfl

lemma owner_cons (key : NodeKey) (node : Node α) (above : Path α) :
    owner ((key, node) :: above) = node.owned.or (owner above) := by
  cases h : node.owned <;> simp [owner, h]

variable [Scalar α]

/-- From the space of the last node to that of the world: for each node, from the root on, the
matrix of a transform or else the identity, multiplied to the identity. -/
def world (path : Path α) : Mat4 α :=
  (path.reverse.map fun (_, node) => node.transform?.getD 1).foldl (· * ·) 1

/-- From the space of the last node to that of a camera: the matrices of the transforms alone, from
the root on, multiplied to the matrix of the camera. -/
def modelView (path : Path α) (view : Mat4 α) : Mat4 α :=
  (path.reverse.filterMap fun (_, node) => node.transform?).foldl (· * ·) view

@[simp] lemma world_nil : world ([] : Path α) = 1 :=
  rfl

lemma world_cons (key : NodeKey) (node : Node α) (above : Path α) :
    world ((key, node) :: above) = above.world * node.matrix := by
  simp [world, Node.matrix_eq]

@[simp] lemma modelView_nil (view : Mat4 α) : modelView ([] : Path α) view = view :=
  rfl

lemma modelView_cons (key : NodeKey) (node : Node α) (above : Path α) (view : Mat4 α) :
    modelView ((key, node) :: above) view =
      node.transform?.elim (above.modelView view) (above.modelView view * ·) := by
  cases h : node.transform? <;> simp [modelView, h]

end Path

namespace Forest

/-- The paths of all nodes, each before those of its children. The trees stand below `above`. -/
def paths : Forest α → Path α → List (Path α)
  | .nil, _ => []
  | .lost _ rest, above => rest.paths above
  | .tree key node children rest, above =>
    ((key, node) :: above) :: (children.paths ((key, node) :: above) ++ rest.paths above)

lemma head?_paths (forest : Forest α) (above : Path α) :
    (forest.paths above).map List.head? = forest.preorder.map some := by
  induction forest generalizing above with
  | nil => rfl
  | lost _ rest ih => exact ih above
  | tree key node children rest ihc ihr => simp [paths, preorder, ihc, ihr]

lemma length_paths_le (forest : Forest α) {above path : Path α} (h : path ∈ forest.paths above) :
    path.length ≤ above.length + forest.height := by
  induction forest generalizing above with
  | nil => simp [paths] at h
  | lost _ rest ih => exact ih h
  | tree key node children rest ihc ihr =>
    simp only [paths, List.mem_cons, List.mem_append] at h
    rcases h with rfl | h | h
    · simp only [List.length_cons, height]
      omega
    · have := ihc h
      simp only [List.length_cons] at this
      simp only [height]
      omega
    · have := ihr h
      simp only [height]
      omega

/-- Before a node is met the node above it was met. -/
theorem tail_mem_of_paths (forest : Forest α) {above : Path α} {met ahead : List (Path α)}
    (h : forest.paths above = met ++ ahead) {path : Path α} (hp : path ∈ met) :
    path.tail = above ∨ path.tail ∈ met := by
  induction forest generalizing above met ahead with
  | nil =>
    obtain rfl : met = [] := (List.append_eq_nil_iff.1 h.symm).1
    simp at hp
  | lost _ rest ih => exact ih h hp
  | tree key node children rest ihc ihr =>
    rcases met with _ | ⟨first, met⟩
    · simp at hp
    simp only [paths, List.cons_append, List.cons.injEq] at h
    obtain ⟨rfl, h⟩ := h
    rcases List.mem_cons.1 hp with rfl | hp
    · exact Or.inl rfl
    rcases List.append_eq_append_iff.1 h with ⟨more, rfl, hr⟩ | ⟨more, hc, -⟩
    · -- all children were met
      rcases List.mem_append.1 hp with hp | hp
      · have hall : children.paths ((key, node) :: above) =
            children.paths ((key, node) :: above) ++ [] := (List.append_nil _).symm
        have := ihc hall hp
        rcases this with ht | ht <;> simp [ht]
      · have := ihr hr hp
        rcases this with ht | ht <;> simp [ht]
    · have := ihc hc hp
      rcases this with ht | ht <;> simp [ht]

end Forest

/-! ### Going up -/

/-- Each node of a path is the parent of the one before it, and the last has no parent. -/
inductive Path.Climbs (nodes : Nodes α) : Path α → Prop where
  | nil : Climbs nodes []
  | cons {key : NodeKey} {node : Node α} {above : Path α} (hnode : nodes.get? key = some node)
      (hparent : node.parent = above.head?.map Prod.fst) (habove : Climbs nodes above) :
      Climbs nodes ((key, node) :: above)

/-- The nodes from one on up, from parent to parent, `steps` of them at most. -/
def climb (nodes : Nodes α) : (steps : Nat) → Option NodeKey → Path α
  | steps + 1, some key =>
    match nodes.get? key with
    | none      => []
    | some node => (key, node) :: climb nodes steps node.parent
  | _, _ => []

lemma Path.Climbs.climb_eq {nodes : Nodes α} {path : Path α} (h : path.Climbs nodes) {steps : Nat}
    (hs : path.length ≤ steps) : climb nodes steps (path.head?.map Prod.fst) = path := by
  induction h generalizing steps with
  | nil => cases steps <;> rfl
  | @cons key node above hnode hparent _ ih =>
    rcases steps with _ | steps
    · simp at hs
    · simp [climb, hnode, hparent, ih (Nat.le_of_succ_le_succ hs)]

namespace Forest

variable {nodes : Nodes α} {keys : List NodeKey} {forest : Forest α}

/-- On the way down to a node its parents are met. -/
theorem Spans.climbs (h : Spans nodes keys forest) {root : NodeKey}
    (htree : Shape.IsTree (Nodes.shapes nodes) root) {above : Path α} (ha : above.Climbs nodes)
    (hk : ∀ key ∈ keys, ∀ node, nodes.get? key = some node → node.parent = above.head?.map Prod.fst)
    {path : Path α} (hp : path ∈ forest.paths above) : path.Climbs nodes := by
  induction h generalizing above with
  | nil => simp [paths] at hp
  | @tree key keys node children rest hnode _ _ ihc ihr =>
    have hcons : Path.Climbs nodes ((key, node) :: above) :=
      .cons hnode (hk key (by simp) node hnode) ha
    simp only [paths, List.mem_cons, List.mem_append] at hp
    rcases hp with rfl | hp | hp
    · exact hcons
    · refine ihc hcons (fun c hc child hchild => ?_) hp
      obtain ⟨t, ht, hparent⟩ := htree.down (shapes_of_get? hnode) hc
      rw [shapes_of_get? hchild, Option.some.injEq] at ht
      obtain rfl := ht
      exact hparent
    · exact ihr ha (fun k hk' => hk k (by simp [hk'])) hp

end Forest

namespace Scene

variable {scene : Scene α}

/-- A node and all nodes above it. -/
def path (scene : Scene α) (key : NodeKey) : Path α :=
  climb scene.nodes scene.size (some key)

lemma key_of_path_eq {key key' : NodeKey} {node : Node α} {above : Path α}
    (h : scene.path key = (key', node) :: above) : key' = key := by
  rw [path] at h
  generalize scene.size = steps at h
  cases steps with
  | zero => simp [climb] at h
  | succ steps =>
    cases hnode : scene.nodes.get? key with
    | none => simp [climb, hnode] at h
    | some n =>
      simp only [climb, hnode, List.cons.injEq, Prod.mk.injEq] at h
      exact h.1.1.symm

/-- The paths of all nodes, in the order in which traversals meet them. -/
def paths (scene : Scene α) : List (Path α) :=
  scene.tree.paths []

lemma WellFormed.spans (h : scene.WellFormed) :
    Forest.Spans scene.nodes [scene.root] scene.tree := by
  obtain ⟨s, hs, -⟩ := h.tree.root_parent
  exact Forest.spans_ofKeys h.tree (Shape.abreast_single (by simp [hs]))

lemma WellFormed.spans_below (h : scene.WellFormed) {key : NodeKey} {node : Node α}
    (hnode : scene.node? key = some node) :
    Forest.Spans scene.nodes node.children (scene.below node) :=
  Forest.spans_ofKeys h.tree (h.tree.abreast_children (Forest.shapes_of_get? hnode))

lemma WellFormed.spans_tree (h : scene.WellFormed) {key : NodeKey} {node : Node α}
    (hnode : scene.node? key = some node) :
    Forest.Spans scene.nodes [key] (.tree key node (scene.below node) .nil) :=
  .tree hnode (h.spans_below hnode) .nil

/-- The tree below one node is that node with what is below it. -/
lemma WellFormed.ofKeys_eq (h : scene.WellFormed) {key : NodeKey} {node : Node α}
    (hnode : scene.node? key = some node) :
    Forest.ofKeys scene.nodes [key] = .tree key node (scene.below node) .nil :=
  ((h.spans_tree hnode).eq_ofKeys h.tree
    (Shape.abreast_single (by simp [Forest.shapes_of_get? hnode]))).symm

lemma WellFormed.nodup_tree (h : scene.WellFormed) {key : NodeKey} {node : Node α}
    (hnode : scene.node? key = some node) : (key :: (scene.below node).keys).Nodup := by
  have hnodup := (h.spans_tree hnode).nodup_keys h.tree
    (Shape.abreast_single (by simp [Forest.shapes_of_get? hnode]))
  rwa [Forest.keys_tree, Forest.keys_nil, List.append_nil] at hnodup

/-- What lies below a node in any spanning forest is what the scene finds below it. -/
lemma WellFormed.eq_below (h : scene.WellFormed) {key : NodeKey} {node : Node α}
    (hnode : scene.nodes.get? key = some node) {children : Forest α}
    (hc : Forest.Spans scene.nodes node.children children) : children = scene.below node :=
  hc.eq_ofKeys h.tree (h.tree.abreast_children (Forest.shapes_of_get? hnode))

/-- The tree of a scene has all its nodes. -/
theorem WellFormed.mem_preorder (h : scene.WellFormed) {key : NodeKey} {node : Node α} :
    (key, node) ∈ scene.tree.preorder ↔ scene.node? key = some node := by
  refine ⟨h.spans.get?_of_mem, fun hnode => h.spans.mem_preorder ?_ hnode⟩
  have habove := h.tree.above_root (Forest.shapes_of_get? hnode)
  exact h.spans.mem_keys_iff.2 ⟨scene.root, by simp, habove⟩

/-- The tree of a scene has no node twice. -/
theorem WellFormed.nodup_keys (h : scene.WellFormed) : scene.tree.keys.Nodup := by
  obtain ⟨s, hs, -⟩ := h.tree.root_parent
  exact h.spans.nodup_keys h.tree (Shape.abreast_single (by simp [hs]))

lemma WellFormed.climbs (h : scene.WellFormed) {path : Path α} (hp : path ∈ scene.paths) :
    path.Climbs scene.nodes := by
  refine h.spans.climbs h.tree .nil (fun key hk node hnode => ?_) hp
  obtain rfl := List.mem_singleton.1 hk
  obtain ⟨s, hs, hparent⟩ := h.tree.root_parent
  rw [Forest.shapes_of_get? hnode, Option.some.injEq] at hs
  obtain rfl := hs
  exact hparent

/-- Going up from where a path ends gives the path. -/
theorem WellFormed.path_eq (h : scene.WellFormed) {key : NodeKey} {node : Node α}
    {above : Path α} (hp : (key, node) :: above ∈ scene.paths) :
    scene.path key = (key, node) :: above := by
  obtain ⟨s, hs, -⟩ := h.tree.root_parent
  have hlength := scene.tree.length_paths_le hp
  have hheight := h.spans.height_le_size h.tree (Shape.abreast_single (by simp [hs]))
  refine (h.climbs hp).climb_eq (Nat.le_trans hlength ?_)
  rw [List.length_nil, Nat.zero_add]
  exact hheight

/-- Traversals meet the paths of the nodes of the tree, in its order. -/
theorem WellFormed.paths_eq (h : scene.WellFormed) :
    scene.paths = scene.tree.preorder.map fun (key, _) => scene.path key := by
  have hheads := scene.tree.head?_paths []
  have heads : ∀ {l : List (Path α)} {es : List (NodeKey × Node α)},
      l.map List.head? = es.map some → (∀ p ∈ l, p ∈ scene.paths) →
      l = es.map fun (key, _) => scene.path key := by
    intro l
    induction l with
    | nil => intro es he _; cases es <;> simp_all
    | cons p l ih =>
      rintro (_ | ⟨⟨key, node⟩, es⟩) he hl
      · simp at he
      · simp only [List.map_cons, List.cons.injEq] at he ⊢
        obtain ⟨above, rfl⟩ := List.head?_eq_some_iff.1 he.1
        exact ⟨(h.path_eq (hl _ (by simp))).symm, ih he.2 fun q hq => hl q (by simp [hq])⟩
  exact heads hheads fun _ => id

/-- The tree of a scene has the nodes that the store of nodes has. -/
theorem WellFormed.keys_perm (h : scene.WellFormed) : scene.tree.keys.Perm scene.nodes.keys := by
  apply (List.perm_ext_iff_of_nodup h.nodup_keys scene.nodes.nodup_keys).2
  intro key
  rw [SlotMap.mem_keys_iff]
  refine ⟨h.spans.get?_isSome, fun hs => ?_⟩
  obtain ⟨node, hnode⟩ := Option.isSome_iff_exists.1 hs
  exact List.mem_map_of_mem (h.mem_preorder.2 hnode)

/-- The nodes of which `p` holds, each before those below it and children in their order. -/
def nodesWhere (scene : Scene α) (p : Node α → Bool) : List NodeKey :=
  (scene.tree.preorder.filter fun e => p e.2).map Prod.fst

theorem WellFormed.mem_nodesWhere (h : scene.WellFormed) {p : Node α → Bool} {key : NodeKey} :
    key ∈ scene.nodesWhere p ↔ ∃ node, scene.node? key = some node ∧ p node := by
  simp [nodesWhere, h.mem_preorder]

theorem WellFormed.nodup_nodesWhere (h : scene.WellFormed) (p : Node α → Bool) :
    (scene.nodesWhere p).Nodup :=
  h.nodup_keys.sublist (List.filter_sublist.map _)

/-- They are as many as the store of nodes has. -/
lemma WellFormed.length_nodesWhere (h : scene.WellFormed) (p : Node α → Bool) :
    (scene.nodesWhere p).length =
      (scene.nodes.keys.filter fun key => (scene.node? key).any p).length := by
  rw [← (h.keys_perm.filter _).length_eq, nodesWhere, Forest.keys, List.filter_map,
    List.length_map, List.length_map]
  congr 1
  refine List.filter_congr ?_
  rintro ⟨key, node⟩ hk
  simp [h.mem_preorder.1 hk]

lemma filterMap_head?_paths (scene : Scene α) :
    scene.paths.filterMap List.head? = scene.tree.preorder := by
  have hheads : scene.paths.map List.head? = scene.tree.preorder.map some :=
    scene.tree.head?_paths []
  rw [← Function.id_comp (List.head? (α := NodeKey × Node α)), ← List.filterMap_map, hheads]
  simp [List.filterMap_map]

/-- Every node is met, on its path. -/
theorem WellFormed.exists_path (h : scene.WellFormed) {key : NodeKey} {node : Node α}
    (hnode : scene.node? key = some node) :
    ∃ above, (key, node) :: above ∈ scene.paths ∧ scene.path key = (key, node) :: above := by
  have hmem := h.mem_preorder.2 hnode
  rw [← filterMap_head?_paths] at hmem
  obtain ⟨path, hp, hhead⟩ := List.mem_filterMap.1 hmem
  obtain ⟨above, rfl⟩ := List.head?_eq_some_iff.1 hhead
  exact ⟨above, hp, h.path_eq hp⟩

lemma WellFormed.nodup_paths (h : scene.WellFormed) : scene.paths.Nodup := by
  have hheads : scene.paths.map List.head? = scene.tree.preorder.map some :=
    scene.tree.head?_paths []
  have hnodup : (scene.tree.preorder.map some).Nodup :=
    (List.Nodup.of_map _ h.nodup_keys).map fun _ _ => Option.some.inj
  exact List.Nodup.of_map _ (hheads ▸ hnodup)

end Scene

end SceneLighting
