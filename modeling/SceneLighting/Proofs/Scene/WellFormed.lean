import SceneLighting.Proofs.Scene.Edit
import SceneLighting.Proofs.Scene.Forest
import SceneLighting.Proofs.Scene.Managers

/-!
# Well-formed scenes

The links of a well-formed scene agree with each other and make a tree, and its managers are those
of its manager nodes. The empty scene is well formed, and whatever is done to a well-formed scene
leaves one, whether it answers or fails.
-/

namespace SceneLighting.Scene

variable {α : Type}

/-- The links make a tree below the root, and each manager has its node. -/
structure WellFormed (scene : Scene α) : Prop where
  nodes : scene.nodes.Valid
  managers : scene.managers.Valid
  tree : Shape.IsTree (Nodes.shapes scene.nodes) scene.root
  owners : Shape.OwnsManagers (Nodes.shapes scene.nodes) fun m => (scene.managers.get? m).isSome

variable {scene : Scene α}

/-- The empty scene has a root and nothing else. -/
lemma get?_nodes_new (key : NodeKey) : (new : Scene α).nodes.get? key =
    if key = (new : Scene α).root then some ⟨"root", .group, none, [], none⟩ else none := by
  have hinsert := SlotMap.valid_empty.get?_insert (⟨"root", .group, none, [], none⟩ : Node α) key
  rw [SlotMap.get?_empty] at hinsert
  exact hinsert

theorem wellFormed_new : (new : Scene α).WellFormed := by
  have hs : Nodes.shapes (new : Scene α).nodes = Shape.single (new : Scene α).root := by
    funext key
    rw [Nodes.shapes, get?_nodes_new, Shape.single]
    split <;> rfl
  refine ⟨SlotMap.valid_empty.insert _, SlotMap.valid_empty, ?_, ?_⟩
  · exact hs ▸ Shape.isTree_single _
  · exact hs ▸ Shape.ownsManagers_single fun m => by simp [new]

/-- What changes no shape and adds or removes no manager keeps a scene well formed. -/
lemma WellFormed.congr (h : scene.WellFormed) {scene' : Scene α} (hn : scene'.nodes.Valid)
    (hm : scene'.managers.Valid) (hs : Nodes.shapes scene'.nodes = Nodes.shapes scene.nodes)
    (hlive : ∀ m, (scene'.managers.get? m).isSome = (scene.managers.get? m).isSome)
    (hroot : scene'.root = scene.root) : scene'.WellFormed where
  nodes := hn
  managers := hm
  tree := by
    rw [hs, hroot]
    exact h.tree
  owners := by
    simp only [hs, hlive]
    exact h.owners

lemma shapes_modify {nodes : Nodes α} {key : NodeKey} {f : Node α → Node α}
    (h : ∀ node, nodes.get? key = some node → (f node).shape = node.shape) :
    Nodes.shapes (nodes.modify key f) = Nodes.shapes nodes := by
  funext k
  exact SlotMap.map_get?_modify h k

/-! ### Nodes whose shape stays -/

@[simp] lemma shapes_withSelector (nodes : Nodes α) (manager : ManagerKey) (key : NodeKey) :
    Nodes.shapes (withSelector nodes manager key) = Nodes.shapes nodes :=
  shapes_modify fun _ _ => rfl

lemma WellFormed.withKind (h : scene.WellFormed) {key : NodeKey} {node : Node α} {kind : Kind α}
    (hnode : scene.node? key = some node)
    (hk : ({ node with kind } : Node α).shape = node.shape) :
    (scene.withKind key kind).WellFormed := by
  refine h.congr (h.nodes.modify _ _) h.managers (shapes_modify fun node' hn => ?_)
    (fun _ => rfl) rfl
  obtain rfl : node = node' := by simpa [node?, hn] using hnode.symm
  exact hk

lemma WellFormed.withManagers (h : scene.WellFormed) {R : Manager α → Manager α → Prop}
    {managers : Managers α} (hm : Managers.Evolve R scene.managers managers) :
    ({ scene with managers } : Scene α).WellFormed :=
  h.congr h.nodes (hm.valid h.managers) rfl hm.isSome_eq rfl

lemma WellFormed.withDecoration (h : scene.WellFormed) (manager : ManagerKey)
    (keys : List NodeKey) : (scene.withDecoration manager keys).WellFormed := by
  have hnodes : ∀ (keys : List NodeKey) (nodes : Nodes α), nodes.Valid →
      (keys.foldl (fun nodes key => withSelector nodes manager key) nodes).Valid ∧
      Nodes.shapes (keys.foldl (fun nodes key => withSelector nodes manager key) nodes) =
        Nodes.shapes nodes := by
    intro keys
    induction keys with
    | nil => exact fun nodes hv => ⟨hv, rfl⟩
    | cons key keys ih =>
      intro nodes hv
      obtain ⟨hv', hs⟩ := ih (withSelector nodes manager key) (hv.modify _ _)
      exact ⟨hv', by rw [List.foldl_cons, hs, shapes_withSelector]⟩
  obtain ⟨hv, hs⟩ := hnodes keys scene.nodes h.nodes
  refine h.congr hv (h.managers.modify _ _) hs (fun m => ?_) rfl
  simp only [Scene.withDecoration, SlotMap.get?_modify]
  split <;> simp [*]

/-! ### A node more -/

lemma shapes_withNode (hv : scene.nodes.Valid) {parent : NodeKey} {node : Node α}
    (hp : scene.node? parent = some node) (name : String) (kind : Kind α) :
    Nodes.shapes (scene.withNode parent name kind).nodes =
      Shape.withLeaf (Nodes.shapes scene.nodes) scene.nodes.nextKey parent
        (Node.shape ⟨name, kind, some parent, [], none⟩) := by
  have hne : parent ≠ scene.nodes.nextKey := by
    rintro rfl
    simp [node?, hv.get?_nextKey] at hp
  funext key
  simp only [Nodes.shapes, withNode, Shape.withLeaf, SlotMap.get?_modify, hv.get?_insert,
    if_neg hne]
  by_cases hk : key = parent
  · subst hk
    rw [node?] at hp
    simp [hne, hp, Shape.adopting, Node.shape, Node.isDrawable, Node.owned]
  · by_cases hn : key = scene.nodes.nextKey
    · rw [if_neg hk, if_pos hn, if_pos hn, Option.map_some]
    · simp only [if_neg hk, if_neg hn, Option.map_map]
      congr 1
      funext node
      simp [Shape.adopting, hk]

theorem WellFormed.add (h : scene.WellFormed) (parent : NodeKey) (name : String)
    (content : Content α) : (add parent name content scene).state.WellFormed := by
  obtain hf | ⟨node, kind, managers, hp, hd, hc, ho⟩ := add_cases parent name content scene
  · rw [hf.state_eq]
    exact h
  rw [ho]
  have hnew : Nodes.shapes scene.nodes scene.nodes.nextKey = none := by
    simp [Nodes.shapes, h.nodes.get?_nextKey]
  have hshapes : Nodes.shapes ({ scene with managers }.withNode parent name kind).nodes =
      Shape.withLeaf (Nodes.shapes scene.nodes) scene.nodes.nextKey parent
        (Node.shape ⟨name, kind, some parent, [], none⟩) :=
    shapes_withNode h.nodes hp name kind
  have htree : Shape.IsTree (Shape.withLeaf (Nodes.shapes scene.nodes) scene.nodes.nextKey parent
      (Node.shape ⟨name, kind, some parent, [], none⟩)) scene.root :=
    h.tree.withLeaf hnew (Forest.shapes_of_get? hp) hd rfl rfl
  obtain ⟨rfl, hkind⟩ | ⟨settings, -, rfl, rfl⟩ := realize_eq_ok hc
  · have howned : ∀ m, Node.owned ⟨name, kind, some parent, [], none⟩ ≠ some m := fun m => by
      cases kind <;> simp_all [Node.owned]
    refine ⟨(h.nodes.insert _).modify _ _, h.managers, hshapes ▸ htree, ?_⟩
    rw [hshapes]
    refine h.owners.withLeaf hnew (fun m => ?_) fun m hm => absurd hm (howned m)
    simp [Node.shape, howned m, withNode]
  · refine ⟨(h.nodes.insert _).modify _ _, h.managers.insert _, hshapes ▸ htree, ?_⟩
    rw [hshapes]
    refine h.owners.withLeaf hnew (fun m => ?_) fun m hm => ?_
    · simp only [withNode, h.managers.get?_insert, Node.shape, Node.owned, Option.some.injEq]
      by_cases hm : m = scene.managers.nextKey <;> simp [hm, Ne.symm]
    · obtain rfl : scene.managers.nextKey = m := by simpa [Node.shape, Node.owned] using hm
      simp [h.managers.get?_nextKey]

/-! ### A subtree less -/

lemma mem_ownedManagers {gone : List (NodeKey × Node α)} {m : ManagerKey} :
    m ∈ ownedManagers gone ↔ ∃ key node, (key, node) ∈ gone ∧ node.owned = some m := by
  have hgone : ownedManagers gone = gone.filterMap fun e => e.2.owned := rfl
  simp [hgone]

lemma get?_unlink (nodes : Nodes α) (key : NodeKey) (parent : Option NodeKey) (k : NodeKey) :
    (unlink nodes key parent).get? k = (nodes.get? k).map fun node =>
      if some k = parent then { node with children := node.children.filter (· ≠ key) }
      else node := by
  cases parent with
  | none => simp [unlink]
  | some p =>
    rw [unlink, SlotMap.get?_modify]
    by_cases hk : k = p <;> simp [hk]

lemma shapes_withoutTree (scene : Scene α) (key : NodeKey) (node : Node α) :
    Nodes.shapes (scene.withoutTree key node).nodes =
      Shape.withoutSubtree (Nodes.shapes scene.nodes) (Forest.ofKeys scene.nodes [key]).keys
        node.parent key := by
  funext k
  have hgone : k ∈ (Forest.ofKeys scene.nodes [key]).lastFirst.map Prod.fst ↔
      k ∈ (Forest.ofKeys scene.nodes [key]).keys := by
    simp only [Forest.keys, List.mem_map, Forest.mem_lastFirst]
  simp only [Nodes.shapes, withoutTree, SlotMap.get?_foldl_erase, Shape.withoutSubtree, hgone]
  by_cases hk : k ∈ (Forest.ofKeys scene.nodes [key]).keys
  · simp [hk]
  · rw [if_neg hk, if_neg hk, get?_unlink, Option.map_map, Option.map_map]
    congr 1
    funext n
    by_cases hp : some k = node.parent
    · simp [Shape.disowning, hp, Node.shape, Node.isDrawable, Node.owned]
    · simp [Shape.disowning, hp]

lemma WellFormed.isSubtree (h : scene.WellFormed) {key : NodeKey} {node : Node α}
    (hnode : scene.node? key = some node) :
    Shape.IsSubtree (Nodes.shapes scene.nodes) key (Forest.ofKeys scene.nodes [key]).keys := by
  have hs := Forest.shapes_of_get? hnode
  have hspans : Forest.Spans scene.nodes [key] _ :=
    Forest.spans_ofKeys h.tree (Shape.abreast_single (by simp [hs]))
  constructor
  case top_mem => exact hspans.subset_keys (by simp)
  case down =>
    intro k s c hk ht hc
    obtain ⟨n, hn, rfl⟩ := Forest.exists_of_shapes ht
    exact hspans.mem_keys_of_child (hspans.mem_preorder hk hn) hc
  case up =>
    intro c hc hne
    obtain hc | ⟨k, n, hk, hc⟩ := hspans.exists_parent hc
    · exact absurd (by simpa using hc) hne
    · exact ⟨k, n.shape, List.mem_map_of_mem hk, Forest.shapes_of_get? (hspans.get?_of_mem hk), hc⟩

/-- The managers that go with a subtree are those that its nodes own. -/
lemma mem_ownedManagers_iff {keys : List NodeKey} {forest : Forest α}
    (h : Forest.Spans scene.nodes keys forest) {m : ManagerKey} :
    m ∈ ownedManagers forest.lastFirst ↔
      ∃ k s, k ∈ forest.keys ∧ Nodes.shapes scene.nodes k = some s ∧ s.owned = some m := by
  simp only [mem_ownedManagers, Forest.mem_lastFirst]
  constructor
  · rintro ⟨k, n, hk, hn⟩
    exact ⟨k, n.shape, List.mem_map_of_mem hk, Forest.shapes_of_get? (h.get?_of_mem hk), hn⟩
  · rintro ⟨k, s, hk, hs, hm⟩
    obtain ⟨n, hn, rfl⟩ := Forest.exists_of_shapes hs
    exact ⟨k, n, h.mem_preorder hk hn, hm⟩

lemma Valid.unlink {nodes : Nodes α} (h : nodes.Valid) (key : NodeKey)
    (parent : Option NodeKey) : (unlink nodes key parent).Valid := by
  cases parent with
  | none => exact h
  | some p => exact h.modify _ _

theorem WellFormed.erase (h : scene.WellFormed) (key : NodeKey) :
    (erase key scene).state.WellFormed := by
  obtain hf | ⟨node, hroot, hnode, ho⟩ := erase_cases key scene
  · rw [hf.state_eq]
    exact h
  rw [ho]
  have hsub := h.isSubtree hnode
  have hspans : Forest.Spans scene.nodes [key] (Forest.ofKeys scene.nodes [key]) :=
    Forest.spans_ofKeys h.tree (Shape.abreast_single (by simp [Forest.shapes_of_get? hnode]))
  refine ⟨(Valid.unlink h.nodes _ _).foldl_erase _, h.managers.foldl_erase _, ?_, ?_⟩
  · rw [shapes_withoutTree]
    exact h.tree.withoutSubtree hsub hroot (Forest.shapes_of_get? hnode)
  · rw [shapes_withoutTree]
    apply h.owners.withoutSubtree
    intro m
    have hgone := mem_ownedManagers_iff hspans (m := m)
    simp only [withoutTree, SlotMap.get?_foldl_erase]
    by_cases hm : m ∈ ownedManagers (Forest.ofKeys scene.nodes [key]).lastFirst
    · rw [if_pos hm, Option.isSome_none]
      exact ⟨fun hl => by simp at hl, fun hl => absurd (hgone.1 hm) hl.2⟩
    · rw [if_neg hm]
      exact ⟨fun hl => ⟨hl, fun hg => hm (hgone.2 hg)⟩, And.left⟩

/-! ### Every operation -/

theorem WellFormed.setTransform (h : scene.WellFormed) (key : NodeKey) (matrix : Mat4 α) :
    (setTransform key matrix scene).state.WellFormed := by
  obtain hf | ⟨node, old, hnode, hkind, ho⟩ := setTransform_cases key matrix scene
  · rw [hf.state_eq]
    exact h
  · rw [ho]
    exact h.withKind hnode (by simp [Node.shape, Node.isDrawable, Node.owned, hkind])

theorem WellFormed.modifySource (h : scene.WellFormed) (key : NodeKey)
    (f : LightSource α → LightSource α) : (modifySource key f scene).state.WellFormed := by
  obtain ho | ⟨node, source, hnode, hkind, ho⟩ := modifySource_cases key f scene
  · rw [ho]
    exact h
  · rw [ho]
    exact h.withKind hnode (by simp [Node.shape, Node.isDrawable, Node.owned, hkind])

theorem WellFormed.decorate (h : scene.WellFormed) (key : NodeKey) :
    (decorate key scene).state.WellFormed := by
  obtain hf | ⟨node, managerKey, manager, -, -, -, ho⟩ := decorate_cases key scene
  · rw [hf.state_eq]
    exact h
  · rw [ho]
    split
    · exact h
    · exact h.withDecoration _ _

theorem WellFormed.attach (h : scene.WellFormed) (key managerNode : NodeKey) :
    (attach key managerNode scene).state.WellFormed := by
  obtain hf | ⟨node, target, manager, -, -, -, ho⟩ := attach_cases key managerNode scene
  · rw [hf.state_eq]
    exact h
  · rw [ho]
    exact h.congr (h.nodes.modify _ _) h.managers (shapes_withSelector _ _ _) (fun _ => rfl) rfl

variable [Scalar α]

lemma keeps_collect_managers (forest : Forest α) (world : Mat4 α) (owner : Option ManagerKey) :
    Action.Keeps (Managers.Evolve fun _ _ => True) (forest.collect world owner) :=
  Forest.keeps_collect (fun _ => trivial) (fun _ _ _ _ _ => trivial) (fun _ => trivial)
    (fun _ _ _ _ => trivial) _ _ _

theorem WellFormed.beginFrame (h : scene.WellFormed) : (beginFrame scene).state.WellFormed := by
  have refl : ∀ s : Scene α, s.WellFormed → s.WellFormed := fun _ => id
  have trans : ∀ s t u : Scene α, (s.WellFormed → t.WellFormed) →
      (t.WellFormed → u.WellFormed) → s.WellFormed → u.WellFormed :=
    fun _ _ _ hst htu => htu ∘ hst
  have hkeeps : Action.Keeps (fun s t : Scene α => s.WellFormed → t.WellFormed)
      Scene.beginFrame := by
    refine .bind trans refl fun scene => .bind trans ?_ fun pending => ?_
    · exact .on (keeps_collect_managers _ _ _) fun s managers hm hs => hs.withManagers hm
    · refine .forM refl trans fun key _ => .bind trans (fun s hs => hs.decorate key) fun _ => refl
  exact hkeeps scene h

/-- Drawing a scene adds and removes no managers, and changes nothing else. -/
lemma exists_drawList_managers (camera : Camera α) (scene : Scene α) : ∃ managers,
    (drawList camera scene).state = { scene with managers } ∧
      Managers.Evolve (fun _ _ => True) scene.managers managers :=
  exists_drawList_state (fun _ => trivial) (fun _ _ _ _ _ => trivial) (fun _ _ _ => trivial) scene

theorem WellFormed.drawList (h : scene.WellFormed) (camera : Camera α) :
    (drawList camera scene).state.WellFormed := by
  obtain ⟨managers, hs, hm⟩ := exists_drawList_managers camera scene
  rw [hs]
  exact h.withManagers hm

end SceneLighting.Scene
