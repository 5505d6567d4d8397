import SceneLighting.Proofs.Scene.Nearest
import SceneLighting.Proofs.Scene.Removal

/-!
# Whom a node is to be lit by

A manager is attached to the nodes that nothing lights yet, that have a drawable child and that have
it as their nearest manager. So no two managers are attached to the same node, and who is to light a
node is settled before any of them is: attaching one of them does not change it.
-/

namespace SceneLighting

variable {α : Type}

/-- A child of the node is drawn. -/
def Shape.Carries (shapes : NodeKey → Option Shape) (key : NodeKey) : Prop :=
  ∃ s, shapes key = some s ∧ ∃ c ∈ s.children, ∃ t, shapes c = some t ∧ t.isDrawable

/-- Nothing lights the node, and a child of it is drawn. -/
def Nodes.Waits (nodes : Nodes α) (key : NodeKey) : Prop :=
  Nodes.selectors nodes key = none ∧ Shape.Carries (Nodes.shapes nodes) key

/-! ### The nodes that a manager is attached to -/

namespace Forest

variable {nodes : Nodes α} {keys : List NodeKey} {forest children : Forest α}
  {root p key k : NodeKey} {node : Node α} {m : ManagerKey}

lemma Spans.hasDrawable_iff (h : Spans nodes keys forest) :
    forest.hasDrawable ↔ ∃ c ∈ keys, ∃ t, Nodes.shapes nodes c = some t ∧ t.isDrawable := by
  induction h with
  | nil => simp [hasDrawable]
  | tree hnode _ _ _ ihr =>
    simp only [hasDrawable, Bool.or_eq_true, ihr, List.mem_cons, exists_eq_or_imp,
      shapes_of_get? hnode, Option.some.injEq, exists_eq_left']
    rfl

lemma mem_unlitTree (hnode : nodes.get? key = some node)
    (hchildren : Spans nodes node.children children) {below : List NodeKey} :
    k ∈ unlitTree key node children below ↔ k = key ∧ Nodes.Waits nodes key ∨ k ∈ below := by
  have hwaits : Nodes.Waits nodes key ↔ node.selector = none ∧ children.hasDrawable := by
    rw [Nodes.Waits, Nodes.selectors, hnode, Option.bind_some, hchildren.hasDrawable_iff,
      Shape.Carries, shapes_of_get? hnode]
    simp [Node.shape]
  rw [unlitTree, hwaits]
  cases hsel : node.selector <;> cases children.hasDrawable <;> simp

/-- Nodes are listed once, in the order of the trees. -/
lemma unlit_sublist_keys (forest : Forest α) : forest.unlit.Sublist forest.keys := by
  induction forest with
  | nil => exact .slnil
  | lost _ rest ih => exact ih
  | tree key node children rest ihc ihr =>
    rw [unlit, keys_tree]
    split
    · exact (ihr.trans (List.sublist_append_right _ _)).cons _
    · rw [unlitTree]
      split
      · exact (ihc.append ihr).cons_cons _
      · exact (ihc.append ihr).cons _

/-- A manager that is the nearest of a node of the trees is owned in the trees, or it is the
nearest of what the trees stand below. -/
lemma Spans.nearest_cases (h : Spans nodes keys forest)
    (htree : Shape.IsTree (Nodes.shapes nodes) root)
    (hparent : ∀ key ∈ keys, ∀ s, Nodes.shapes nodes key = some s → s.parent = some p)
    (hk : k ∈ forest.keys) (hm : Shape.Nearest (Nodes.shapes nodes) k m) :
    (∃ e ∈ forest.preorder, e.2.owned = some m) ∨ Shape.Nearest (Nodes.shapes nodes) p m := by
  induction hm with
  | own hs howned =>
    obtain ⟨node, hnode, rfl⟩ := exists_of_shapes hs
    exact Or.inl ⟨_, h.mem_preorder hk hnode, howned⟩
  | @up k q s m hs _ hq habove ih =>
    obtain hk | ⟨q', node, hnode, hc⟩ := h.exists_parent hk
    · obtain rfl : p = q := by simpa [hparent k hk s hs] using hq
      exact Or.inr habove
    · obtain ⟨t, ht, hq'⟩ := htree.down (shapes_of_get? (h.get?_of_mem hnode)) hc
      obtain rfl : q = q' := by simp_all
      exact ih (List.mem_map_of_mem hnode)

/-- Among the trees below a node, those listed have the same nearest manager as the node. -/
theorem Spans.mem_unlit (h : Spans nodes keys forest)
    (htree : Shape.IsTree (Nodes.shapes nodes) root)
    (hparent : ∀ key ∈ keys, ∀ s, Nodes.shapes nodes key = some s → s.parent = some p)
    (hp : Shape.Nearest (Nodes.shapes nodes) p m)
    (hfree : ∀ e ∈ forest.preorder, e.2.owned ≠ some m) :
    k ∈ forest.unlit ↔
      k ∈ forest.keys ∧ Nodes.Waits nodes k ∧ Shape.Nearest (Nodes.shapes nodes) k m := by
  induction h generalizing p with
  | nil => simp [unlit]
  | @tree key keys node children rest hnode hchildren hrest ihc ihr =>
    have hs := shapes_of_get? hnode
    have hbelow : ∀ c ∈ node.children, ∀ s, Nodes.shapes nodes c = some s →
        s.parent = some key := by
      intro c hc s hcs
      obtain ⟨t, ht, hkey⟩ := htree.down hs hc
      obtain rfl : t = s := by simpa [ht] using hcs
      exact hkey
    have hbeside : ∀ k ∈ keys, ∀ s, Nodes.shapes nodes k = some s → s.parent = some p :=
      fun k hk => hparent k (by simp [hk])
    simp only [preorder, List.mem_cons, List.mem_append] at hfree
    have hrest := ihr hbeside hp fun e he => hfree e (by simp [he])
    cases howned : node.owned with
    | some own =>
      -- what has this manager as the nearest has not `m`
      have hmanager : node.isManager = true := by
        cases hkind : node.kind <;> simp_all [Node.owned, Node.isManager]
      have hkey : ¬Shape.Nearest (Nodes.shapes nodes) key m := by
        intro hm
        obtain rfl : m = own := hm.unique (.own hs howned)
        exact hfree _ (Or.inl rfl) howned
      have hnot : k ∈ children.keys → ¬Shape.Nearest (Nodes.shapes nodes) k m := by
        intro hk hm
        obtain ⟨e, he, hem⟩ | hm := hchildren.nearest_cases htree hbelow hk hm
        · exact hfree e (Or.inr (Or.inl he)) hem
        · exact hkey hm
      rw [unlit, if_pos hmanager, hrest, keys_tree, List.mem_cons, List.mem_append]
      constructor
      · rintro ⟨hk, hw, hm⟩
        exact ⟨Or.inr (Or.inr hk), hw, hm⟩
      · rintro ⟨rfl | hk | hk, hw, hm⟩
        · exact absurd hm hkey
        · exact absurd hm (hnot hk)
        · exact ⟨hk, hw, hm⟩
    | none =>
      have hmanager : node.isManager = false := Node.owned_eq_none.1 howned
      have hkey : Shape.Nearest (Nodes.shapes nodes) key m :=
        .up hs howned (hparent key (by simp) _ hs) hp
      have hchildren' := ihc hbelow hkey fun e he => hfree e (by simp [he])
      rw [unlit, hmanager, if_neg (by simp), List.mem_append, mem_unlitTree hnode hchildren, hrest,
        hchildren', keys_tree, List.mem_cons, List.mem_append]
      constructor
      · rintro ((⟨rfl, hw⟩ | ⟨hk, hw, hm⟩) | ⟨hk, hw, hm⟩)
        · exact ⟨Or.inl rfl, hw, hkey⟩
        · exact ⟨Or.inr (Or.inl hk), hw, hm⟩
        · exact ⟨Or.inr (Or.inr hk), hw, hm⟩
      · rintro ⟨rfl | hk | hk, hw, hm⟩
        · exact Or.inl (Or.inl ⟨rfl, hw⟩)
        · exact Or.inl (Or.inr ⟨hk, hw, hm⟩)
        · exact Or.inr ⟨hk, hw, hm⟩

end Forest

namespace Scene

variable {scene : Scene α} {key k : NodeKey} {node : Node α} {m : ManagerKey}

/-- A manager is attached to the nodes that wait and have it as their nearest. -/
theorem WellFormed.mem_unlitBy (h : scene.WellFormed) (hnode : scene.node? key = some node)
    (hkind : node.kind = .manager m) : k ∈ scene.unlitBy key node ↔
      Nodes.Waits scene.nodes k ∧ Shape.Nearest (Nodes.shapes scene.nodes) k m := by
  have hs := Forest.shapes_of_get? hnode
  have howned : node.shape.owned = some m := Node.owned_eq_some.2 hkind
  have hbelow := h.spans_below hnode
  have hfree : ∀ e ∈ (scene.below node).preorder, e.2.owned ≠ some m := by
    rintro ⟨k', n'⟩ he hm
    obtain rfl := h.owners.unique (Forest.shapes_of_get? (hbelow.get?_of_mem he)) hs hm howned
    exact (List.nodup_cons.1 (h.nodup_tree hnode)).1 (List.mem_map_of_mem he)
  have hparent : ∀ c ∈ node.children, ∀ s, Nodes.shapes scene.nodes c = some s →
      s.parent = some key := by
    intro c hc s hcs
    obtain ⟨t, ht, hkey⟩ := h.tree.down hs hc
    obtain rfl : t = s := by simpa [ht] using hcs
    exact hkey
  rw [unlitBy, Forest.mem_unlitTree hnode hbelow,
    hbelow.mem_unlit h.tree hparent (.own hs howned) hfree]
  constructor
  · rintro (⟨rfl, hw⟩ | ⟨-, hw, hm⟩)
    · exact ⟨hw, .own hs howned⟩
    · exact ⟨hw, hm⟩
  · rintro ⟨hw, hm⟩
    obtain ⟨a, s, ha, hsm, habove⟩ := hm.exists_above h.tree
    obtain rfl := h.owners.unique ha hs hsm howned
    have hk := (h.spans_tree hnode).mem_keys_iff.2 ⟨a, by simp, habove⟩
    simp only [Forest.keys_tree, Forest.keys_nil, List.append_nil, List.mem_cons] at hk
    rcases hk with rfl | hk
    · exact Or.inl ⟨rfl, hw⟩
    · exact Or.inr ⟨hk, hw, hm⟩

lemma WellFormed.nodup_unlitBy (h : scene.WellFormed) (hnode : scene.node? key = some node) :
    (scene.unlitBy key node).Nodup := by
  refine List.Nodup.sublist ?_ (h.nodup_tree hnode)
  rw [unlitBy, Forest.unlitTree]
  split
  · exact (Forest.unlit_sublist_keys _).cons_cons _
  · exact (Forest.unlit_sublist_keys _).cons _

end Scene

end SceneLighting
