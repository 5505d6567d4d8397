import SceneLighting.Scene.Forest
import SceneLighting.Proofs.Scene.Shape
import SceneLighting.Proofs.Slot.Validity

/-!
# What a forest holds

Where the shapes of the nodes form a tree, no path is so long that unfolding cuts it off. A forest
then spans the keys that it was unfolded from: it has each node once, and all that are below.
-/

namespace SceneLighting

variable {α : Type}

/-- The shapes of all nodes. -/
def Nodes.shapes (nodes : Nodes α) : NodeKey → Option Shape := fun key =>
  (nodes.get? key).map Node.shape

namespace Forest

/-- The forest follows all links from `keys` on, to the end. -/
inductive Spans (nodes : Nodes α) : List NodeKey → Forest α → Prop where
  | nil : Spans nodes [] .nil
  | tree {key : NodeKey} {keys : List NodeKey} {node : Node α} {children rest : Forest α}
      (hnode : nodes.get? key = some node) (hchildren : Spans nodes node.children children)
      (hrest : Spans nodes keys rest) : Spans nodes (key :: keys) (.tree key node children rest)

/-- The keys of all nodes, each before those of its children. -/
def keys (forest : Forest α) : List NodeKey :=
  forest.preorder.map Prod.fst

/-- The number of nodes on the longest path. -/
def height : Forest α → Nat
  | .nil                    => 0
  | .lost _ rest            => rest.height
  | .tree _ _ children rest => max (children.height + 1) rest.height

@[simp] lemma keys_nil : (nil : Forest α).keys = [] :=
  rfl

@[simp] lemma keys_tree (key : NodeKey) (node : Node α) (children rest : Forest α) :
    (tree key node children rest).keys = key :: (children.keys ++ rest.keys) := by
  simp [keys, preorder]

lemma height_le_length (forest : Forest α) : forest.height ≤ forest.keys.length := by
  induction forest with
  | nil => exact Nat.le_refl _
  | lost _ rest ih => exact ih
  | tree _ _ children rest ihc ihr =>
    simp only [height, keys_tree, List.length_cons, List.length_append]
    omega

variable {nodes : Nodes α} {keys : List NodeKey} {forest : Forest α}

/-! ### Unfolding -/

lemma unfold_cons {key : NodeKey} {node : Node α} (hnode : nodes.get? key = some node)
    (depth : Nat) (keys : List NodeKey) :
    unfold nodes (depth + 1) (key :: keys) =
      .tree key node (unfold nodes depth node.children) (unfold nodes (depth + 1) keys) := by
  simp [unfold, hnode]

lemma unfold_nil (nodes : Nodes α) (depth : Nat) : unfold nodes depth [] = .nil := by
  cases depth <;> rfl

/-- What is unfolded is there, however deep. -/
lemma get?_of_mem_unfold {depth : Nat} {key : NodeKey} {node : Node α}
    (h : (key, node) ∈ (unfold nodes depth keys).preorder) : nodes.get? key = some node := by
  induction depth generalizing keys with
  | zero => simp [unfold, preorder] at h
  | succ depth ihd =>
    induction keys with
    | nil => simp [unfold, preorder] at h
    | cons k keys ihk =>
      cases hk : nodes.get? k with
      | none =>
        apply ihk
        simpa [unfold, hk, preorder] using h
      | some n =>
        rw [unfold_cons hk] at h
        simp only [preorder, List.mem_cons, List.mem_append, Prod.mk.injEq] at h
        rcases h with ⟨rfl, rfl⟩ | h | h
        · exact hk
        · exact ihd h
        · exact ihk h

/-- Unfolding as deep as a forest is high gives all of it. -/
theorem Spans.unfold_eq (h : Spans nodes keys forest) {depth : Nat}
    (hd : forest.height ≤ depth) : unfold nodes depth keys = forest := by
  induction h generalizing depth with
  | nil => exact unfold_nil nodes depth
  | tree hnode _ _ ihc ihr =>
    simp only [height, Nat.max_le] at hd
    obtain ⟨depth, rfl⟩ : ∃ d, depth = d + 1 := ⟨depth - 1, by omega⟩
    rw [unfold_cons hnode, ihc (by omega), ihr hd.2]

/-! ### Nodes of a spanning forest -/

lemma Spans.get?_of_mem (h : Spans nodes keys forest) {key : NodeKey} {node : Node α}
    (hm : (key, node) ∈ forest.preorder) : nodes.get? key = some node := by
  induction h with
  | nil => simp [preorder] at hm
  | tree hnode _ _ ihc ihr =>
    simp only [preorder, List.mem_cons, List.mem_append, Prod.mk.injEq] at hm
    rcases hm with ⟨rfl, rfl⟩ | hm | hm
    · exact hnode
    · exact ihc hm
    · exact ihr hm

lemma Spans.get?_isSome (h : Spans nodes keys forest) {key : NodeKey} (hm : key ∈ forest.keys) :
    (nodes.get? key).isSome := by
  obtain ⟨⟨_, node⟩, he, rfl⟩ := List.mem_map.1 hm
  simp [h.get?_of_mem he]

lemma Spans.mem_preorder (h : Spans nodes keys forest) {key : NodeKey} {node : Node α}
    (hm : key ∈ forest.keys) (hnode : nodes.get? key = some node) :
    (key, node) ∈ forest.preorder := by
  obtain ⟨⟨_, node'⟩, he, rfl⟩ := List.mem_map.1 hm
  obtain rfl : node = node' := by simpa [hnode] using h.get?_of_mem he
  exact he

lemma Spans.ne_nil (h : Spans nodes keys forest) {e : NodeKey × Node α}
    (he : e ∈ forest.preorder) : keys ≠ [] := by
  cases h with
  | nil => simp [preorder] at he
  | tree => simp

lemma Spans.subset_keys (h : Spans nodes keys forest) {key : NodeKey} (hk : key ∈ keys) :
    key ∈ forest.keys := by
  induction h with
  | nil => exact hk
  | tree _ _ _ _ ihr =>
    rcases List.mem_cons.1 hk with rfl | hk
    · simp
    · simp [ihr hk]

/-- With a node all its children are there. -/
lemma Spans.mem_keys_of_child (h : Spans nodes keys forest) {key c : NodeKey} {node : Node α}
    (hm : (key, node) ∈ forest.preorder) (hc : c ∈ node.children) : c ∈ forest.keys := by
  induction h with
  | nil => simp [preorder] at hm
  | tree _ hchildren _ ihc ihr =>
    simp only [preorder, List.mem_cons, List.mem_append, Prod.mk.injEq] at hm
    rcases hm with ⟨rfl, rfl⟩ | hm | hm
    · simp [hchildren.subset_keys hc]
    · simp [ihc hm]
    · simp [ihr hm]

/-- What is there and not among the first is a child of what is there. -/
lemma Spans.exists_parent (h : Spans nodes keys forest) {c : NodeKey} (hm : c ∈ forest.keys) :
    c ∈ keys ∨ ∃ key node, (key, node) ∈ forest.preorder ∧ c ∈ node.children := by
  induction h with
  | nil => simp at hm
  | @tree key keys node children rest _ _ _ ihc ihr =>
    simp only [keys_tree, List.mem_cons, List.mem_append] at hm
    rcases hm with rfl | hm | hm
    · exact Or.inl (by simp)
    · obtain hc | ⟨k, n, hk, hc⟩ := ihc hm
      · exact Or.inr ⟨key, node, by simp [preorder], hc⟩
      · exact Or.inr ⟨k, n, by simp [preorder, hk], hc⟩
    · obtain hc | ⟨k, n, hk, hc⟩ := ihr hm
      · exact Or.inl (by simp [hc])
      · exact Or.inr ⟨k, n, by simp [preorder, hk], hc⟩

lemma mem_lastFirst {e : NodeKey × Node α} : e ∈ forest.lastFirst ↔ e ∈ forest.preorder := by
  induction forest with
  | nil => rfl
  | lost _ rest ih => exact ih
  | tree key node children rest ihc ihr =>
    simp only [lastFirst, preorder, List.mem_append, List.mem_cons, ihc, ihr]
    tauto

/-! ### Trees -/

lemma shapes_of_get? {key : NodeKey} {node : Node α} (h : nodes.get? key = some node) :
    Nodes.shapes nodes key = some node.shape := by
  simp [Nodes.shapes, h]

lemma exists_of_shapes {key : NodeKey} {s : Shape} (h : Nodes.shapes nodes key = some s) :
    ∃ node, nodes.get? key = some node ∧ node.shape = s :=
  Option.map_eq_some_iff.1 h

variable {root : NodeKey}

lemma parent_of_mem_children (htree : Shape.IsTree (Nodes.shapes nodes) root) {key c : NodeKey}
    {node child : Node α} (hnode : nodes.get? key = some node) (hc : c ∈ node.children)
    (hchild : nodes.get? c = some child) : child.parent = some key := by
  obtain ⟨t, ht, hp⟩ := htree.down (shapes_of_get? hnode) hc
  obtain rfl : child.shape = t := by simpa [shapes_of_get? hchild] using ht
  exact hp

/-- What a forest holds is what is below its first keys. -/
theorem Spans.mem_keys_iff (h : Spans nodes keys forest) {key : NodeKey} :
    key ∈ forest.keys ↔ ∃ a ∈ keys, Shape.Above (Nodes.shapes nodes) a key := by
  constructor
  · intro hm
    induction h with
    | nil => simp at hm
    | @tree k ks node children rest hnode _ _ ihc ihr =>
      simp only [keys_tree, List.mem_cons, List.mem_append] at hm
      rcases hm with rfl | hm | hm
      · exact ⟨key, by simp, .refl⟩
      · obtain ⟨a, ha, habove⟩ := ihc hm
        exact ⟨k, by simp, (Shape.Above.step .refl (shapes_of_get? hnode) ha).trans habove⟩
      · obtain ⟨a, ha, habove⟩ := ihr hm
        exact ⟨a, by simp [ha], habove⟩
  · rintro ⟨a, ha, habove⟩
    induction habove with
    | refl => exact h.subset_keys ha
    | step _ hs hc ih =>
      obtain ⟨node, hnode, rfl⟩ := exists_of_shapes hs
      exact h.mem_keys_of_child (h.mem_preorder ih hnode) hc

variable (htree : Shape.IsTree (Nodes.shapes nodes) root)

include htree

/-- A spanning forest has each node once. -/
theorem Spans.nodup_keys (h : Spans nodes keys forest)
    (hk : Shape.Abreast (Nodes.shapes nodes) keys) : forest.keys.Nodup := by
  obtain ⟨level, -, hl, -⟩ := htree.levels
  obtain ⟨n, hn⟩ := hk.level hl
  have hnodup := hk.nodup
  clear hk
  induction h generalizing n with
  | nil => simp
  | @tree key keys node children rest hnode hchildren hrest ihc ihr =>
    have hs := shapes_of_get? hnode
    have hkey : level key = n := hn key (by simp)
    have hrestn : ∀ k ∈ keys, level k = n := fun k hk => hn k (by simp [hk])
    obtain ⟨hnot, hnodup⟩ := List.nodup_cons.1 hnodup
    simp only [keys_tree, List.nodup_cons, List.mem_append, not_or, List.nodup_append]
    refine ⟨⟨fun hm => ?_, fun hm => ?_⟩,
      ihc (n + 1) (fun c hc => hkey ▸ hl hs hc) (htree.nodup hs), ihr n hrestn hnodup, ?_⟩
    · -- the node is not below itself
      obtain ⟨c, hc, habove⟩ := hchildren.mem_keys_iff.1 hm
      have := habove.level_le hl
      have := hl hs hc
      omega
    · -- nor below another first key
      obtain ⟨a, ha, habove⟩ := hrest.mem_keys_iff.1 hm
      obtain rfl := habove.eq_of_level_eq hl htree .refl ((hrestn a ha).trans hkey.symm)
      exact hnot ha
    · -- and nothing is both below it and below another first key
      rintro k hkc _ hkr rfl
      obtain ⟨c, hc, habove⟩ := hchildren.mem_keys_iff.1 hkc
      obtain ⟨a, ha, habove'⟩ := hrest.mem_keys_iff.1 hkr
      have hkeyk := (Shape.Above.step .refl hs hc).trans habove
      obtain rfl := hkeyk.eq_of_level_eq hl htree habove' (hkey.trans (hrestn a ha).symm)
      exact hnot ha

/-- A spanning forest is not higher than there are nodes. -/
lemma Spans.height_le_size (h : Spans nodes keys forest)
    (hk : Shape.Abreast (Nodes.shapes nodes) keys) : forest.height ≤ nodes.size :=
  Nat.le_trans forest.height_le_length
    (SlotMap.length_le_size (h.nodup_keys htree hk) fun _ hm => h.get?_isSome hm)

lemma exists_spans (hk : ∀ key ∈ keys, (nodes.get? key).isSome) :
    ∃ forest, Spans nodes keys forest := by
  obtain ⟨level, last, hl, hlast⟩ := htree.levels
  -- the number of levels below those of the keys
  have hdeep : ∀ n (keys : List NodeKey),
      (∀ key ∈ keys, (nodes.get? key).isSome ∧ last < level key + n) →
      ∃ forest, Spans nodes keys forest := by
    intro n
    induction n with
    | zero =>
      rintro (_ | ⟨key, keys⟩) h
      · exact ⟨.nil, .nil⟩
      · obtain ⟨hlive, hlt⟩ := h key (by simp)
        obtain ⟨node, hnode⟩ := Option.isSome_iff_exists.1 hlive
        have := hlast (shapes_of_get? hnode)
        omega
    | succ n ihn =>
      intro keys h
      induction keys with
      | nil => exact ⟨.nil, .nil⟩
      | cons key keys ihk =>
        obtain ⟨hlive, hlt⟩ := h key (by simp)
        obtain ⟨node, hnode⟩ := Option.isSome_iff_exists.1 hlive
        have hs := shapes_of_get? hnode
        obtain ⟨rest, hrest⟩ := ihk fun k hk => h k (by simp [hk])
        obtain ⟨children, hchildren⟩ := ihn node.children fun c hc => by
          obtain ⟨t, ht, -⟩ := htree.down hs hc
          obtain ⟨child, hchild, -⟩ := exists_of_shapes ht
          have := hl hs hc
          exact ⟨by simp [hchild], by omega⟩
        exact ⟨_, .tree hnode hchildren hrest⟩
  exact hdeep (last + 1) keys fun key hkey => ⟨hk key hkey, by omega⟩

/-- Nothing is cut off when nodes of one level are unfolded. -/
theorem spans_ofKeys (hk : Shape.Abreast (Nodes.shapes nodes) keys) :
    Spans nodes keys (ofKeys nodes keys) := by
  obtain ⟨forest, h⟩ := exists_spans htree fun key hkey => by
    simpa [Nodes.shapes] using hk.isSome hkey
  rw [ofKeys, h.unfold_eq (h.height_le_size htree hk)]
  exact h

/-- Any forest that spans nodes of one level is the one unfolded from there. -/
lemma Spans.eq_ofKeys (h : Spans nodes keys forest)
    (hk : Shape.Abreast (Nodes.shapes nodes) keys) : forest = ofKeys nodes keys :=
  (h.unfold_eq (h.height_le_size htree hk)).symm

end Forest

end SceneLighting
