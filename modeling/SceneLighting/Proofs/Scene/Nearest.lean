import SceneLighting.Proofs.Scene.Path

/-!
# The nearest manager

Which manager is the nearest going up from a node depends on the links and on who owns which
manager, and on nothing else of the nodes. So it is told of shapes, and it stays the same when a
leaf is added somewhere or when a subtree that does not hold the node is taken away.
-/

namespace SceneLighting

namespace Shape

/-- Going up from a node, the first manager that is met, which may be the node's own. -/
inductive Nearest (shapes : NodeKey → Option Shape) : NodeKey → ManagerKey → Prop where
  | own {key : NodeKey} {s : Shape} {m : ManagerKey} (hs : shapes key = some s)
      (howned : s.owned = some m) : Nearest shapes key m
  | up {key p : NodeKey} {s : Shape} {m : ManagerKey} (hs : shapes key = some s)
      (howned : s.owned = none) (hparent : s.parent = some p) (habove : Nearest shapes p m) :
      Nearest shapes key m

variable {shapes : NodeKey → Option Shape} {root key : NodeKey} {m m' : ManagerKey}

lemma Nearest.unique (h : Nearest shapes key m) (h' : Nearest shapes key m') : m = m' := by
  induction h with
  | own hs howned =>
    cases h' with
    | own hs' howned' => simp_all
    | up hs' howned' => simp_all
  | up hs howned hparent _ ih =>
    cases h' with
    | own hs' howned' => simp_all
    | up hs' howned' hparent' habove' =>
      apply ih
      simp_all

/-- A node that has a parent is a child of it. -/
lemma IsTree.mem_children_of_parent (h : IsTree shapes root) {p : NodeKey} {s : Shape}
    (hs : shapes key = some s) (hp : s.parent = some p) :
    ∃ t, shapes p = some t ∧ key ∈ t.children := by
  have hroot : key ≠ root := by
    rintro rfl
    obtain ⟨t, ht, hnone⟩ := h.root_parent
    simp_all
  obtain ⟨p', t, hp', ht, hc⟩ := h.up hs hroot
  obtain rfl : p' = p := by simpa [hp] using hp'.symm
  exact ⟨t, ht, hc⟩

/-- The nearest manager is that of a node above. -/
lemma Nearest.exists_above (h : Nearest shapes key m) (htree : IsTree shapes root) :
    ∃ a s, shapes a = some s ∧ s.owned = some m ∧ Above shapes a key := by
  induction h with
  | own hs howned => exact ⟨_, _, hs, howned, .refl⟩
  | up hs _ hparent _ ih =>
    obtain ⟨a, s, ha, howned, habove⟩ := ih
    obtain ⟨t, ht, hc⟩ := htree.mem_children_of_parent hs hparent
    exact ⟨a, s, ha, howned, habove.step ht hc⟩

theorem Nearest.withLeaf {new parent : NodeKey} {leaf : Shape} (h : Nearest shapes key m)
    (hnew : shapes new = none) : Nearest (withLeaf shapes new parent leaf) key m := by
  induction h with
  | own hs howned =>
    apply Nearest.own (withLeaf_old hnew hs)
    rw [owned_adopting, howned]
  | up hs howned hparent _ ih =>
    refine .up (withLeaf_old hnew hs) ?_ ?_ ih
    · rw [owned_adopting, howned]
    · rw [parent_adopting, hparent]

/-- What is kept keeps all that is above it. -/
theorem Nearest.withoutSubtree {gone : List NodeKey} {parent : Option NodeKey} {removed : NodeKey}
    (h : Nearest shapes key m) (htree : IsTree shapes root) (hsub : IsSubtree shapes removed gone)
    (hkept : key ∉ gone) : Nearest (withoutSubtree shapes gone parent removed) key m := by
  induction h with
  | own hs howned =>
    apply Nearest.own (withoutSubtree_kept hs hkept)
    rw [owned_disowning, howned]
  | @up key p s m hs howned hparent _ ih =>
    have hp : p ∉ gone := by
      intro hg
      obtain ⟨t, ht, hc⟩ := htree.mem_children_of_parent hs hparent
      exact hkept (hsub.down hg ht hc)
    refine .up (withoutSubtree_kept hs hkept) ?_ ?_ (ih hp)
    · rw [owned_disowning, howned]
    · rw [parent_disowning, hparent]

end Shape

variable {α : Type}

/-! ### Paths -/

lemma Path.Climbs.nearest_iff {nodes : Nodes α} {key : NodeKey} {node : Node α} {above : Path α}
    (h : Path.Climbs nodes ((key, node) :: above)) {m : ManagerKey} :
    Shape.Nearest (Nodes.shapes nodes) key m ↔ Path.owner ((key, node) :: above) = some m := by
  generalize hpath : (key, node) :: above = path at h
  induction h generalizing key node above with
  | nil => cases hpath
  | @cons key node above hnode hparent habove ih =>
    obtain ⟨⟨rfl, rfl⟩, rfl⟩ := by simpa using hpath
    have hs := Forest.shapes_of_get? hnode
    rw [Path.owner_cons]
    cases howned : node.owned with
    | some own =>
      rw [Option.some_or, Option.some.injEq]
      constructor
      · intro hm
        exact Shape.Nearest.unique (.own hs howned) hm
      · rintro rfl
        exact .own hs howned
    | none =>
      rw [Option.none_or]
      constructor
      · rintro (⟨hs', howned'⟩ | ⟨hs', -, hparent', hm⟩)
        · simp_all [Node.shape]
        · obtain rfl : node.shape = _ := Option.some.inj (hs.symm.trans hs')
          rcases above with _ | ⟨⟨p, parent⟩, above⟩
          · simp_all [Node.shape]
          · obtain rfl : p = _ := by simpa [Node.shape, hparent] using hparent'
            exact (ih rfl).1 hm
      · intro hm
        rcases above with _ | ⟨⟨p, parent⟩, above⟩
        · simp at hm
        · exact .up hs howned hparent ((ih rfl).2 hm)

lemma Node.owned_eq_none {node : Node α} : node.owned = none ↔ node.isManager = false := by
  cases h : node.kind <;> simp [owned, isManager, h]

lemma Path.owner_eq_none_iff {path : Path α} :
    path.owner = none ↔ ∀ e ∈ path, e.2.isManager = false := by
  rw [Path.owner, List.findSome?_eq_none_iff]
  exact forall₂_congr fun _ _ => Node.owned_eq_none

lemma Path.Climbs.of_append {nodes : Nodes α} {below above : Path α}
    (h : (below ++ above).Climbs nodes) : above.Climbs nodes := by
  induction below with
  | nil => exact h
  | cons e below ih =>
    cases h with
    | cons _ _ habove => exact ih habove

lemma length_climb_le (nodes : Nodes α) (steps : Nat) (start : Option NodeKey) :
    (climb nodes steps start).length ≤ steps := by
  induction steps generalizing start with
  | zero => simp [climb]
  | succ steps ih =>
    cases start with
    | none => simp [climb]
    | some key =>
      rw [climb]
      split
      · simp
      · exact Nat.succ_le_succ (ih _)

namespace Scene

variable {scene : Scene α} {key : NodeKey} {m : ManagerKey}

lemma path_of_none (h : scene.node? key = none) : scene.path key = [] := by
  rw [node?] at h
  rw [path]
  cases scene.size <;> simp [climb, h]

lemma WellFormed.climbs_path (h : scene.WellFormed) (key : NodeKey) :
    (scene.path key).Climbs scene.nodes := by
  cases hnode : scene.node? key with
  | none => exact path_of_none hnode ▸ .nil
  | some node =>
    obtain ⟨above, hmem, hpath⟩ := h.exists_path hnode
    exact hpath ▸ h.climbs hmem

/-- The path of a node goes on as the path of each node on it. -/
lemma WellFormed.path_eq_of_append (h : scene.WellFormed) {below above : Path α} {k : NodeKey}
    {node : Node α} (hpath : scene.path key = below ++ (k, node) :: above) :
    scene.path k = (k, node) :: above := by
  have hclimbs := h.climbs_path key
  have hlength := length_climb_le scene.nodes scene.size (some key)
  rw [← path, hpath, List.length_append] at hlength
  rw [hpath] at hclimbs
  exact hclimbs.of_append.climb_eq (Nat.le_trans (Nat.le_add_left _ _) hlength)

/-- Going up along the path of a node and going up from parent to parent is the same. -/
theorem WellFormed.owner_eq_some (h : scene.WellFormed) :
    (scene.path key).owner = some m ↔ Shape.Nearest (Nodes.shapes scene.nodes) key m := by
  cases hnode : scene.node? key with
  | none =>
    have hs : Nodes.shapes scene.nodes key = none := by
      rw [Nodes.shapes, ← node?, hnode, Option.map_none]
    rw [path_of_none hnode, Path.owner_nil]
    constructor
    · intro hm
      cases hm
    · rintro (⟨hs', -⟩ | ⟨hs', -⟩) <;> simp [hs] at hs'
  | some node =>
    obtain ⟨above, hmem, hpath⟩ := h.exists_path hnode
    rw [hpath]
    exact (h.climbs hmem).nearest_iff.symm

/-- The nearest manager is there. -/
lemma WellFormed.isSome_of_nearest (h : scene.WellFormed)
    (hm : Shape.Nearest (Nodes.shapes scene.nodes) key m) : (scene.managers.get? m).isSome := by
  obtain ⟨a, s, hs, howned, -⟩ := hm.exists_above h.tree
  exact h.owners.owned hs howned

end Scene

end SceneLighting
