import SceneLighting.Proofs.Scene.Path
import SceneLighting.Proofs.Slot.Retirement

/-!
# What decoration changes

Attaching managers to nodes changes which managers light them, and marks a manager as decorated.
All that is asked of a scene without regard to selectors stays as it is.
-/

namespace SceneLighting

variable {α : Type}

/-- The node without the manager that lights it. -/
def Node.bare (node : Node α) : Node α :=
  { node with selector := none }

/-- The path without the managers that light its nodes. -/
def Path.bare (path : Path α) : Path α :=
  path.map fun (key, node) => (key, node.bare)

@[simp] lemma Path.bare_cons (key : NodeKey) (node : Node α) (above : Path α) :
    Path.bare ((key, node) :: above) = (key, node.bare) :: above.bare :=
  rfl

lemma Path.owner_bare (path : Path α) : path.bare.owner = path.owner := by
  induction path with
  | nil => rfl
  | cons e above ih => rw [Path.bare_cons, Path.owner_cons, Path.owner_cons, ih]; rfl

lemma Path.world_bare [Scalar α] (path : Path α) : path.bare.world = path.world := by
  induction path with
  | nil => rfl
  | cons e above ih => rw [Path.bare_cons, Path.world_cons, Path.world_cons, ih]; rfl

/-- Nodes that only differ in their selectors span the same forest. -/
lemma Forest.Spans.bare {nodes nodes' : Nodes α} {keys : List NodeKey} {forest : Forest α}
    (h : Spans nodes keys forest)
    (hn : ∀ key, (nodes'.get? key).map Node.bare = (nodes.get? key).map Node.bare) :
    ∃ forest', Spans nodes' keys forest' ∧ ∀ above above', above'.bare = above.bare →
      (forest'.paths above').map Path.bare = (forest.paths above).map Path.bare := by
  induction h with
  | nil => exact ⟨.nil, .nil, fun _ _ _ => rfl⟩
  | @tree key keys node children rest hnode _ _ ihc ihr =>
    have hkey := hn key
    rw [hnode, Option.map_some, Option.map_eq_some_iff] at hkey
    obtain ⟨node', hnode', hbare⟩ := hkey
    obtain ⟨children', hc, hcpaths⟩ := ihc
    obtain ⟨rest', hr, hrpaths⟩ := ihr
    have hchildren : node'.children = node.children := (congrArg Node.children hbare :)
    refine ⟨_, .tree hnode' (hchildren ▸ hc) hr, ?_⟩
    intro above above' ha
    have hcons : Path.bare ((key, node') :: above') = Path.bare ((key, node) :: above) := by
      rw [Path.bare_cons, Path.bare_cons, hbare, ha]
    simp only [paths, List.map_cons, List.map_append, hcpaths _ _ hcons, hrpaths _ _ ha, hcons]

namespace Scene

/-- Only selectors and marks of decoration differ. -/
structure Relit (before after : Scene α) : Prop where
  nodes : ∀ key, (after.nodes.get? key).map Node.bare = (before.nodes.get? key).map Node.bare
  managers : Managers.Evolve (fun m m' => m'.settings = m.settings ∧ m'.frame = m.frame)
    before.managers after.managers
  root : after.root = before.root

namespace Relit

variable {scene : Scene α}

lemma refl (scene : Scene α) : Relit scene scene where
  nodes _ := rfl
  managers := .refl (fun _ => ⟨rfl, rfl⟩) _
  root := rfl

lemma trans (a b c : Scene α) (hab : Relit a b) (hbc : Relit b c) : Relit a c where
  nodes key := (hbc.nodes key).trans (hab.nodes key)
  managers := .trans (fun _ _ _ h h' => ⟨h'.1.trans h.1, h'.2.trans h.2⟩) _ _ _
    hab.managers hbc.managers
  root := hbc.root.trans hab.root

/-- In both scenes traversals meet the same, selectors aside. -/
theorem paths_eq {before after : Scene α} (h : Relit before after) (hb : before.WellFormed)
    (ha : after.WellFormed) : after.paths.map Path.bare = before.paths.map Path.bare := by
  obtain ⟨forest, hspans, hpaths⟩ := hb.spans.bare h.nodes
  obtain ⟨s, hs, -⟩ := ha.tree.root_parent
  have htree : forest = after.tree := by
    rw [← h.root] at hspans
    exact hspans.eq_ofKeys ha.tree (Shape.abreast_single (by simp [hs]))
  subst htree
  exact hpaths [] [] rfl

end Relit

lemma bare_withSelector (nodes : Nodes α) (manager : ManagerKey) (key k : NodeKey) :
    ((withSelector nodes manager key).get? k).map Node.bare = (nodes.get? k).map Node.bare := by
  apply SlotMap.map_get?_modify
  intro _ _
  rfl

lemma get?_foldl_withSelector (nodes : Nodes α) (manager : ManagerKey) (keys : List NodeKey)
    (k : NodeKey) :
    (keys.foldl (fun nodes key => withSelector nodes manager key) nodes).get? k =
      if k ∈ keys then (nodes.get? k).map fun node => { node with selector := some manager }
      else nodes.get? k := by
  induction keys generalizing nodes with
  | nil => rfl
  | cons key keys ih =>
    rw [List.foldl_cons, ih, withSelector, SlotMap.get?_modify]
    by_cases hk : k = key
    · subst hk
      cases nodes.get? k <;> simp
    · simp [hk]

/-- Only selectors are changed, no slots are. -/
lemma slots_foldl_withSelector (nodes : Nodes α) (manager : ManagerKey) (keys : List NodeKey) :
    let after := keys.foldl (fun nodes key => withSelector nodes manager key) nodes
    after.slots.size = nodes.slots.size ∧ after.free = nodes.free := by
  induction keys generalizing nodes with
  | nil => exact ⟨rfl, rfl⟩
  | cons key keys ih =>
    obtain ⟨hsize, hfree⟩ := ih (withSelector nodes manager key)
    exact ⟨hsize.trans (SlotMap.size_slots_modify _ _ _), hfree.trans (SlotMap.free_modify _ _ _)⟩

/-- In which order a manager comes to light nodes does not matter. -/
lemma withDecoration_congr (scene : Scene α) (manager : ManagerKey) {keys keys' : List NodeKey}
    (h : ∀ k, k ∈ keys ↔ k ∈ keys') :
    scene.withDecoration manager keys = scene.withDecoration manager keys' := by
  obtain ⟨hsize, hfree⟩ := slots_foldl_withSelector scene.nodes manager keys
  obtain ⟨hsize', hfree'⟩ := slots_foldl_withSelector scene.nodes manager keys'
  rw [withDecoration, withDecoration, Scene.mk.injEq]
  refine ⟨SlotMap.ext_get? (hsize.trans hsize'.symm) (hfree.trans hfree'.symm) ?_, rfl, rfl⟩
  intro k
  simp only [get?_foldl_withSelector, h]

lemma relit_withDecoration (scene : Scene α) (manager : ManagerKey) (keys : List NodeKey) :
    Relit scene (scene.withDecoration manager keys) where
  nodes k := by
    have hfold : ∀ (keys : List NodeKey) (nodes : Nodes α),
        ((keys.foldl (fun nodes key => withSelector nodes manager key) nodes).get? k).map
          Node.bare = (nodes.get? k).map Node.bare := by
      intro keys
      induction keys with
      | nil => exact fun _ => rfl
      | cons key keys ih =>
        intro nodes
        rw [List.foldl_cons, ih, bare_withSelector]
    exact hfold keys scene.nodes
  managers := .modify (fun _ => ⟨rfl, rfl⟩) fun _ _ => ⟨rfl, rfl⟩
  root := rfl

theorem keeps_decorate (key : NodeKey) : Action.Keeps Relit (decorate (α := α) key) := by
  intro scene
  obtain hf | ⟨node, managerKey, manager, -, -, -, ho⟩ := decorate_cases key scene
  · rw [hf.state_eq]
    exact .refl scene
  · rw [ho]
    split
    · exact .refl scene
    · exact relit_withDecoration _ _ _

/-- What a frame decorates after its lights were collected. -/
lemma keeps_decorate_all (pending : List NodeKey) :
    Action.Keeps Relit (pending.forM fun key => do
      let _ ← decorate (α := α) key) :=
  .forM .refl .trans fun key _ => .bind .trans (keeps_decorate key) fun _ => .pure .refl _

end Scene

end SceneLighting
