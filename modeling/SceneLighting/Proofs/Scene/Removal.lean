import SceneLighting.Proofs.Scene.Decoration
import SceneLighting.Proofs.Scene.Links

/-!
# Managers that were removed

A manager stays until its node is removed, and no manager added later has its key. Nodes are only
attached to managers that are there, so what a node is attached to is there still or was removed.
-/

namespace SceneLighting

variable {α : Type}

/-- The managers that are to light the nodes. -/
def Nodes.selectors (nodes : Nodes α) : NodeKey → Option ManagerKey := fun key =>
  (nodes.get? key).bind Node.selector

namespace Scene

variable {scene : Scene α} {nodes : Nodes α} {key : NodeKey} {m : ManagerKey}

lemma selectors_eq_some : Nodes.selectors nodes key = some m ↔
    ∃ node, nodes.get? key = some node ∧ node.selector = some m :=
  Option.bind_eq_some_iff

/-! ### What nodes are attached to -/

lemma selectors_modify (k : NodeKey) {f : Node α → Node α}
    (hf : ∀ node, (f node).selector = node.selector) :
    Nodes.selectors (nodes.modify k f) = Nodes.selectors nodes := by
  funext key
  rw [Nodes.selectors, Nodes.selectors, SlotMap.get?_modify]
  split
  next hk =>
    subst hk
    cases nodes.get? key with
    | none => rfl
    | some node => exact hf node
  next => rfl

lemma selectors_withSelector {manager : ManagerKey} {k : NodeKey}
    (h : Nodes.selectors (withSelector nodes manager k) key = some m) :
    Nodes.selectors nodes key = some m ∨ m = manager := by
  rw [Nodes.selectors, withSelector, SlotMap.get?_modify] at h
  split at h
  next =>
    cases hn : nodes.get? k with
    | none => simp [hn] at h
    | some node => exact Or.inr (by simpa [hn] using h.symm)
  next => exact Or.inl h

lemma selectors_foldl_withSelector {manager : ManagerKey} {keys : List NodeKey}
    (h : Nodes.selectors (keys.foldl (fun nodes k => withSelector nodes manager k) nodes) key =
      some m) : Nodes.selectors nodes key = some m ∨ m = manager := by
  induction keys generalizing nodes with
  | nil => exact Or.inl h
  | cons k keys ih =>
    rcases ih h with h | h
    · exact selectors_withSelector h
    · exact Or.inr h

lemma selectors_new (key : NodeKey) : Nodes.selectors (new : Scene α).nodes key = none := by
  rw [Nodes.selectors, get?_nodes_new]
  split <;> rfl

/-- A new node is attached to nothing. -/
lemma selectors_withNode (hv : scene.nodes.Valid) {parent : NodeKey} {name : String}
    {kind : Kind α} (h : Nodes.selectors (scene.withNode parent name kind).nodes key = some m) :
    Nodes.selectors scene.nodes key = some m := by
  have hmodify : Nodes.selectors (scene.withNode parent name kind).nodes =
      Nodes.selectors (scene.nodes.insert ⟨name, kind, some parent, [], none⟩) :=
    selectors_modify parent fun _ => rfl
  rw [hmodify, Nodes.selectors, hv.get?_insert] at h
  split at h
  next => simp at h
  next => exact h

lemma selectors_withoutTree {k : NodeKey} {node : Node α}
    (h : Nodes.selectors (scene.withoutTree k node).nodes key = some m) :
    Nodes.selectors scene.nodes key = some m := by
  simp only [Nodes.selectors, withoutTree, SlotMap.get?_foldl_erase] at h
  split at h
  next => simp at h
  next =>
    rw [get?_unlink] at h
    cases hn : scene.nodes.get? key with
    | none => simp [hn] at h
    | some n =>
      rw [hn, Option.map_some, Option.bind_some] at h
      simpa [Nodes.selectors, hn, apply_ite] using h

/-! ### Steps that add and remove nothing -/

/-- No managers come or go, and what a node was attached to anew is there. -/
structure Attached (before after : Scene α) : Prop where
  managers : Managers.Evolve (fun _ _ => True) before.managers after.managers
  selectors : ∀ key m, Nodes.selectors after.nodes key = some m →
    Nodes.selectors before.nodes key = some m ∨ (before.managers.get? m).isSome

namespace Attached

lemma refl (scene : Scene α) : Attached scene scene where
  managers := .refl (fun _ => trivial) _
  selectors _ _ := Or.inl

lemma trans (a b c : Scene α) (hab : Attached a b) (hbc : Attached b c) : Attached a c where
  managers := .trans (fun _ _ _ _ _ => trivial) _ _ _ hab.managers hbc.managers
  selectors key m hm := by
    rcases hbc.selectors key m hm with hm | hm
    · exact hab.selectors key m hm
    · exact Or.inr (hab.managers.isSome_eq m ▸ hm)

/-- What changes managers only attaches nothing. -/
lemma withManagers {managers : Managers α}
    (h : Managers.Evolve (fun _ _ => True) scene.managers managers) :
    Attached scene { scene with managers } where
  managers := h
  selectors _ _ := Or.inl

lemma withKind (scene : Scene α) (k : NodeKey) (kind : Kind α) :
    Attached scene (scene.withKind k kind) where
  managers := .refl (fun _ => trivial) _
  selectors _ _ hm := by
    have hkind : Nodes.selectors (scene.withKind k kind).nodes = Nodes.selectors scene.nodes :=
      selectors_modify k fun _ => rfl
    exact Or.inl (hkind ▸ hm)

lemma setTransform (k : NodeKey) (matrix : Mat4 α) (scene : Scene α) :
    Attached scene (setTransform k matrix scene).state := by
  obtain hf | ⟨node, old, -, -, ho⟩ := setTransform_cases k matrix scene
  · rw [hf.state_eq]
    exact refl scene
  · rw [ho]
    exact withKind scene k _

lemma modifySource (k : NodeKey) (f : LightSource α → LightSource α) (scene : Scene α) :
    Attached scene (modifySource k f scene).state := by
  obtain ho | ⟨node, source, -, -, ho⟩ := modifySource_cases k f scene
  · rw [ho]
    exact refl scene
  · rw [ho]
    exact withKind scene k _

lemma decorate (k : NodeKey) : Action.Keeps Attached (decorate (α := α) k) := by
  intro scene
  obtain hf | ⟨node, managerKey, manager, -, -, hmanager, ho⟩ := decorate_cases k scene
  · rw [hf.state_eq]
    exact refl scene
  · rw [ho]
    split
    next => exact refl scene
    next =>
      constructor
      case managers => exact .modify (fun _ => trivial) fun _ _ => trivial
      case selectors =>
        intro key m hm
        rcases selectors_foldl_withSelector hm with hm | rfl
        · exact Or.inl hm
        · exact Or.inr (by simp [hmanager])

lemma attach (h : scene.WellFormed) (k managerNode : NodeKey) :
    Attached scene (attach k managerNode scene).state := by
  obtain hf | ⟨node, target, manager, hnode, hkind, -, ho⟩ := attach_cases k managerNode scene
  · rw [hf.state_eq]
    exact refl scene
  · rw [ho]
    constructor
    case managers => exact .refl (fun _ => trivial) _
    case selectors =>
      intro key m hm
      rcases selectors_withSelector hm with hm | rfl
      · exact Or.inl hm
      · exact Or.inr (h.isSome_of_kind hnode hkind)

lemma beginFrame [Scalar α] : Action.Keeps Attached (Scene.beginFrame (α := α)) := by
  refine .bind trans refl fun scene => .bind trans ?_ fun pending => ?_
  · exact .on (keeps_collect_managers _ _ _) fun _ _ => withManagers
  · exact .forM refl trans fun k _ => .bind trans (decorate k) fun _ => refl

lemma drawList [Scalar α] (camera : Camera α) (scene : Scene α) :
    Attached scene (drawList camera scene).state := by
  obtain ⟨managers, hs, hm⟩ := exists_drawList_managers camera scene
  rw [hs]
  exact withManagers hm

lemma onManager {β : Type} (k : NodeKey) (act : Action (Manager α) β) (scene : Scene α) :
    Attached scene (onManager k act scene).state := by
  rw [Scene.onManager]
  split
  next => exact withManagers (.modify (fun _ => trivial) fun _ _ => trivial)
  next => exact refl scene

end Attached

/-! ### Steps -/

/-- What was given out stays given out, what was taken back stays so, and what a node was attached
to anew was there. -/
structure Follows (before after : Scene α) : Prop where
  issued : ∀ m, before.managers.Issued m → after.managers.Issued m
  retired : ∀ m, before.managers.Retired m → after.managers.Retired m
  selectors : ∀ key m, Nodes.selectors after.nodes key = some m →
    Nodes.selectors before.nodes key = some m ∨ (before.managers.get? m).isSome

lemma Attached.follows {before after : Scene α} (h : Attached before after) :
    Follows before after where
  issued _ := h.managers.issued
  retired _ := h.managers.retired
  selectors := h.selectors

namespace WellFormed

lemma follows_add (h : scene.WellFormed) (parent : NodeKey) (name : String)
    (content : Content α) : Follows scene (Scene.add parent name content scene).state := by
  obtain hf | ⟨node, kind, managers, -, -, hc, ho⟩ := add_cases parent name content scene
  · rw [hf.state_eq]
    exact (Attached.refl scene).follows
  rw [ho]
  obtain ⟨rfl, -⟩ | ⟨settings, -, rfl, rfl⟩ := realize_eq_ok hc
  · exact ⟨fun _ => id, fun _ => id, fun _ _ hm => Or.inl (selectors_withNode h.nodes hm)⟩
  · constructor
    case issued => exact fun m hm => hm.insert h.managers _
    case retired => exact fun m hm => hm.insert h.managers _
    case selectors => exact fun key m hm => Or.inl (selectors_withNode h.nodes hm)

lemma follows_erase (h : scene.WellFormed) (k : NodeKey) :
    Follows scene (Scene.erase k scene).state := by
  obtain hf | ⟨node, -, -, ho⟩ := erase_cases k scene
  · rw [hf.state_eq]
    exact (Attached.refl scene).follows
  · rw [ho]
    constructor
    case issued => exact fun m hm => hm.foldl_erase _ h.managers
    case retired => exact fun m hm => hm.foldl_erase _
    case selectors => exact fun key m hm => Or.inl (selectors_withoutTree hm)

theorem follows [Scalar α] (h : scene.WellFormed) (step : Step α) :
    Follows scene (step.apply scene) := by
  cases step with
  | add parent name content => exact h.follows_add parent name content
  | erase k => exact h.follows_erase k
  | setTransform k matrix => exact (Attached.setTransform k matrix scene).follows
  | modifySource k f => exact (Attached.modifySource k f scene).follows
  | decorate k => exact (Attached.decorate k scene).follows
  | attach k managerNode => exact (Attached.attach h k managerNode).follows
  | beginFrame => exact (Attached.beginFrame scene).follows
  | drawList camera => exact (Attached.drawList camera scene).follows
  | onManager k f => exact (Attached.onManager k _ scene).follows

end WellFormed

/-! ### Runs -/

variable [Scalar α] {run : List (Step α)}

/-- At some point of the run the scene had the manager. -/
def Had (run : List (Step α)) (m : ManagerKey) : Prop :=
  ∃ earlier later, run = earlier ++ later ∧ ((after earlier).managers.get? m).isSome

/-- The scene had the manager, and has it no more. -/
def Removed (run : List (Step α)) (m : ManagerKey) : Prop :=
  Had run m ∧ (after run).managers.get? m = none

lemma had_of_isSome (h : ((after run).managers.get? m).isSome) : Had run m :=
  ⟨run, [], (List.append_nil run).symm, h⟩

lemma Had.append (h : Had run m) (more : List (Step α)) : Had (run ++ more) m := by
  obtain ⟨earlier, later, rfl, hm⟩ := h
  exact ⟨earlier, later ++ more, List.append_assoc _ _ _, hm⟩

/-- What the scene had at some point was given out. -/
lemma Had.issued (h : Had run m) : (after run).managers.Issued m := by
  obtain ⟨earlier, later, rfl, hm⟩ := h
  induction later using List.reverseRecOn with
  | nil =>
    rw [List.append_nil]
    exact Or.inl hm
  | append_singleton later step ih =>
    rw [← List.append_assoc, after_concat]
    exact ((wellFormed_after _).follows step).issued m ih

lemma Removed.retired (h : Removed run m) : (after run).managers.Retired m :=
  h.1.issued.retired_of_get? h.2

/-- A manager that was removed does not come back, and no other takes its key. -/
theorem Removed.append (h : Removed run m) (more : List (Step α)) : Removed (run ++ more) m := by
  refine ⟨h.1.append more, SlotMap.Retired.get?_eq ?_⟩
  induction more using List.reverseRecOn with
  | nil =>
    rw [List.append_nil]
    exact h.retired
  | append_singleton more step ih =>
    rw [← List.append_assoc, after_concat]
    exact ((wellFormed_after _).follows step).retired m ih

/-- Nodes are attached to managers that the scene had at some point. -/
theorem had_of_selectors (h : Nodes.selectors (after run).nodes key = some m) : Had run m := by
  induction run using List.reverseRecOn with
  | nil => simp [selectors_new] at h
  | append_singleton run step ih =>
    rw [after_concat] at h
    rcases ((wellFormed_after run).follows step).selectors key m h with h | h
    · exact (ih h).append [step]
    · exact (had_of_isSome h).append [step]

/-- What a node is attached to was removed, unless it is there. -/
lemma removed_iff_of_selectors (h : Nodes.selectors (after run).nodes key = some m) :
    Removed run m ↔ (after run).managers.get? m = none :=
  and_iff_right (had_of_selectors h)

end Scene

end SceneLighting
