import SceneLighting.Proofs.Manager.Frame
import SceneLighting.Proofs.Scene.Removal

/-!
# When a draw list fails

A draw list is made in one pass over the nodes. All that can go wrong on the way is that the manager
that is to light a node was removed, and then the pass ends at the first such node.
-/

namespace SceneLighting

variable {α : Type}

/-- What goes wrong when lights are selected at a node: its manager is not there. -/
def Node.selectionFault? (node : Node α) (managers : Managers α) : Option Fault :=
  node.selector.bind fun m =>
    if (managers.get? m).isSome then none else some (.selectedManagerNotFound m node.name)

lemma Node.selectionFault?_eq_some {node : Node α} {managers : Managers α} {fault : Fault} :
    node.selectionFault? managers = some fault ↔ ∃ m, node.selector = some m ∧
      managers.get? m = none ∧ fault = .selectedManagerNotFound m node.name := by
  rw [selectionFault?, Option.bind_eq_some_iff]
  apply exists_congr
  intro m
  apply and_congr_right
  intro _
  cases managers.get? m with
  | none => simp [eq_comm (a := fault)]
  | some manager => simp

/-- What goes wrong first when lights are selected at the nodes of a forest. -/
def Forest.selectionFault? (forest : Forest α) (managers : Managers α) : Option Fault :=
  forest.preorder.findSome? fun e => e.2.selectionFault? managers

lemma Forest.selectionFault?_tree (key : NodeKey) (node : Node α) (children rest : Forest α)
    (managers : Managers α) : (tree key node children rest).selectionFault? managers =
      (node.selectionFault? managers).or
        ((children.selectionFault? managers).or (rest.selectionFault? managers)) := by
  simp only [selectionFault?, preorder, List.findSome?_cons, List.findSome?_append]
  cases node.selectionFault? managers <;> rfl

/-- It only matters which managers are there. -/
lemma Managers.Evolve.selectionFault?_eq {R : Manager α → Manager α → Prop}
    {before after : Managers α} (h : Evolve R before after) (forest : Forest α) :
    forest.selectionFault? after = forest.selectionFault? before := by
  simp only [Forest.selectionFault?, Node.selectionFault?, h.isSome_eq]

/-! ### The pass -/

lemma Scene.fault?_onManagerKey {β : Type} (key : ManagerKey) (part : Part) (missing : Fault)
    (act : Action (Manager α) β) (managers : Managers α) :
    (onManagerKey key part missing act).fault? managers =
      match managers.get? key with
      | none   => some missing
      | some m => act.fault? m := by
  cases hm : managers.get? key with
  | none => rw [Action.fault?, onManagerKey_of_none hm]
  | some m => simp only [Action.fault?, onManagerKey_of_get? hm]

variable [Scalar α] {camera : Camera α}

/-- A selection does not fail. -/
theorem Manager.exists_answers_select (camera : Camera α) (bound : Sphere α) (modelView : Mat4 α)
    (m : Manager α) : ∃ set? m', (select camera bound modelView).Answers m set? m' := by
  obtain ⟨-, h⟩ | ⟨-, _, -, set, _, -, h⟩ := select_cases camera bound modelView m
  · exact ⟨none, _, h⟩
  · exact ⟨some set, _, h⟩

namespace Forest

/-- Selecting at a node fails if its manager is not there, and in no other way. -/
lemma fault?_selectNode (key : NodeKey) (node : Node α) (children : Forest α) (c : Culling α) :
    (selectNode camera key node children).fault? c = node.selectionFault? c.managers := by
  unfold selectNode
  cases hsel : node.selector with
  | none => simp [Node.selectionFault?, hsel]
  | some m =>
    rw [Action.fault?_get_bind, Action.fault?_bind none, Option.or_none, Culling.onManagers,
      Action.fault?_on, Scene.fault?_onManagerKey]
    · cases hm : c.managers.get? m with
      | none => simp [Node.selectionFault?, hsel, hm]
      | some manager =>
        simp only [Node.selectionFault?, hsel, hm, Option.bind_some, Option.isSome_some, if_true]
        exact Action.fault?_eq_none.2 (Manager.exists_answers_select _ _ _ manager)
    · intro set? t _
      rw [Action.fault?_modify_bind, Action.fault?_pure]

lemma fault?_drawNode (key : NodeKey) (node : Node α) (c : Culling α) :
    (drawNode key node).fault? c = none :=
  rfl

section Answers

/-! No part of the pass adds or removes managers. -/

variable {key : NodeKey} {node : Node α} {children forest : Forest α} {c c' : Culling α}
  {draws : List (Draw α)}

lemma evolve_of_selectNode {lighting : Option (Lighting α)}
    (h : (selectNode camera key node children).Answers c lighting c') :
    Managers.Evolve (fun _ _ => True) c.managers c'.managers :=
  (keeps_selectNode (fun _ => trivial) (fun _ _ _ _ _ => trivial) (fun _ _ _ => trivial)
    key node children).of_answers h

lemma eq_of_drawNode (h : (drawNode key node).Answers c draws c') : c = c' :=
  h.2

lemma evolve_of_draws (h : (forest.draws camera).Answers c draws c') :
    Managers.Evolve (fun _ _ => True) c.managers c'.managers :=
  (keeps_draws (fun _ => trivial) (fun _ _ _ _ _ => trivial) (fun _ _ _ => trivial)
    forest).of_answers h

end Answers

/-- The pass fails at the first node whose manager is not there. -/
theorem Spans.fault?_draws {nodes : Nodes α} {keys : List NodeKey} {forest : Forest α}
    (h : Spans nodes keys forest) (c : Culling α) :
    (forest.draws camera).fault? c = forest.selectionFault? c.managers := by
  induction h generalizing c with
  | nil => rfl
  | @tree key keys node children rest _ _ _ ihc ihr =>
    rw [selectionFault?_tree, draws, Action.fault?_modify_bind, Action.fault?_bind,
      fault?_selectNode, Culling.managers_enter]
    intro lighting c₁ hselect
    have h₁ := evolve_of_selectNode hselect
    rw [Culling.managers_enter] at h₁
    rw [Action.fault?_bind, fault?_drawNode, Option.none_or]
    intro own c₁' hown
    obtain rfl := eq_of_drawNode hown
    rw [Action.fault?_bind, ihc, h₁.selectionFault?_eq]
    intro below c₂ hbelow
    have h₂ := evolve_of_draws hbelow
    rw [Action.fault?_modify_bind, Action.fault?_bind_pure, ihr, Culling.managers_leave,
      Culling.managers_release, h₂.selectionFault?_eq, h₁.selectionFault?_eq]

end Forest

/-! ### Draw lists -/

namespace Scene

variable {scene : Scene α} {run : List (Step α)}

lemma WellFormed.fault?_drawList (h : scene.WellFormed) :
    (Scene.drawList camera).fault? scene = scene.tree.selectionFault? scene.managers := by
  rw [Scene.drawList, Action.fault?_get_bind, Action.fault?_on, Action.fault?_bind,
    Option.or_none, h.spans.fault?_draws]
  · rfl
  · exact fun _ _ _ => rfl

/-- A node is to be lit by a manager that was removed. -/
def Dangles (run : List (Step α)) (node : Node α) : Prop :=
  ∃ m, node.selector = some m ∧ Removed run m

/-- Selecting at a node of a run fails if its manager was removed. -/
lemma selectionFault?_after {key : NodeKey} {node : Node α}
    (hnode : (after run).node? key = some node) {fault : Fault} :
    node.selectionFault? (after run).managers = some fault ↔
      ∃ m, node.selector = some m ∧ Removed run m ∧
        fault = .selectedManagerNotFound m node.name := by
  rw [Node.selectionFault?_eq_some]
  apply exists_congr
  intro m
  apply and_congr_right
  intro hsel
  rw [removed_iff_of_selectors (selectors_eq_some.2 ⟨node, hnode, hsel⟩)]

lemma isSome_selectionFault?_after {key : NodeKey} {node : Node α}
    (hnode : (after run).node? key = some node) :
    (node.selectionFault? (after run).managers).isSome ↔ Dangles run node := by
  rw [Option.isSome_iff_exists]
  constructor
  · rintro ⟨fault, hfault⟩
    obtain ⟨m, hsel, hm, -⟩ := (selectionFault?_after hnode).1 hfault
    exact ⟨m, hsel, hm⟩
  · rintro ⟨m, hsel, hm⟩
    exact ⟨_, (selectionFault?_after hnode).2 ⟨m, hsel, hm, rfl⟩⟩

/-- A draw list fails exactly if a node is to be lit by a manager that was removed. -/
lemma isSome_fault?_drawList (run : List (Step α)) (camera : Camera α) :
    ((drawList camera).fault? (after run)).isSome ↔
      ∃ key node, (after run).node? key = some node ∧ Dangles run node := by
  have h := wellFormed_after run
  rw [h.fault?_drawList, Forest.selectionFault?, List.findSome?_isSome_iff]
  constructor
  · rintro ⟨⟨key, node⟩, hmem, hfault⟩
    have hnode := h.mem_preorder.1 hmem
    exact ⟨key, node, hnode, (isSome_selectionFault?_after hnode).1 hfault⟩
  · rintro ⟨key, node, hnode, hdangles⟩
    exact ⟨(key, node), h.mem_preorder.2 hnode, (isSome_selectionFault?_after hnode).2 hdangles⟩

/-- The fault is that of the first node that is to be lit by a manager that was removed. -/
lemma fault?_drawList_eq_some {fault : Fault}
    (h : (drawList camera).fault? (after run) = some fault) :
    ∃ earlier key node later m, (after run).tree.preorder = earlier ++ (key, node) :: later ∧
      (∀ e ∈ earlier, ¬Dangles run e.2) ∧ node.selector = some m ∧ Removed run m ∧
      fault = .selectedManagerNotFound m node.name := by
  have hwf := wellFormed_after run
  rw [hwf.fault?_drawList, Forest.selectionFault?, List.findSome?_eq_some_iff] at h
  obtain ⟨earlier, ⟨key, node⟩, later, hpreorder, hfault, hearlier⟩ := h
  have hnode : (after run).node? key = some node := hwf.mem_preorder.1 (by simp [hpreorder])
  obtain ⟨m, hsel, hm, rfl⟩ := (selectionFault?_after hnode).1 hfault
  refine ⟨earlier, key, node, later, m, hpreorder, ?_, hsel, hm, rfl⟩
  rintro ⟨k, n⟩ he hdangles
  have hn : (after run).node? k = some n := hwf.mem_preorder.1 (by simp [hpreorder, he])
  have := (isSome_selectionFault?_after hn).2 hdangles
  simp [hearlier _ he] at this

/-- A draw list fails exactly if a node is to be lit by a manager that was removed. It names the
first such node, and the manager. A selection does not fail, and no manager of a later step is taken
for one that was removed. -/
theorem drawList_fails (run : List (Step α)) (camera : Camera α) :
    ((∃ fault, (drawList camera (after run)).result = .error fault) ↔
      ∃ key node, (after run).node? key = some node ∧ Dangles run node) ∧
    (∀ fault, (drawList camera (after run)).result = .error fault →
      ∃ earlier key node later m, (after run).tree.preorder = earlier ++ (key, node) :: later ∧
        (∀ e ∈ earlier, ¬Dangles run e.2) ∧ node.selector = some m ∧ Removed run m ∧
        fault.error =
          ⟨.invalidNode, s!"LightManager {m.text} for node '{node.name}' not found"⟩) ∧
    (∀ m, Removed run m → ∀ more, (after (run ++ more)).managers.get? m = none) ∧
    ∀ (m : Manager α) bound modelView, ∃ set? m',
      (Manager.select camera bound modelView).Answers m set? m' := by
  refine ⟨?_, fun fault hfault => ?_, fun m hm more => (hm.append more).2,
    fun m bound modelView => Manager.exists_answers_select camera bound modelView m⟩
  · rw [← isSome_fault?_drawList run camera, Option.isSome_iff_exists]
    simp only [Action.fault?_eq_some]
  · obtain ⟨earlier, key, node, later, m, hpreorder, hearlier, hsel, hm, rfl⟩ :=
      fault?_drawList_eq_some (Action.fault?_eq_some.2 hfault)
    exact ⟨earlier, key, node, later, m, hpreorder, hearlier, hsel, hm, rfl⟩

/-- A second hall, whose manager is held in the slot of the first, does not light what the first was
to light. -/
example : (drawList (α := Float32) .identity).fault? (after [
      .add ⟨1, 1⟩ "hall" (.manager .standard), .add ⟨1, 1⟩ "table" .group,
      .attach ⟨3, 1⟩ ⟨2, 1⟩, .erase ⟨2, 1⟩, .add ⟨1, 1⟩ "hall" (.manager .standard)]) =
    some (.selectedManagerNotFound ⟨1, 1⟩ "table") := by
  decide +kernel

end Scene

end SceneLighting
