import SceneLighting.Proofs.Scene.Attachment
import SceneLighting.Proofs.Scene.Culling

/-!
# What stands under its own manager

A node to which nothing was attached by hand is lit by the nearest manager above it, or by none. The
nearest manager of a node never changes: new nodes are leaves, and what is removed is removed with
all that is below it. So it does not matter when the manager was attached.
-/

namespace SceneLighting

variable {α : Type}

namespace Scene

variable {scene : Scene α} {key : NodeKey}

/-- Nodes are lit by no other manager than the nearest. -/
def Enclosed (scene : Scene α) : Prop :=
  ∀ key m, Nodes.selectors scene.nodes key = some m →
    Shape.Nearest (Nodes.shapes scene.nodes) key m

lemma enclosed_new : (new : Scene α).Enclosed := by
  intro key m hm
  simp [selectors_new] at hm

/-- It depends on the shapes and the selectors alone. -/
lemma Enclosed.congr (h : scene.Enclosed) {scene' : Scene α}
    (hshapes : Nodes.shapes scene'.nodes = Nodes.shapes scene.nodes)
    (hselectors : Nodes.selectors scene'.nodes = Nodes.selectors scene.nodes) :
    scene'.Enclosed := by
  intro key m hm
  rw [hshapes]
  exact h key m (hselectors ▸ hm)

/-! ### Steps -/

lemma Enclosed.add (h : scene.Enclosed) (hwf : scene.WellFormed) (parent : NodeKey)
    (name : String) (content : Content α) : (add parent name content scene).state.Enclosed := by
  obtain hf | ⟨node, kind, managers, hp, -, -, ho⟩ := add_cases parent name content scene
  · rw [hf.state_eq]
    exact h
  rw [ho]
  intro key m hm
  have hshapes : Nodes.shapes ({ scene with managers }.withNode parent name kind).nodes =
      Shape.withLeaf (Nodes.shapes scene.nodes) scene.nodes.nextKey parent
        (Node.shape ⟨name, kind, some parent, [], none⟩) :=
    shapes_withNode hwf.nodes hp name kind
  rw [hshapes]
  apply (h key m (selectors_withNode hwf.nodes hm)).withLeaf
  rw [Nodes.shapes, hwf.nodes.get?_nextKey, Option.map_none]

lemma Enclosed.erase (h : scene.Enclosed) (hwf : scene.WellFormed) (k : NodeKey) :
    (erase k scene).state.Enclosed := by
  obtain hf | ⟨node, -, hnode, ho⟩ := erase_cases k scene
  · rw [hf.state_eq]
    exact h
  rw [ho]
  intro key m hm
  have hnearest := h key m (selectors_withoutTree hm)
  obtain ⟨kept, hkept, -⟩ := selectors_eq_some.1 hm
  have hs := Forest.shapes_of_get? hkept
  rw [shapes_withoutTree] at hs ⊢
  exact hnearest.withoutSubtree hwf.tree (hwf.isSubtree hnode) (Shape.of_withoutSubtree hs).1

lemma Enclosed.withKind (h : scene.Enclosed) {node : Node α} {kind : Kind α}
    (hnode : scene.node? key = some node)
    (hk : ({ node with kind } : Node α).shape = node.shape) :
    (scene.withKind key kind).Enclosed := by
  apply h.congr
  · refine shapes_modify fun node' hn => ?_
    obtain rfl : node = node' := by simpa [node?, hn] using hnode.symm
    exact hk
  · exact selectors_modify key fun _ => rfl

lemma Enclosed.setTransform (h : scene.Enclosed) (k : NodeKey) (matrix : Mat4 α) :
    (setTransform k matrix scene).state.Enclosed := by
  obtain hf | ⟨node, old, hnode, hkind, ho⟩ := setTransform_cases k matrix scene
  · rw [hf.state_eq]
    exact h
  · rw [ho]
    exact h.withKind hnode (by simp [Node.shape, Node.isDrawable, Node.owned, hkind])

lemma Enclosed.modifySource (h : scene.Enclosed) (k : NodeKey)
    (f : LightSource α → LightSource α) : (modifySource k f scene).state.Enclosed := by
  obtain ho | ⟨node, source, hnode, hkind, ho⟩ := modifySource_cases k f scene
  · rw [ho]
    exact h
  · rw [ho]
    exact h.withKind hnode (by simp [Node.shape, Node.isDrawable, Node.owned, hkind])

lemma Enclosed.decorate (h : scene.Enclosed) (hwf : scene.WellFormed) (k : NodeKey) :
    (decorate k scene).state.Enclosed := by
  obtain hf | ⟨node, m, manager, hnode, hkind, -, ho⟩ := decorate_cases k scene
  · rw [hf.state_eq]
    exact h
  rw [ho]
  split
  · exact h
  · intro key m' hm'
    rw [(relit_withDecoration scene m (scene.unlitBy k node)).shapes_eq]
    obtain hm' | ⟨-, hnearest, rfl⟩ := (hwf.selectors_withDecoration hnode hkind key m').1 hm'
    · exact h key m' hm'
    · exact hnearest

variable [Scalar α]

/-- Collecting lights attaches nothing, and then managers are attached one after another. -/
lemma Enclosed.beginFrame (h : scene.Enclosed) (hwf : scene.WellFormed) :
    (beginFrame scene).state.Enclosed := by
  have refl : ∀ s : Scene α, s.WellFormed ∧ s.Enclosed → s.WellFormed ∧ s.Enclosed := fun _ => id
  have trans : ∀ s t u : Scene α, (s.WellFormed ∧ s.Enclosed → t.WellFormed ∧ t.Enclosed) →
      (t.WellFormed ∧ t.Enclosed → u.WellFormed ∧ u.Enclosed) →
      s.WellFormed ∧ s.Enclosed → u.WellFormed ∧ u.Enclosed := fun _ _ _ hst htu => htu ∘ hst
  have hkeeps : Action.Keeps
      (fun s t : Scene α => s.WellFormed ∧ s.Enclosed → t.WellFormed ∧ t.Enclosed)
      Scene.beginFrame := by
    refine .bind trans refl fun scene => .bind trans ?_ fun pending => ?_
    · refine .on (keeps_collect_managers _ _ _) fun s managers hm hs => ?_
      exact ⟨hs.1.withManagers hm, hs.2⟩
    · refine .forM refl trans fun k _ => .bind trans (fun s hs => ?_) fun _ => refl
      exact ⟨hs.1.decorate k, hs.2.decorate hs.1 k⟩
  exact (hkeeps scene ⟨hwf, h⟩).2

lemma Enclosed.drawList (h : scene.Enclosed) (camera : Camera α) :
    (drawList camera scene).state.Enclosed := by
  obtain ⟨managers, hs, -⟩ := exists_drawList_managers camera scene
  rw [hs]
  exact h

omit [Scalar α] in
lemma Enclosed.onManager (h : scene.Enclosed) {β : Type} (k : NodeKey)
    (act : Action (Manager α) β) : (onManager k act scene).state.Enclosed := by
  rw [Scene.onManager]
  split
  · exact h
  · exact h

/-- Whether a step leaves it to the scene which node is lit by which manager. -/
def Step.IsAutomatic : Step α → Prop
  | .attach _ _ => False
  | _           => True

theorem Enclosed.apply (h : scene.Enclosed) (hwf : scene.WellFormed) {step : Step α}
    (hstep : step.IsAutomatic) : (step.apply scene).Enclosed := by
  cases step with
  | add parent name content => exact h.add hwf parent name content
  | erase k => exact h.erase hwf k
  | setTransform k matrix => exact h.setTransform k matrix
  | modifySource k f => exact h.modifySource k f
  | decorate k => exact h.decorate hwf k
  | attach k managerNode => exact hstep.elim
  | beginFrame => exact h.beginFrame hwf
  | drawList camera => exact h.drawList camera
  | onManager k f => exact h.onManager k _

theorem enclosed_after {run : List (Step α)} (hrun : ∀ step ∈ run, step.IsAutomatic) :
    (after run).Enclosed := by
  induction run using List.reverseRecOn with
  | nil => exact enclosed_new
  | append_singleton run step ih =>
    rw [after_concat]
    apply Enclosed.apply (ih fun s hs => hrun s (by simp [hs])) (wellFormed_after run)
    exact hrun step (by simp)

/-! ### What is drawn -/

/-- What a node selects is of the manager that lights it. -/
lemma selector_of_selectAll {camera : Camera α} {paths : List (Path α)}
    {managers managers' : Managers α} {l : List (Selection α)}
    (h : (scene.selectAll camera paths).Answers managers l managers') :
    ∀ selection ∈ l, ∀ lighting, selection.lighting = some lighting →
      ∃ node above, (selection.node, node) :: above ∈ paths ∧
        node.selector = some lighting.manager := by
  induction paths generalizing managers l with
  | nil =>
    rw [selectAll_nil, Action.answers_pure] at h
    obtain ⟨rfl, -⟩ := h
    simp
  | cons path paths ih =>
    obtain ⟨l₁, between, l₂, h₁, h₂, rfl⟩ := answers_selectAll_cons.1 h
    intro selection hs lighting hlighting
    rcases List.mem_append.1 hs with hs | hs
    · rcases path with _ | ⟨⟨key, node⟩, above⟩
      · obtain ⟨rfl, -⟩ : [] = l₁ ∧ _ := by simpa [selectAt] using h₁
        simp at hs
      · cases hsel : node.selector <;> simp only [selectAt, hsel, Action.answers_bind,
          Action.answers_pure] at h₁
        · obtain ⟨rfl, -⟩ := h₁
          simp at hs
        · obtain ⟨set?, _, -, rfl, -⟩ := h₁
          obtain rfl := List.mem_singleton.1 hs
          obtain ⟨set, -, rfl⟩ := Option.map_eq_some_iff.1 hlighting
          exact ⟨node, above, by simp, hsel⟩
    · obtain ⟨node, above, hpath, hsel⟩ := ih h₂ selection hs lighting hlighting
      exact ⟨node, above, by simp [hpath], hsel⟩

/-- What is drawn is lit by a manager that stands above it. -/
theorem Enclosed.isManager_of_draw (h : scene.Enclosed) (hwf : scene.WellFormed)
    {camera : Camera α} {list : DrawList α} {managers : Managers α}
    (hlist : list.Depicts scene camera managers) {draw : Draw α} (hdraw : draw ∈ list.draws)
    {lighting : Lighting α} (hlighting : draw.lighting = some lighting) :
    ∃ e ∈ scene.path draw.node, e.2.kind = .manager lighting.manager := by
  rw [hlist.lighting_eq draw hdraw, Path.lit] at hlighting
  obtain ⟨⟨key, node⟩, hmem, hpick⟩ := List.exists_of_findSome?_eq_some hlighting
  obtain ⟨selection, hfind, hselection⟩ := Option.bind_eq_some_iff.1 hpick
  have hkey : selection.node = key := by simpa using List.find?_some hfind
  obtain ⟨node', above, hpath, hsel⟩ := selector_of_selectAll hlist.selections_made selection
    (List.mem_of_find?_eq_some hfind) lighting hselection
  rw [hkey] at hpath
  have hnode : scene.node? key = some node' := hwf.mem_preorder.1 (filterMap_head?_paths scene ▸
    List.mem_filterMap.2 ⟨_, hpath, List.head?_cons⟩)
  have howner := hwf.owner_eq_some.2 (h key _ (selectors_eq_some.2 ⟨node', hnode, hsel⟩))
  obtain ⟨below, above', hsplit⟩ := List.append_of_mem hmem
  obtain ⟨e, he, howned⟩ := List.exists_of_findSome?_eq_some howner
  rw [hwf.path_eq_of_append hsplit] at he
  refine ⟨e, ?_, Node.owned_eq_some.1 howned⟩
  rw [hsplit]
  exact List.mem_append_right _ he

/-- Without a manager attached by hand, after any run every node is lit by the nearest manager above
it, if it is lit, and nothing is drawn with lights of a manager that does not stand above it. -/
theorem selectors_enclosed {run : List (Step α)} (hrun : ∀ step ∈ run, step.IsAutomatic) :
    (∀ key node m, (after run).node? key = some node → node.selector = some m →
      ((after run).managers.get? m).isSome ∧ ((after run).path key).owner = some m) ∧
    ∀ camera list, (drawList camera (after run)).result = .ok list → ∀ draw ∈ list.draws,
      ∀ lighting, draw.lighting = some lighting →
        ∃ e ∈ (after run).path draw.node, e.2.kind = .manager lighting.manager := by
  have hwf := wellFormed_after run
  have hencl := enclosed_after hrun
  constructor
  · intro key node m hnode hsel
    have hnearest := hencl key m (selectors_eq_some.2 ⟨node, hnode, hsel⟩)
    exact ⟨hwf.isSome_of_nearest hnearest, hwf.owner_eq_some.2 hnearest⟩
  · intro camera list hok draw hdraw lighting hlighting
    have hlist := depicts_of_answers hwf (Action.answers_of_result hok)
    exact hencl.isManager_of_draw hwf hlist hdraw hlighting

/-- A hall with a niche in it that has a lamp and a manager of its own. -/
def niche : List (Step Float32) :=
  [.add ⟨1, 1⟩ "hall" (.manager .standard), .add ⟨2, 1⟩ "lamp" (.light ⟨.standard, 2⟩),
    .add ⟨2, 1⟩ "table" (.drawable ⟨⟨1, 0, 0⟩, 1⟩), .add ⟨2, 1⟩ "niche" (.manager .standard),
    .add ⟨5, 1⟩ "lamp" (.light ⟨.standard, 1⟩), .add ⟨5, 1⟩ "bust" (.drawable ⟨⟨1, 0, 0⟩, 1⟩)]

/-- The hall is lit before the niche is. -/
theorem selectors_enclosed_niche :
    (∀ step ∈ niche ++ [.decorate ⟨2, 1⟩, .beginFrame], step.IsAutomatic) ∧
      (∀ key m, Nodes.selectors
          (after (niche ++ [.decorate ⟨2, 1⟩, .beginFrame])).nodes key = some m →
        ((after (niche ++ [.decorate ⟨2, 1⟩, .beginFrame])).path key).owner = some m) ∧
      Nodes.selectors (after (niche ++ [.decorate ⟨2, 1⟩, .beginFrame])).nodes ⟨2, 1⟩ =
        some ⟨1, 1⟩ ∧
      Nodes.selectors (after (niche ++ [.decorate ⟨2, 1⟩, .beginFrame])).nodes ⟨5, 1⟩ =
        some ⟨2, 1⟩ := by
  have hrun : ∀ step ∈ niche ++ [.decorate ⟨2, 1⟩, .beginFrame], step.IsAutomatic := by
    simp [niche, Step.IsAutomatic]
  refine ⟨hrun, fun key m hm => ?_, by decide +kernel, by decide +kernel⟩
  obtain ⟨node, hnode, hsel⟩ := selectors_eq_some.1 hm
  exact ((selectors_enclosed hrun).1 key node m hnode hsel).2

end Scene

end SceneLighting
