import SceneLighting.Proofs.Scalar.Real
import SceneLighting.Proofs.Scene.Collection
import SceneLighting.Proofs.Scene.Culling
import SceneLighting.Proofs.Scene.Failure
import SceneLighting.Proofs.Scene.Nearest

/-!
# Where nodes are placed

The place of a node is found in three ways. To collect lights, matrices are multiplied from the root
down. To draw, those of the transforms alone are, from the camera down. To ask for one node, they
are multiplied from the node up. If nothing is rounded, the three agree.
-/

namespace SceneLighting

variable {α : Type} [Scalar α] {scene : Scene α}

/-! ### Going up -/

omit [Scalar α] in
/-- The nodes above a node are those on its path. -/
lemma Path.Climbs.ancestors_eq {nodes : Nodes α} {key : NodeKey} {node : Node α} {above : Path α}
    (h : Path.Climbs nodes ((key, node) :: above)) {steps : Nat} (hs : above.length ≤ steps) :
    Scene.ancestors nodes steps node = above.map Prod.snd := by
  induction above generalizing key node steps with
  | nil =>
    cases h with
    | cons hnode hparent =>
      have hnone : node.parent = none := hparent
      cases steps <;> simp [Scene.ancestors, hnone]
  | cons e above ih =>
    obtain ⟨p, parent⟩ := e
    obtain ⟨steps, rfl⟩ : ∃ n, steps = n + 1 := ⟨steps - 1, by simp at hs; omega⟩
    cases h with
    | cons hnode hparent habove =>
      have hp : node.parent = some p := hparent
      have hget : nodes.get? p = some parent := by cases habove; assumption
      rw [Scene.ancestors, hp, Option.bind_some, hget]
      simp only [List.map_cons, ih habove (Nat.le_of_succ_le_succ hs)]

section Exact

variable [Mat4.Exact α]

namespace Path

/-- To multiply from a node up is to multiply from the root down. -/
lemma foldl_matrix (above : Path α) (matrix : Mat4 α) :
    (above.map Prod.snd).foldl (fun matrix parent => parent.matrix * matrix) matrix =
      above.world * matrix := by
  induction above generalizing matrix with
  | nil => exact (Mat4.Exact.one_mul matrix).symm
  | cons e above ih =>
    obtain ⟨key, node⟩ := e
    rw [List.map_cons, List.foldl_cons, ih, world_cons, Mat4.Exact.mul_assoc]

/-- To begin with the camera is to multiply by it in the end, and nodes that are no transforms may
be left out. -/
theorem modelView_eq (path : Path α) (view : Mat4 α) : path.modelView view = view * path.world := by
  induction path with
  | nil => exact (Mat4.Exact.mul_one view).symm
  | cons e above ih =>
    obtain ⟨key, node⟩ := e
    rw [modelView_cons, world_cons, Node.matrix_eq, ih]
    cases node.transform? with
    | none => rw [Option.elim_none, Option.getD_none, Mat4.Exact.mul_one]
    | some matrix => rw [Option.elim_some, Option.getD_some, Mat4.Exact.mul_assoc]

end Path

namespace Scene

/-- The matrix of a node is that of its path. -/
theorem WellFormed.worldMatrix_eq (h : scene.WellFormed) {key : NodeKey}
    (hkey : (scene.node? key).isSome) :
    worldMatrix key scene = ⟨.ok (scene.path key).world, scene, []⟩ := by
  obtain ⟨node, hnode⟩ := Option.isSome_iff_exists.1 hkey
  obtain ⟨above, hmem, hpath⟩ := h.exists_path hnode
  have hclimbs := h.climbs hmem
  have hlength := length_climb_le scene.nodes scene.size (some key)
  rw [← path, hpath, List.length_cons] at hlength
  rw [hpath]
  rw [worldMatrix, Action.get_bind_apply, Action.check_bind_apply, findNode_eq_ok.2 hnode]
  simp only [Action.pure_apply, hclimbs.ancestors_eq (Nat.le_of_succ_le hlength), Path.foldl_matrix,
    Path.world_cons]

/-- A light is where its node is, for the world and for every camera. -/
structure Placed (scene : Scene α) (entry : Registered α) : Prop where
  worldMatrix_eq : (worldMatrix entry.node scene).result = .ok entry.world
  modelView_eq : ∀ view : Mat4 α,
    (scene.path entry.node).modelView view = view * entry.world

/-- Lights that were collected are where their nodes are. -/
lemma Collected.placed {before : Scene α} (h : scene.Collected before) (hw : scene.WellFormed)
    {m : ManagerKey} {manager : Manager α} (hm : scene.managers.get? m = some manager)
    {entry : Registered α} (hentry : entry ∈ manager.frame.lights) : Placed scene entry := by
  obtain ⟨old, hold⟩ : ∃ old, before.managers.get? m = some old := by
    rw [← Option.isSome_iff_exists, ← h.isSome_eq, hm]
    rfl
  rw [h.frame_eq m old manager hold hm, List.mem_toArray, h.mem_lights] at hentry
  obtain ⟨source, hsource, -, heq⟩ := hentry
  obtain ⟨node, hnode, -⟩ := source?_eq_some.1 hsource
  have hworld : entry.world = (scene.path entry.node).world := (congrArg Registered.world heq :)
  constructor
  case worldMatrix_eq => rw [hw.worldMatrix_eq (Option.isSome_of_mem hnode), hworld]
  case modelView_eq =>
    intro view
    rw [Path.modelView_eq, hworld]

/-- What is drawn is where its node is, seen by the camera. -/
lemma exists_world_of_depicts {list : DrawList α}
    {camera : Camera α} {managers : Managers α} (h : list.Depicts scene camera managers)
    (hw : scene.WellFormed) {draw : Draw α} (hdraw : draw ∈ list.draws) :
    ∃ world, (worldMatrix draw.node scene).result = .ok world ∧
      draw.modelView = camera.view * world := by
  obtain ⟨node, hnode, -⟩ := (h.mem_draws draw.node).1 (List.mem_map_of_mem hdraw)
  refine ⟨(scene.path draw.node).world, ?_, ?_⟩
  · rw [hw.worldMatrix_eq (Option.isSome_of_mem hnode)]
  · rw [h.modelView_eq draw hdraw, Path.modelView_eq]

/-- If matrices multiply without rounding, then after a frame has begun all lights are where their
nodes are, and what is drawn is where its node is, seen by the camera. -/
theorem places_agree (run : List (Step α)) :
    ((beginFrame (after run)).result = .ok () → ∀ m manager,
      (beginFrame (after run)).state.managers.get? m = some manager →
      ∀ entry ∈ manager.frame.lights, Placed (beginFrame (after run)).state entry) ∧
    ∀ camera list, (drawList camera (after run)).result = .ok list → ∀ draw ∈ list.draws,
      ∃ world, (worldMatrix draw.node (after run)).result = .ok world ∧
        draw.modelView = camera.view * world := by
  have hw := wellFormed_after run
  constructor
  · intro hok m manager hm entry hentry
    exact (hw.collected hok).placed hw.beginFrame hm hentry
  · intro camera list hok draw hdraw
    exact exists_world_of_depicts (depicts_of_answers hw (Action.answers_of_result hok)) hw hdraw

end Scene

end Exact

namespace Scene

/-- A lamp and a table in a hall that was moved, with exact numbers. -/
noncomputable def moved : List (Step ℝ) :=
  [.add ⟨1, 1⟩ "place" (.transform (Mat4.translation ⟨1, 2, 3⟩)),
    .add ⟨2, 1⟩ "hall" (.manager .standard), .add ⟨3, 1⟩ "lamp" (.light ⟨.standard, 2⟩),
    .add ⟨3, 1⟩ "table" (.drawable ⟨⟨1, 0, 0⟩, 1⟩), .beginFrame]

theorem places_agree_moved : ∃ manager list,
    (beginFrame (after moved)).state.managers.get? ⟨1, 1⟩ = some manager ∧
      manager.frame.lights.size = 1 ∧
      (∀ entry ∈ manager.frame.lights, Placed (beginFrame (after moved)).state entry) ∧
      (drawList .identity (after moved)).result = .ok list ∧
      (∃ draw ∈ list.draws, draw.node = ⟨5, 1⟩) ∧
      ∀ draw ∈ list.draws, ∃ world, (worldMatrix draw.node (after moved)).result = .ok world ∧
        draw.modelView = (1 : Mat4 ℝ) * world := by
  obtain ⟨hlights, hdraws⟩ := places_agree moved
  have hok : (beginFrame (after moved)).result = .ok () := by decide +kernel
  have hsize : ((beginFrame (after moved)).state.managers.get? ⟨1, 1⟩).map
      (fun m => m.frame.lights.size) = some 1 := rfl
  obtain ⟨manager, hm, hone⟩ := Option.map_eq_some_iff.1 hsize
  have hfault : (drawList .identity).fault? (after moved) = none := by
    rw [(wellFormed_after moved).fault?_drawList]
    rfl
  obtain ⟨list, _, hlist, -⟩ := Action.fault?_eq_none.1 hfault
  have htable : ((after moved).node? ⟨5, 1⟩).map Node.isDrawable = some true := rfl
  obtain ⟨node, hnode, hdrawable⟩ := Option.map_eq_some_iff.1 htable
  have hdepicts := depicts_of_answers (wellFormed_after moved) (Action.answers_of_result hlist)
  have hdraw := (hdepicts.mem_draws ⟨5, 1⟩).2 ⟨node, hnode, hdrawable⟩
  exact ⟨manager, list, hm, hone, hlights hok _ manager hm, hlist, List.mem_map.1 hdraw,
    hdraws .identity list hlist⟩

end Scene

end SceneLighting
