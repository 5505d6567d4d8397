import SceneLighting.Proofs.Scene.Attachment
import SceneLighting.Proofs.Scene.Collection
import SceneLighting.Proofs.Scene.Failure
import SceneLighting.Proofs.Scene.Twins

/-!
# A frame that cannot begin

The lights are collected in one pass over the nodes, which does nothing but meet one path after
another. It ends early at the first light that no manager stands above, and then no manager is
attached and no node is changed. Nothing else goes wrong, on the way or after it.
-/

namespace SceneLighting

variable {α : Type}

/-- What is wrong with the last node of a path: it is a light, and no manager stands above it. -/
def Path.strayFault? (path : Path α) : Option Fault :=
  match path with
  | []                 => none
  | (_, node) :: above =>
    match node.kind with
    | .light _ => if (owner above).isSome then none else some (.lightOutsideManager node.name)
    | _        => none

variable [Scalar α]

/-- What meeting the last node of a path does to the managers at the beginning of a frame. Answers
the node if its manager is still to be attached. -/
def Path.collect (path : Path α) : Action (Managers α) (List NodeKey) :=
  match path with
  | []                   => return []
  | (key, node) :: above =>
    (fun answer => if answer.2 then [key] else []) <$>
      Forest.collectNode key node (world ((key, node) :: above)) (owner above)

/-! ### One path after another -/

/-- One pass over a forest meets its paths in order. -/
theorem Forest.Spans.collect_eq {nodes : Nodes α} {keys : List NodeKey} {forest : Forest α}
    (h : Spans nodes keys forest) (above : Path α) :
    forest.collect above.world above.owner =
      List.flatten <$> (forest.paths above).mapM Path.collect := by
  induction h generalizing above with
  | nil => rfl
  | @tree key keys node children rest _ _ _ ihc ihr =>
    rw [collect, ← Path.world_cons key, paths, List.mapM_cons, List.mapM_append, Path.collect]
    simp only [← bind_pure_comp, bind_assoc, pure_bind]
    -- what is below is told its nearest manager by what is answered here
    apply Action.bind_congr_of_answers
    rintro ⟨inner, pending⟩ _ _ h
    obtain rfl := owner_of_collectNode h
    rw [ihc, ihr]
    simp only [← bind_pure_comp, bind_assoc, pure_bind, List.flatten_cons, List.flatten_append,
      List.append_assoc]

namespace Path

variable {path : Path α} {managers after : Managers α}

lemma twin_collect (path : Path α) : path.collect.Keeps Managers.Twin := by
  rcases path with _ | ⟨⟨key, node⟩, above⟩
  · exact .pure Managers.Twin.refl _
  · rw [collect, ← bind_pure_comp]
    apply Action.Keeps.bind Managers.Twin.trans (Forest.twin_collectNode key node _ _)
    exact fun _ => .pure Managers.Twin.refl _

lemma visits_collect (path : Path α) : Visits [path] path.collect := by
  rcases path with _ | ⟨⟨key, node⟩, above⟩
  · refine fun managers => ⟨[[]], [], rfl, fun m => ?_, fun _ _ => rfl⟩
    cases hm : managers.get? m <;> simp [collect, visit, hm]
  · rw [collect, ← bind_pure_comp]
    exact (Forest.visits_collectNode key node above).map _

lemma visits_mapM_collect (paths : List (Path α)) : Visits paths (paths.mapM collect) := by
  induction paths with
  | nil => exact .pure _
  | cons path paths ih =>
    rw [List.mapM_cons]
    exact (visits_collect path).bind fun _ _ _ _ => ih.map _

/-- Where the managers on a path are there, only a stray light fails. -/
lemma fault?_collect (hlive : ∀ m, path.owner = some m → (managers.get? m).isSome) :
    path.collect.fault? managers = path.strayFault? := by
  rcases path with _ | ⟨⟨key, node⟩, above⟩
  · rfl
  rw [owner_cons] at hlive
  rw [collect, ← bind_pure_comp, Action.fault?_bind_pure, Forest.collectNode, strayFault?]
  cases hkind : node.kind with
  | manager own =>
    obtain ⟨manager, hm⟩ := Option.isSome_iff_exists.1 (hlive own (by simp [Node.owned, hkind]))
    simp only [Action.fault?_bind_pure, Scene.fault?_onManagerKey, hm]
    rfl
  | light source =>
    cases howner : owner above with
    | none => rfl
    | some own =>
      obtain ⟨manager, hm⟩ :=
        Option.isSome_iff_exists.1 (hlive own (by simp [Node.owned, hkind, howner]))
      simp only [Action.fault?_bind_pure, Scene.fault?_onManagerKey, hm]
      rfl
  | _ => rfl

/-- What fails at a path changes nothing there. -/
lemma state_collect_of_error {fault : Fault} (h : (path.collect managers).result = .error fault) :
    (path.collect managers).state = managers := by
  rcases path with _ | ⟨⟨key, node⟩, above⟩
  · rfl
  rw [collect, Action.map_apply, Forest.collectNode] at h ⊢
  cases hkind : node.kind with
  | manager own =>
    cases hm : managers.get? own with
    | none => simp [Action.bind_apply, Scene.onManagerKey_of_none hm]
    | some manager =>
      simp [hkind, Action.bind_apply, Scene.onManagerKey_of_get? hm, Manager.beginFrame,
        Except.map] at h
  | light source =>
    cases howner : owner above with
    | none => rfl
    | some own =>
      cases hm : managers.get? own with
      | none => simp [Action.bind_apply, Scene.onManagerKey_of_none hm]
      | some manager =>
        simp [hkind, howner, Action.bind_apply, Scene.onManagerKey_of_get? hm, Except.map] at h
  | _ => rfl

/-- The node of a path is answered if its manager is still to be attached. -/
lemma mem_of_collect {keys : List NodeKey} {key : NodeKey}
    (h : path.collect.Answers managers keys after) :
    key ∈ keys ↔ ∃ node above m, path = (key, node) :: above ∧ node.kind = .manager m ∧
      (managers.get? m).map Manager.isDecorated = some false := by
  rcases path with _ | ⟨⟨key', node⟩, above⟩
  · obtain ⟨rfl, -⟩ := Action.answers_pure.1 h
    simp
  obtain ⟨⟨inner, pending⟩, hnode, rfl⟩ := Action.answers_map.1 h
  have hpending : pending ↔ ∃ m, node.kind = .manager m ∧
      (managers.get? m).map Manager.isDecorated = some false := by
    unfold Forest.collectNode at hnode
    cases hkind : node.kind <;> simp only [hkind] at hnode
    case manager own =>
      obtain ⟨_, _, hown, hanswer⟩ := Action.answers_bind.1 hnode
      obtain ⟨manager, _, hm, hbegun, -⟩ := Scene.answers_onManagerKey.1 hown
      obtain ⟨⟨-, rfl⟩, -⟩ := by simpa using hanswer
      obtain rfl : (!manager.isDecorated) = _ := by simpa [Manager.beginFrame] using hbegun.1
      simp [hm]
    case light source =>
      cases howner : owner above <;> simp [howner] at hnode
      simp [hnode]
    all_goals
      obtain ⟨⟨-, rfl⟩, -⟩ := by simpa using hnode
      simp
  constructor
  · intro hkey
    cases pending with
    | false => simp at hkey
    | true =>
      obtain rfl : key = key' := by simpa using hkey
      obtain ⟨m, hkind, hm⟩ := hpending.1 rfl
      exact ⟨node, above, m, rfl, hkind, hm⟩
  · rintro ⟨_, _, m, hpath, hkind, hm⟩
    obtain ⟨⟨rfl, rfl⟩, rfl⟩ := by simpa using hpath
    simp [hpending.2 ⟨m, hkind, hm⟩]

end Path

/-! ### A whole pass -/

namespace Scene

variable {scene : Scene α} {managers : Managers α}

lemma WellFormed.collect_eq (h : scene.WellFormed) :
    scene.tree.collect 1 none = List.flatten <$> scene.paths.mapM Path.collect :=
  h.spans.collect_eq []

omit [Scalar α] in
/-- The managers on the path of a node are there. -/
lemma WellFormed.isSome_of_path_owner (h : scene.WellFormed) {path : Path α}
    (hp : path ∈ scene.paths) {m : ManagerKey} (hm : path.owner = some m) :
    (scene.managers.get? m).isSome := by
  rcases path with _ | ⟨⟨key, node⟩, above⟩
  · simp at hm
  · exact h.isSome_of_nearest ((h.climbs hp).nearest_iff.2 hm)

/-- At each path only a stray light fails, whatever was collected before. -/
lemma WellFormed.fault?_collect (h : scene.WellFormed) {path : Path α} (hp : path ∈ scene.paths)
    (hm : Managers.Twin scene.managers managers) :
    path.collect.fault? managers = path.strayFault? := by
  apply Path.fault?_collect
  intro m howner
  rw [hm.isSome_eq]
  exact h.isSome_of_path_owner hp howner

/-- Some of the way fails at the first stray light. -/
theorem WellFormed.fault?_mapM_collect (h : scene.WellFormed) {paths : List (Path α)}
    (hp : paths ⊆ scene.paths) :
    (paths.mapM Path.collect).fault? scene.managers = paths.findSome? Path.strayFault? :=
  Action.fault?_mapM Managers.Twin.refl Managers.Twin.trans
    (fun path _ => path.twin_collect) fun _ hpath _ hm => h.fault?_collect (hp hpath) hm

/-- What is answered are the nodes whose managers are still to be attached. -/
theorem WellFormed.mem_pending (h : scene.WellFormed) {pending : List NodeKey}
    (hok : (scene.tree.collect 1 none).Answers scene.managers pending managers)
    {key : NodeKey} : key ∈ pending ↔ ∃ m, scene.managerKey? key = some m ∧ scene.Pending m := by
  obtain ⟨answers, hanswers, rfl⟩ := Action.answers_map.1 (h.collect_eq ▸ hok)
  have hkeeps : ∀ path ∈ scene.paths, Action.Keeps Managers.Twin (Path.collect path) :=
    fun path _ => path.twin_collect
  rw [List.mem_flatten]
  constructor
  · rintro ⟨keys, hkeys, hkey⟩
    obtain ⟨path, hp, t, t', ht, hpath⟩ :=
      Action.exists_of_mem_mapM Managers.Twin.refl Managers.Twin.trans hkeeps hanswers keys hkeys
    obtain ⟨node, above, m, rfl, hkind, hm⟩ := (Path.mem_of_collect hpath).1 hkey
    have hnode : scene.node? key = some node := by
      cases h.climbs hp
      assumption
    refine ⟨m, managerKey?_eq_some.2 ⟨node, hnode, hkind⟩, pending_iff.2 ?_⟩
    rw [← ht.isDecorated_eq, hm]
  · rintro ⟨m, hkey, hm⟩
    obtain ⟨node, hnode, hkind⟩ := managerKey?_eq_some.1 hkey
    obtain ⟨above, hp, -⟩ := h.exists_path hnode
    obtain ⟨keys, hkeys, t, t', ht, hpath⟩ :=
      Action.exists_of_mapM Managers.Twin.refl Managers.Twin.trans hkeeps hanswers _ hp
    refine ⟨keys, hkeys, (Path.mem_of_collect hpath).2 ⟨node, above, m, rfl, hkind, ?_⟩⟩
    rw [ht.isDecorated_eq, pending_iff.1 hm]

/-! ### The beginning of a frame -/

/-- A frame begins with a pass. If the pass fails, that is all, and else the managers that it found
are attached, which does not fail. -/
theorem WellFormed.beginFrame_cases (h : scene.WellFormed) :
    (∃ fault managers log,
      scene.tree.collect 1 none scene.managers = ⟨.error fault, managers, log⟩ ∧
      Scene.beginFrame scene = ⟨.error fault, { scene with managers }, log⟩) ∨
    ∃ pending managers log count after log',
      scene.tree.collect 1 none scene.managers = ⟨.ok pending, managers, log⟩ ∧
      attachedIn log' = count ∧
      Decorated { scene with managers } pending count after ∧
      Scene.beginFrame scene = ⟨.ok (), after, log ++ log'⟩ := by
  simp only [Scene.beginFrame, forM_decorate]
  rw [Action.get_bind_apply, Action.bind_apply, onManagers, Action.on_apply]
  rcases hcollect : scene.tree.collect 1 none scene.managers with ⟨fault | pending, managers, log⟩
  · exact Or.inl ⟨fault, managers, log, rfl, rfl⟩
  · right
    have hkeeps := keeps_collect_managers scene.tree 1 none scene.managers
    rw [hcollect] at hkeeps
    dsimp only at hkeeps
    have hpending : ∀ key ∈ pending,
        (({ scene with managers } : Scene α).managerKey? key).isSome := by
      intro key hkey
      have hanswer : (scene.tree.collect 1 none).Answers scene.managers pending managers :=
        Action.answers_of_eq hcollect
      obtain ⟨m, hm, -⟩ := (h.mem_pending hanswer).1 hkey
      exact Option.isSome_of_mem hm
    obtain ⟨counts, after, log', hall, hlog, hdecorated⟩ :=
      (h.withManagers hkeeps).decorated_all hpending
    refine ⟨pending, managers, log, counts.sum, after, log', rfl, hlog, hdecorated, ?_⟩
    simp [hall, Except.map]

lemma WellFormed.fault?_beginFrame (h : scene.WellFormed) :
    Scene.beginFrame.fault? scene = scene.paths.findSome? Path.strayFault? := by
  rw [← h.fault?_mapM_collect (List.Subset.refl _), ← Action.fault?_bind_pure _ List.flatten,
    bind_pure_comp, ← h.collect_eq]
  obtain ⟨fault, managers, log, hcollect, ho⟩ |
    ⟨pending, managers, log, count, after, log', hcollect, -, -, ho⟩ := h.beginFrame_cases <;>
    rw [Action.fault?, Action.fault?, hcollect, ho]

omit [Scalar α] in
/-- The node is a light, and no manager stands above it. -/
def Stray (scene : Scene α) (key : NodeKey) (node : Node α) : Prop :=
  (∃ source, node.kind = .light source) ∧ ∀ e ∈ scene.path key, e.2.isManager = false

omit [Scalar α] in
lemma WellFormed.strayFault?_eq_some (h : scene.WellFormed) {key : NodeKey} {node : Node α}
    (hnode : scene.node? key = some node) {fault : Fault} :
    (scene.path key).strayFault? = some fault ↔
      scene.Stray key node ∧ fault = .lightOutsideManager node.name := by
  obtain ⟨above, -, hpath⟩ := h.exists_path hnode
  rw [Stray, ← Path.owner_eq_none_iff, hpath, Path.owner_cons, Path.strayFault?]
  cases hkind : node.kind <;> simp [Node.owned, hkind]
  case light source =>
    cases Path.owner above <;> simp [eq_comm]

/-- What is left of a scene when a frame cannot begin, where `earlier` are the nodes that were met
until then. -/
structure Interrupted (before : Scene α) (earlier : List (NodeKey × Node α)) (after : Scene α) :
    Prop where
  nodes_eq : after.nodes = before.nodes
  root_eq : after.root = before.root
  /-- Of managers only the frames have changed. -/
  idle_eq : ∀ m,
    (after.managers.get? m).map Manager.idle = (before.managers.get? m).map Manager.idle
  /-- Managers whose node was not met are as before. -/
  untouched : ∀ m, (∀ e ∈ earlier, e.2.kind ≠ .manager m) →
    after.managers.get? m = before.managers.get? m

/-- A manager is not reached before its node is met. -/
lemma WellFormed.foldl_visit_of_not_met (h : scene.WellFormed)
    {earlier ahead : List (NodeKey × Node α)}
    (hsplit : scene.tree.preorder = earlier ++ ahead) {m : ManagerKey}
    (hm : ∀ e ∈ earlier, e.2.kind ≠ .manager m) (manager : Manager α) :
    (earlier.map fun (key, _) => scene.path key).foldl (Path.visit m) manager = manager := by
  have hpaths := h.paths_eq
  rw [hsplit, List.map_append] at hpaths
  have hbegins : ∀ path ∈ earlier.map fun (key, _) => scene.path key, ¬Path.Begins m path := by
    rintro _ hp ⟨key, node, above, rfl, howned⟩
    obtain ⟨⟨key', node'⟩, he, hpath⟩ := List.mem_map.1 hp
    obtain ⟨above', -, hpath'⟩ :=
      h.exists_path (h.mem_preorder.1 (hsplit ▸ List.mem_append_left _ he))
    obtain ⟨⟨rfl, rfl⟩, -⟩ : (key' = key ∧ node' = node) ∧ _ := by
      simpa using hpath'.symm.trans hpath
    exact hm _ he (Node.owned_eq_some.1 howned)
  apply foldl_visit_of_idle
  intro path hp
  refine ⟨hbegins path hp, Option.eq_none_iff_forall_ne_some.2 fun entry hlight => ?_⟩
  obtain ⟨_, _, _, _, -, -, howner, -⟩ := Path.light?_eq_some.1 hlight
  obtain ⟨begun, hb, hbegun⟩ := exists_begins hpaths hp howner
  exact hbegins begun hb hbegun

section Earlier

variable {earlier ahead : List (NodeKey × Node α)} {answers : List (List NodeKey)}

/-- Nodes that were passed are no stray lights. -/
lemma WellFormed.not_stray_of_passed (h : scene.WellFormed)
    (hsplit : scene.tree.preorder = earlier ++ ahead)
    (hpassed : ((earlier.map fun (key, _) => scene.path key).mapM Path.collect).Answers
      scene.managers answers managers) :
    ∀ e ∈ earlier, ¬scene.Stray e.1 e.2 := by
  intro e he hstray
  have hsub : (earlier.map fun (key, _) => scene.path key) ⊆ scene.paths := by
    rw [h.paths_eq, hsplit, List.map_append]
    exact List.subset_append_left _ _
  have hnone := h.fault?_mapM_collect hsub
  rw [Action.fault?_eq_none.2 ⟨_, _, hpassed⟩, eq_comm, List.findSome?_eq_none_iff] at hnone
  have hnode : scene.node? e.1 = some e.2 :=
    h.mem_preorder.1 (hsplit ▸ List.mem_append_left _ he)
  have hsome := (h.strayFault?_eq_some hnode).2 ⟨hstray, rfl⟩
  rw [hnone _ (List.mem_map_of_mem he)] at hsome
  cases hsome

/-- Managers whose nodes were not passed are as before. -/
lemma WellFormed.get?_of_passed (h : scene.WellFormed)
    (hsplit : scene.tree.preorder = earlier ++ ahead)
    (hpassed : ((earlier.map fun (key, _) => scene.path key).mapM Path.collect).Answers
      scene.managers answers managers)
    {m : ManagerKey} (hm : ∀ e ∈ earlier, e.2.kind ≠ .manager m) :
    managers.get? m = scene.managers.get? m := by
  obtain ⟨met, unmet, hmet, hvisits, hend⟩ :=
    Path.visits_mapM_collect (earlier.map fun (key, _) => scene.path key) scene.managers
  obtain rfl := hend _ hpassed.1
  rw [List.append_nil] at hmet
  rw [← hmet, hpassed.2] at hvisits
  rw [hvisits]
  cases hget : scene.managers.get? m with
  | none => rfl
  | some manager => rw [Option.map_some, h.foldl_visit_of_not_met hsplit hm]

end Earlier

/-- A pass that fails stops at a node, and all nodes before it were passed. -/
lemma WellFormed.exists_of_collect_error (h : scene.WellFormed) {fault : Fault}
    {log : List Event} (hcollect : scene.tree.collect 1 none scene.managers =
      ⟨.error fault, managers, log⟩) :
    ∃ earlier key node later answers,
      scene.tree.preorder = earlier ++ (key, node) :: later ∧
      ((earlier.map fun (key, _) => scene.path key).mapM Path.collect).Answers scene.managers
        answers managers ∧
      (scene.path key).collect.fault? managers = some fault := by
  have hpass := (Action.map_apply List.flatten (scene.paths.mapM Path.collect)
    scene.managers).symm.trans (h.collect_eq ▸ hcollect)
  have hresult : (scene.paths.mapM Path.collect scene.managers).result = .error fault := by
    have hmap : (scene.paths.mapM Path.collect scene.managers).result.map List.flatten =
        .error fault := congrArg Outcome.result hpass
    cases hr : (scene.paths.mapM Path.collect scene.managers).result <;> simp_all [Except.map]
  obtain ⟨done, path, rest, answers, between, hsplit, hdone, hpath, hstate⟩ :=
    Action.exists_of_mapM_error hresult
  obtain rfl : managers = between := by
    rw [← Path.state_collect_of_error hpath, ← hstate]
    exact (congrArg Outcome.state hpass :).symm
  have hpaths := h.paths_eq
  rw [hsplit] at hpaths
  obtain ⟨earlier, ahead, hpreorder, rfl, hahead⟩ := List.map_eq_append_iff.1 hpaths.symm
  obtain ⟨⟨key, node⟩, later, rfl, rfl, -⟩ := List.map_eq_cons_iff.1 hahead
  exact ⟨earlier, key, node, later, answers, hpreorder, hdone, Action.fault?_eq_some.2 hpath⟩

/-- A frame that cannot begin was given up at the first stray light. -/
theorem WellFormed.interrupted (h : scene.WellFormed) {fault : Fault}
    (hfault : (Scene.beginFrame scene).result = .error fault) :
    ∃ earlier key node later, scene.tree.preorder = earlier ++ (key, node) :: later ∧
      scene.Stray key node ∧ (∀ e ∈ earlier, ¬scene.Stray e.1 e.2) ∧
      fault = .lightOutsideManager node.name ∧
      Interrupted scene earlier (Scene.beginFrame scene).state := by
  obtain ⟨fault', after, log, hcollect, ho⟩ | ⟨_, _, _, _, _, _, -, -, -, ho⟩ :=
    h.beginFrame_cases
  case inr => simp [ho] at hfault
  obtain rfl : fault' = fault := by simpa [ho] using hfault
  obtain ⟨earlier, key, node, later, answers, hpreorder, hpassed, hpath⟩ :=
    h.exists_of_collect_error hcollect
  have htwin : Managers.Twin scene.managers after :=
    (Action.Keeps.mapM Managers.Twin.refl Managers.Twin.trans
      fun path _ => path.twin_collect).of_answers hpassed
  have hnode : scene.node? key = some node := h.mem_preorder.1 (by simp [hpreorder])
  have hmem : scene.path key ∈ scene.paths := by
    rw [h.paths_eq, hpreorder]
    simp
  have hstray : scene.Stray key node ∧ fault' = .lightOutsideManager node.name := by
    rw [← h.strayFault?_eq_some hnode, ← h.fault?_collect hmem htwin]
    exact hpath
  refine ⟨earlier, key, node, later, hpreorder, hstray.1, ?_, hstray.2, ?_⟩
  · exact h.not_stray_of_passed hpreorder hpassed
  · rw [ho]
    constructor
    case nodes_eq => rfl
    case root_eq => rfl
    case idle_eq => exact htwin.get?_idle
    case untouched => exact fun m hm => h.get?_of_passed hpreorder hpassed hm

/-- A frame cannot begin exactly if no manager stands above a light. The first such light is named,
nothing changes but frames, and these of managers only whose nodes come before that light. -/
theorem beginFrame_fails (run : List (Step α)) :
    ((∃ fault, (beginFrame (after run)).result = .error fault) ↔
      ∃ key node, (after run).node? key = some node ∧ (after run).Stray key node) ∧
    ∀ fault, (beginFrame (after run)).result = .error fault →
      ∃ earlier key node later, (after run).tree.preorder = earlier ++ (key, node) :: later ∧
        (after run).Stray key node ∧ (∀ e ∈ earlier, ¬(after run).Stray e.1 e.2) ∧
        fault.error = ⟨.lightOutsideManager,
          s!"Light source '{node.name}' has no enclosing LightManager"⟩ ∧
        Interrupted (after run) earlier (beginFrame (after run)).state := by
  have h := wellFormed_after run
  refine ⟨⟨?_, ?_⟩, ?_⟩
  · rintro ⟨fault, hfault⟩
    obtain ⟨earlier, key, node, later, hpreorder, hstray, -⟩ := h.interrupted hfault
    exact ⟨key, node, h.mem_preorder.1 (by simp [hpreorder]), hstray⟩
  · rintro ⟨key, node, hnode, hstray⟩
    have hfault : (beginFrame.fault? (after run)).isSome := by
      obtain ⟨above, hp, hpath⟩ := h.exists_path hnode
      have hsome := (h.strayFault?_eq_some hnode).2 ⟨hstray, rfl⟩
      rw [hpath] at hsome
      rw [h.fault?_beginFrame, List.findSome?_isSome_iff]
      exact ⟨_, hp, Option.isSome_of_mem hsome⟩
    obtain ⟨fault, hfault⟩ := Option.isSome_iff_exists.1 hfault
    exact ⟨fault, Action.fault?_eq_some.1 hfault⟩
  · intro fault hfault
    obtain ⟨earlier, key, node, later, hpreorder, hstray, hearlier, rfl, hleft⟩ :=
      h.interrupted hfault
    exact ⟨earlier, key, node, later, hpreorder, hstray, hearlier, rfl, hleft⟩

/-- The second lamp of a hall stands outside. The frame of the hall has begun when it is met. -/
example : (beginFrame (α := Float32)).fault? (after [
      .add ⟨1, 1⟩ "hall" (.manager .standard), .add ⟨2, 1⟩ "lamp" (.light ⟨.standard, 2⟩),
      .add ⟨1, 1⟩ "moon" (.light ⟨.standard, 9⟩), .add ⟨1, 1⟩ "sun" (.light ⟨.standard, 9⟩)]) =
    some (.lightOutsideManager "moon") := by
  decide +kernel

end Scene

end SceneLighting
