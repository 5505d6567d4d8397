import SceneLighting.Proofs.Scene.Decoration
import SceneLighting.Proofs.Scene.Run

/-!
# What a frame collects

The lights of several managers are collected in one pass, so what is done to one manager lies
scattered among what is done to others. Seen from one manager, the pass is a list of visits: it
begins a frame at the manager's own node, which comes before all nodes that it lights, and after
that only lights are registered.
-/

namespace SceneLighting

variable {α : Type} [Scalar α]

namespace Path

/-- Whether the last node of a path owns the manager `m`. -/
def Begins (m : ManagerKey) (path : Path α) : Prop :=
  ∃ key node above, path = (key, node) :: above ∧ node.owned = some m

/-- The light that the last node of a path has for the manager `m`, as it is registered. -/
def light? (m : ManagerKey) (path : Path α) : Option (Registered α) :=
  match path with
  | []               => none
  | (key, node) :: _ =>
    match node.kind with
    | .light source =>
      if path.owner = some m then some ⟨key, source, path.world, .invalid⟩ else none
    | _ => none

/-- What meeting the last node of a path does to the manager `m`. -/
def visit (m : ManagerKey) (manager : Manager α) (path : Path α) : Manager α :=
  match path with
  | []               => manager
  | (key, node) :: _ =>
    match node.kind with
    | .manager own  =>
      if own = m then { manager with frame := .blank (manager.frame.number + 1) } else manager
    | .light source =>
      if path.owner = some m then manager.register key source path.world else manager
    | _ => manager

end Path

/-! ### Visits -/

/-- An action does to each manager what visits along `paths` do to it. If it fails, it has gone no
farther than some of the way. -/
def Visits {β : Type} (paths : List (Path α)) (act : Action (Managers α) β) : Prop :=
  ∀ managers, ∃ met ahead, paths = met ++ ahead ∧
    (∀ m, (act managers).state.get? m =
      (managers.get? m).map fun manager => met.foldl (Path.visit m) manager) ∧
    ∀ b, (act managers).result = .ok b → ahead = []

namespace Visits

variable {β γ : Type} {ps qs : List (Path α)}

lemma pure (b : β) : Visits ([] : List (Path α)) (Pure.pure b) :=
  fun managers => ⟨[], [], rfl, fun m => by simp, fun _ _ => rfl⟩

lemma fail (paths : List (Path α)) (part : Part) (fault : Fault) :
    Visits paths (Action.fail part fault : Action (Managers α) β) :=
  fun managers => ⟨[], paths, rfl, fun m => by simp, fun _ h => by simp at h⟩

lemma bind {act : Action (Managers α) β} {next : β → Action (Managers α) γ} (h : Visits ps act)
    (hnext : ∀ b s t, act.Answers s b t → Visits qs (next b)) :
    Visits (ps ++ qs) (act >>= next) := by
  intro managers
  obtain ⟨met, ahead, hsplit, hstate, hok⟩ := h managers
  rw [Action.bind_apply]
  rcases ho : act managers with ⟨fault | b, between, log⟩ <;> rw [ho] at hstate hok
  · exact ⟨met, ahead ++ qs, by rw [hsplit, List.append_assoc], hstate, fun c hc => by simp at hc⟩
  · obtain ⟨met', ahead', hsplit', hstate', hok'⟩ :=
      hnext b managers between (Action.answers_of_eq ho) between
    have hahead : ahead = [] := hok b rfl
    refine ⟨ps ++ met', ahead', by rw [hsplit', List.append_assoc], fun m => ?_, hok'⟩
    rw [hahead, List.append_nil] at hsplit
    rw [hstate', hstate, Option.map_map, hsplit]
    simp [Function.comp_def]

lemma map {act : Action (Managers α) β} (h : Visits ps act) (f : β → γ) :
    Visits ps (act >>= fun b => Pure.pure (f b)) := by
  have := h.bind fun b _ _ _ => Visits.pure (f b)
  rwa [List.append_nil] at this

/-- To meet a path is to do something to one manager, if that manager is there. -/
lemma onManagerKey {path : Path α} {own : ManagerKey} {act : Action (Manager α) β} (part : Part)
    (missing : Fault) (hown : ∀ manager, (act manager).state = path.visit own manager)
    (hother : ∀ m manager, m ≠ own → path.visit m manager = manager) :
    Visits [path] (Scene.onManagerKey own part missing act) := by
  intro managers
  cases hm : managers.get? own with
  | none =>
    rw [Scene.onManagerKey_of_none hm]
    exact ⟨[], [path], rfl, fun m => by simp, fun b hb => by simp at hb⟩
  | some manager =>
    rw [Scene.onManagerKey_of_get? hm]
    refine ⟨[path], [], rfl, fun m => ?_, fun _ _ => rfl⟩
    rw [SlotMap.get?_modify]
    by_cases hmk : m = own
    · subst hmk
      simp [hm, hown]
    · cases hget : managers.get? m <;> simp [hmk, hother]

end Visits

namespace Forest

/-- The last node of a path is visited, and what is below it is told its nearest manager. -/
lemma visits_collectNode (key : NodeKey) (node : Node α) (above : Path α) :
    Visits [(key, node) :: above]
      (collectNode key node (Path.world ((key, node) :: above)) above.owner) := by
  unfold collectNode
  cases hkind : node.kind
  case manager own =>
    refine .map (.onManagerKey _ _ (fun manager => ?_) fun m manager hm => ?_) _
    · simp [Path.visit, hkind, Manager.beginFrame]
    · simp [Path.visit, hkind, hm.symm]
  case light source =>
    cases howner : above.owner with
    | none => exact .fail _ _ _
    | some own =>
      have hpath : Path.owner ((key, node) :: above) = some own := by
        simp [Path.owner_cons, Node.owned, hkind, howner]
      refine .map (.onManagerKey _ _ (fun manager => ?_) fun m manager hm => ?_) _
      · simp [Path.visit, hkind, hpath]
      · simp [Path.visit, hkind, hpath, hm.symm]
  all_goals
    intro managers
    refine ⟨[(key, node) :: above], [], rfl, fun m => ?_, fun _ _ => rfl⟩
    cases managers.get? m <;> simp [Path.visit, hkind]

lemma owner_of_collectNode {key : NodeKey} {node : Node α} {above : Path α}
    {managers after : Managers α} {inner : Option ManagerKey} {pending : Bool}
    (h : (collectNode key node (Path.world ((key, node) :: above)) above.owner).Answers
      managers (inner, pending) after) :
    inner = Path.owner ((key, node) :: above) := by
  unfold collectNode at h
  rw [Path.owner_cons]
  cases hkind : node.kind <;> simp only [hkind] at h
  case manager own =>
    simp only [Action.answers_bind, Action.answers_pure, Prod.mk.injEq] at h
    obtain ⟨_, _, -, ⟨rfl, -⟩, -⟩ := h
    simp [Node.owned, hkind]
  case light source =>
    cases howner : above.owner <;> simp [howner] at h
    simp [Node.owned, hkind, h.2.1.symm]
  all_goals
    obtain ⟨⟨rfl, -⟩, -⟩ : (above.owner = inner ∧ _) ∧ _ := by simpa using h
    simp [Node.owned, hkind]

/-- A pass through a forest visits along its paths. -/
theorem visits_collect (forest : Forest α) (above : Path α) :
    Visits (forest.paths above) (forest.collect above.world above.owner) := by
  induction forest generalizing above with
  | nil => exact .pure _
  | lost key rest => exact .fail _ _ _
  | tree key node children rest ihc ihr =>
    rw [collect, ← Path.world_cons key, paths]
    refine (visits_collectNode key node above).bind ?_
    rintro ⟨inner, pending⟩ _ _ h
    obtain rfl := owner_of_collectNode h
    exact (ihc _).bind fun _ _ _ _ => (ihr above).map _

end Forest

/-! ### One manager -/

namespace Path

variable {m : ManagerKey} {path : Path α}

lemma light?_eq_some {entry : Registered α} :
    path.light? m = some entry ↔ ∃ key node above source, path = (key, node) :: above ∧
      node.kind = .light source ∧ path.owner = some m ∧
      entry = ⟨key, source, path.world, .invalid⟩ := by
  rcases path with _ | ⟨⟨key, node⟩, above⟩
  · simp [light?]
  · cases hkind : node.kind <;> simp [light?, hkind, eq_comm]

lemma light?_bare (m : ManagerKey) (path : Path α) : path.bare.light? m = path.light? m := by
  rcases path with _ | ⟨⟨key, node⟩, above⟩
  · rfl
  · have howner := owner_bare ((key, node) :: above)
    have hworld := world_bare ((key, node) :: above)
    rw [bare_cons] at howner hworld ⊢
    simp only [light?, howner, hworld]
    rfl

lemma light?_of_begins (h : path.Begins m) : path.light? m = none := by
  obtain ⟨key, node, above, rfl, howned⟩ := h
  cases hkind : node.kind <;> simp_all [light?, Node.owned]

lemma visit_of_begins (h : path.Begins m) (manager : Manager α) :
    visit m manager path = { manager with frame := .blank (manager.frame.number + 1) } := by
  obtain ⟨key, node, above, rfl, howned⟩ := h
  cases hkind : node.kind <;> simp_all [visit, Node.owned]

/-- Where no frame begins, lights are registered and nothing else is done. -/
lemma visit_of_not_begins (h : ¬path.Begins m) (manager : Manager α) :
    visit m manager path =
      match path.light? m with
      | none       => manager
      | some entry => manager.register entry.node entry.source entry.world := by
  rcases path with _ | ⟨⟨key, node⟩, above⟩
  · rfl
  · cases hkind : node.kind <;> simp only [visit, light?, hkind]
    case manager own =>
      have hown : own ≠ m := by
        rintro rfl
        exact h ⟨key, node, above, rfl, by simp [Node.owned, hkind]⟩
      simp [hown]
    case light source => split <;> rfl

end Path

/-- The frame of a manager when `lights` were registered and nothing else happened. -/
def Frame.collected (number : Nat) (lights : List (Registered α)) : Frame α where
  number := number
  lights := lights.toArray
  cache := []
  preparedView := none
  stats := ⟨lights.length, 0, 0, 0, 0⟩

@[simp] lemma Frame.register_collected (number : Nat) (lights : List (Registered α))
    (node : NodeKey) (source : LightSource α) (world : Mat4 α) :
    (collected number lights).register node source world =
      .collected number (lights ++ [⟨node, source, world, .invalid⟩]) := by
  simp [Frame.register, collected]

/-- Where no frame begins, all lights for the manager are registered in their order. -/
lemma foldl_visit_of_not_begins {m : ManagerKey} {paths : List (Path α)}
    (h : ∀ path ∈ paths, ¬path.Begins m) {manager : Manager α} {number : Nat}
    {lights : List (Registered α)} (hframe : manager.frame = .collected number lights) :
    paths.foldl (Path.visit m) manager =
      { manager with frame := .collected number (lights ++ paths.filterMap (Path.light? m)) } := by
  induction paths generalizing manager lights with
  | nil => simp [← hframe]
  | cons path paths ih =>
    rw [List.foldl_cons, Path.visit_of_not_begins (h path (by simp))]
    cases hlight : path.light? m with
    | none => simpa [hlight] using ih (fun p hp => h p (by simp [hp])) hframe
    | some entry =>
      have hregister : (manager.register entry.node entry.source entry.world).frame =
          .collected number (lights ++ [entry]) := by
        rw [Manager.register, hframe, Frame.register_collected]
        obtain ⟨_, _, _, _, -, -, -, rfl⟩ := Path.light?_eq_some.1 hlight
        rfl
      rw [ih (fun p hp => h p (by simp [hp])) hregister, List.filterMap_cons_some hlight]
      simp [Manager.register]

lemma foldl_visit_of_idle {m : ManagerKey} {paths : List (Path α)}
    (h : ∀ path ∈ paths, ¬Path.Begins m path ∧ Path.light? m path = none) (manager : Manager α) :
    paths.foldl (Path.visit m) manager = manager := by
  induction paths with
  | nil => rfl
  | cons path paths ih =>
    obtain ⟨hbegins, hlight⟩ := h path (by simp)
    rw [List.foldl_cons, Path.visit_of_not_begins hbegins, hlight]
    exact ih fun p hp => h p (by simp [hp])

namespace Scene

variable {scene : Scene α}

/-- The lights of a manager, each before those below it and children in their order. -/
def lightsOf (scene : Scene α) (m : ManagerKey) : List (Registered α) :=
  scene.tree.preorder.filterMap fun (key, _) => (scene.path key).light? m

lemma WellFormed.lightsOf_eq (h : scene.WellFormed) (m : ManagerKey) :
    scene.lightsOf m = scene.paths.filterMap (Path.light? m) := by
  rw [h.paths_eq, List.filterMap_map]
  rfl

omit [Scalar α] in
/-- A node is met after the node that owns its manager. -/
lemma exists_begins {met ahead : List (Path α)} (h : scene.paths = met ++ ahead) {m : ManagerKey}
    {path : Path α} (hp : path ∈ met) (howner : path.owner = some m) :
    ∃ begun ∈ met, begun.Begins m := by
  induction path with
  | nil => simp at howner
  | cons e above ih =>
    obtain ⟨key, node⟩ := e
    rw [Path.owner_cons] at howner
    cases howned : node.owned with
    | some own =>
      obtain rfl : own = m := by simpa [howned] using howner
      exact ⟨_, hp, key, node, above, rfl, howned⟩
    | none =>
      rw [howned, Option.none_or] at howner
      obtain rfl | habove := Forest.tail_mem_of_paths scene.tree h hp
      · simp at howner
      · exact ih habove howner

/-- The node of a manager is met once. Nothing before it has to do with the manager. -/
lemma WellFormed.exists_begun (h : scene.WellFormed) {m : ManagerKey}
    (hm : (scene.managers.get? m).isSome) :
    ∃ met begun ahead, scene.paths = met ++ begun :: ahead ∧ Path.Begins m begun ∧
      (∀ path ∈ met, ¬Path.Begins m path ∧ Path.light? m path = none) ∧
      ∀ path ∈ ahead, ¬Path.Begins m path := by
  obtain ⟨key, s, hs, howned⟩ := h.owners.owner hm
  obtain ⟨node, hnode, rfl⟩ := Forest.exists_of_shapes hs
  obtain ⟨above, hmem, hpath⟩ := h.exists_path hnode
  obtain ⟨met, ahead, hsplit⟩ := List.append_of_mem hmem
  have honly : ∀ path ∈ scene.paths, Path.Begins m path → path = (key, node) :: above := by
    rintro _ hp ⟨key', node', above', rfl, howned'⟩
    have hs' := Forest.shapes_of_get? (h.mem_preorder.1 (filterMap_head?_paths scene ▸
      List.mem_filterMap.2 ⟨_, hp, List.head?_cons⟩))
    obtain rfl := h.owners.unique hs hs' howned howned'
    rw [← hpath, h.path_eq hp]
  have hnodup := h.nodup_paths
  rw [hsplit, List.nodup_append, List.nodup_cons] at hnodup
  have hmet : ∀ path ∈ met, ¬Path.Begins m path := fun path hp hb =>
    hnodup.2.2 path hp _ (by simp) (honly path (by simp [hsplit, hp]) hb)
  refine ⟨met, _, ahead, hsplit, ⟨key, node, above, rfl, howned⟩, fun path hp => ⟨hmet path hp, ?_⟩,
    fun path hp hb => ?_⟩
  · -- a light for the manager would come after its node
    by_contra hlight
    obtain ⟨entry, hentry⟩ := Option.ne_none_iff_exists'.1 hlight
    obtain ⟨_, _, _, _, -, -, howner, -⟩ := Path.light?_eq_some.1 hentry
    obtain ⟨begun, hb, hbegun⟩ := exists_begins hsplit hp howner
    exact hmet begun hb hbegun
  · have heq := honly path (by simp [hsplit, hp]) hb
    exact hnodup.2.1.1 (heq ▸ hp)

/-- When some of the way has been gone, a manager has not been reached yet, or its frame has begun
and some of its lights are registered. -/
lemma WellFormed.foldl_visit_prefix (h : scene.WellFormed) {met ahead : List (Path α)}
    (hsplit : scene.paths = met ++ ahead) {m : ManagerKey} {manager : Manager α}
    (hm : scene.managers.get? m = some manager) :
    met.foldl (Path.visit m) manager = manager ∧ ahead ≠ [] ∨
      met.foldl (Path.visit m) manager =
        { manager with
          frame := .collected (manager.frame.number + 1) (met.filterMap (Path.light? m)) } := by
  have hlive : (scene.managers.get? m).isSome := by simp [hm]
  obtain ⟨idle, begun, rest, hsplit', hbegun, hidle, hrest⟩ := h.exists_begun hlive
  rw [hsplit] at hsplit'
  obtain ⟨more, rfl, hahead⟩ | ⟨more, rfl, hmore⟩ := List.append_eq_append_iff.1 hsplit'
  · exact Or.inl ⟨foldl_visit_of_idle (fun path hp => hidle path (by simp [hp])) manager,
      by simp [hahead]⟩
  rcases more with _ | ⟨begun', more⟩
  · rw [List.nil_append] at hmore
    exact Or.inl ⟨by rw [List.append_nil, foldl_visit_of_idle hidle], by simp [← hmore]⟩
  · obtain ⟨rfl, rfl⟩ : begun = begun' ∧ rest = more ++ ahead := by simpa using hmore
    have hlights : (idle ++ begun :: more).filterMap (Path.light? m) =
        more.filterMap (Path.light? m) := by
      rw [List.filterMap_append, List.filterMap_cons_none (Path.light?_of_begins hbegun),
        List.filterMap_eq_nil_iff.2 fun path hp => (hidle path hp).2, List.nil_append]
    have hframe : ({ manager with frame := .blank (manager.frame.number + 1) } : Manager α).frame =
        .collected (manager.frame.number + 1) [] := rfl
    right
    rw [hlights, List.foldl_append, foldl_visit_of_idle hidle, List.foldl_cons,
      Path.visit_of_begins hbegun,
      foldl_visit_of_not_begins (fun path hp => hrest path (by simp [hp])) hframe,
      List.nil_append]

/-- One pass through the scene begins one frame for each manager and registers its lights. -/
theorem WellFormed.foldl_visit (h : scene.WellFormed) {m : ManagerKey} {manager : Manager α}
    (hm : scene.managers.get? m = some manager) :
    scene.paths.foldl (Path.visit m) manager =
      { manager with frame := .collected (manager.frame.number + 1) (scene.lightsOf m) } := by
  obtain ⟨-, hne⟩ | heq := h.foldl_visit_prefix (List.append_nil _).symm hm
  · exact absurd rfl hne
  · rw [heq, h.lightsOf_eq]

/-- One pass gives each manager a new frame with all its lights. -/
lemma WellFormed.get?_of_collect (h : scene.WellFormed) {pending : List NodeKey}
    {managers : Managers α}
    (hok : (scene.tree.collect 1 none).Answers scene.managers pending managers) (m : ManagerKey) :
    managers.get? m = (scene.managers.get? m).map fun manager =>
      { manager with frame := .collected (manager.frame.number + 1) (scene.lightsOf m) } := by
  obtain ⟨met, ahead, hsplit, hstate, hend⟩ := Forest.visits_collect scene.tree [] scene.managers
  obtain rfl := hend pending hok.1
  rw [List.append_nil] at hsplit
  have hget := hstate m
  rw [← hsplit] at hget
  rw [← hok.2]
  refine hget.trans ?_
  cases hm : scene.managers.get? m with
  | none => rfl
  | some manager => exact congrArg some (h.foldl_visit hm)

/-! ### All managers -/

/-- What is lit by whom does not depend on selectors. -/
lemma Relit.lightsOf_eq {before after : Scene α} (h : Relit before after) (hb : before.WellFormed)
    (ha : after.WellFormed) (m : ManagerKey) : after.lightsOf m = before.lightsOf m := by
  have hbare : ∀ paths : List (Path α), (paths.map Path.bare).filterMap (Path.light? m) =
      paths.filterMap (Path.light? m) := fun paths => by
    rw [List.filterMap_map]
    exact List.filterMap_congr fun path _ => Path.light?_bare m path
  rw [ha.lightsOf_eq, hb.lightsOf_eq, ← hbare, h.paths_eq hb ha, hbare]

/-- After one pass through the scene only decoration comes. -/
lemma relit_beginFrame (scene : Scene α) :
    Relit { scene with managers := (scene.tree.collect 1 none scene.managers).state }
      (beginFrame scene).state := by
  rw [beginFrame, Action.get_bind_apply, Action.bind_apply, onManagers, Action.on_apply]
  rcases scene.tree.collect 1 none scene.managers with ⟨fault | pending, managers, log⟩
  · exact .refl _
  · exact keeps_decorate_all pending _

lemma exists_collect_of_beginFrame (h : (beginFrame scene).result = .ok ()) :
    ∃ pending, (scene.tree.collect 1 none scene.managers).result = .ok pending := by
  rw [beginFrame, Action.get_bind_apply, Action.bind_apply, onManagers, Action.on_apply] at h
  rcases ho : scene.tree.collect 1 none scene.managers with ⟨fault | pending, managers, log⟩
  · simp [ho] at h
  · exact ⟨pending, rfl⟩

/-- When a frame begins, even if not for all managers, each manager has the frame that it had or a
new one with some lights registered. -/
theorem WellFormed.frame_beginFrame (h : scene.WellFormed) {m : ManagerKey} {manager' : Manager α}
    (hm' : (Scene.beginFrame scene).state.managers.get? m = some manager') :
    ∃ manager, scene.managers.get? m = some manager ∧ manager'.settings = manager.settings ∧
      (manager'.frame = manager.frame ∨
        ∃ lights, manager'.frame = .collected (manager.frame.number + 1) lights) := by
  obtain ⟨between, hget, hsettings, hframe⟩ := (relit_beginFrame scene).managers.exists_before hm'
  obtain ⟨met, ahead, hsplit, hstate, -⟩ := Forest.visits_collect scene.tree [] scene.managers
  obtain ⟨manager, hm, hvisits⟩ := Option.map_eq_some_iff.1 ((hstate m).symm.trans hget)
  refine ⟨manager, hm, ?_⟩
  rw [hsettings, hframe, ← hvisits]
  obtain ⟨heq, -⟩ | heq := h.foldl_visit_prefix hsplit hm <;> rw [heq]
  · exact ⟨rfl, Or.inl rfl⟩
  · exact ⟨rfl, Or.inr ⟨_, rfl⟩⟩

/-- All managers have the lights that they are to have when a frame begins, where `before` is the
scene until then. -/
structure Collected (scene before : Scene α) : Prop where
  /-- Of the nodes only the selectors have changed. -/
  nodes_eq : ∀ key, (scene.node? key).map Node.bare = (before.node? key).map Node.bare
  isSome_eq : ∀ m, (scene.managers.get? m).isSome = (before.managers.get? m).isSome
  frame_eq : ∀ m manager manager', before.managers.get? m = some manager →
    scene.managers.get? m = some manager' →
    manager'.frame =
      { number := manager.frame.number + 1
        lights := (scene.lightsOf m).toArray
        cache := []
        preparedView := none
        stats := ⟨(scene.lightsOf m).length, 0, 0, 0, 0⟩ }
  /-- A manager has exactly the light sources that it is the nearest manager of. -/
  mem_lights : ∀ m entry, entry ∈ scene.lightsOf m ↔
    ∃ source, scene.source? entry.node = some source ∧ (scene.path entry.node).owner = some m ∧
      entry = ⟨entry.node, source, (scene.path entry.node).world, .invalid⟩
  nodup_lights : ∀ m, ((scene.lightsOf m).map Registered.node).Nodup

lemma WellFormed.mem_lightsOf (h : scene.WellFormed) {m : ManagerKey} {entry : Registered α} :
    entry ∈ scene.lightsOf m ↔
      ∃ source, scene.source? entry.node = some source ∧ (scene.path entry.node).owner = some m ∧
        entry = ⟨entry.node, source, (scene.path entry.node).world, .invalid⟩ := by
  simp only [lightsOf, List.mem_filterMap, Prod.exists, source?_eq_some]
  constructor
  · rintro ⟨key, node, hmem, hlight⟩
    obtain ⟨key', node', above, source, hpath, hkind, howner, rfl⟩ := Path.light?_eq_some.1 hlight
    obtain rfl := key_of_path_eq hpath
    obtain ⟨above', -, hpath'⟩ := h.exists_path (h.mem_preorder.1 hmem)
    obtain ⟨rfl, -⟩ : node = node' ∧ _ := by simpa [hpath] using hpath'.symm
    exact ⟨source, ⟨node, h.mem_preorder.1 hmem, hkind⟩, howner, rfl⟩
  · rintro ⟨source, ⟨node, hnode, hkind⟩, howner, heq⟩
    obtain ⟨above, -, hpath⟩ := h.exists_path hnode
    refine ⟨entry.node, node, h.mem_preorder.2 hnode, ?_⟩
    exact Path.light?_eq_some.2 ⟨_, node, above, source, hpath, hkind, howner, heq⟩

lemma WellFormed.nodup_lightsOf (h : scene.WellFormed) (m : ManagerKey) :
    ((scene.lightsOf m).map Registered.node).Nodup := by
  have hkeys : (scene.lightsOf m).map Registered.node = scene.tree.keys.filterMap fun key =>
      ((scene.path key).light? m).map Registered.node := by
    rw [lightsOf, List.map_filterMap, Forest.keys, List.filterMap_map]
    rfl
  have hkey : ∀ {key k : NodeKey},
      ((scene.path key).light? m).map Registered.node = some k → k = key := by
    intro key k hk
    obtain ⟨entry, hlight, rfl⟩ := Option.map_eq_some_iff.1 hk
    obtain ⟨k, _, _, _, hpath, -, -, rfl⟩ := Path.light?_eq_some.1 hlight
    exact key_of_path_eq hpath
  rw [hkeys]
  exact h.nodup_keys.filterMap fun a b k ha hb => (hkey ha).symm.trans (hkey hb)

theorem WellFormed.collected (h : scene.WellFormed)
    (hok : (Scene.beginFrame scene).result = .ok ()) :
    (Scene.beginFrame scene).state.Collected scene := by
  have hrelit := relit_beginFrame scene
  obtain ⟨pending, hpending⟩ := exists_collect_of_beginFrame hok
  have hbetween := h.withManagers (keeps_collect_managers scene.tree 1 none scene.managers)
  have hget := h.get?_of_collect (Action.answers_of_result hpending)
  constructor
  case nodes_eq => exact hrelit.nodes
  case isSome_eq =>
    intro m
    rw [hrelit.managers.isSome_eq m, hget, Option.isSome_map]
  case frame_eq =>
    intro m manager manager' hm hm'
    obtain ⟨between, hm', -, hframe⟩ := hrelit.managers.exists_before hm'
    have hlights := hrelit.lightsOf_eq hbetween h.beginFrame m
    rw [hget, hm, Option.map_some, Option.some.injEq] at hm'
    rw [hframe, hlights, ← hm']
    rfl
  case mem_lights => exact fun m entry => h.beginFrame.mem_lightsOf
  case nodup_lights => exact h.beginFrame.nodup_lightsOf

/-- After any run, beginning a frame collects the lights. -/
theorem beginFrame_collects (run : List (Step α))
    (h : (Scene.beginFrame (after run)).result = .ok ()) :
    (Scene.beginFrame (after run)).state.Collected (after run) :=
  (wellFormed_after run).collected h

/-- The lights of the house. Those on the stand are moved with it, and the candle is not one of the
hall's. -/
theorem beginFrame_collects_house :
    (Scene.beginFrame (after house)).result = .ok () ∧
      (Scene.beginFrame (after house)).state.Collected (after house) ∧
      [⟨1, 1⟩, ⟨2, 1⟩].map (fun m =>
        ((Scene.beginFrame (after house)).state.managers.get? m).map fun manager =>
          (manager.frame.number, manager.frame.lights.toList.map fun entry =>
            (entry.node, entry.world.toList))) =
        [some (2, [(⟨4, 1⟩, (Mat4.translation ⟨4, 0, 0⟩).toList), (⟨9, 1⟩, Mat4.toList 1)]),
          some (2, [(⟨6, 1⟩, (Mat4.translation ⟨4, 0, 0⟩).toList)])] := by
  have hok : (Scene.beginFrame (after house)).result = .ok () := by decide +kernel
  exact ⟨hok, beginFrame_collects house hok, by decide +kernel⟩

/-- The bounds of registered lights are no bounds yet. -/
example : ¬(Sphere.invalid : Sphere Float32).IsValid := by
  decide +kernel

end Scene

end SceneLighting
