import SceneLighting.Proofs.Scene.Renewal

/-!
# What frames leave behind

A frame is made from the nodes and from what managers are for, and from nothing that was known of
the frame before. So whatever is done in a frame leaves no trace in the next, be it that the frame
could not begin, that something was drawn in it or that somebody asked its managers for more.
-/

namespace SceneLighting

open SceneLighting.Action

variable {α : Type}

/-- The manager without the number of its frame. -/
def Manager.unnumbered (m : Manager α) : Manager α :=
  { m with frame := { m.frame with number := 0 } }

namespace Scene

variable {scene scene' : Scene α}

/-! ### Scenes -/

/-- The scenes differ in what their managers know of frames, and in nothing else. -/
structure Twin (scene scene' : Scene α) : Prop where
  nodes_eq : scene'.nodes = scene.nodes
  root_eq : scene'.root = scene.root
  managers : Managers.Twin scene.managers scene'.managers

namespace Twin

lemma refl (scene : Scene α) : Twin scene scene :=
  ⟨rfl, rfl, .refl _⟩

lemma symm (h : Twin scene scene') : Twin scene' scene :=
  ⟨h.nodes_eq.symm, h.root_eq.symm, Eq.symm h.managers⟩

lemma trans {scene'' : Scene α} (h : Twin scene scene') (h' : Twin scene' scene'') :
    Twin scene scene'' :=
  ⟨h'.nodes_eq.trans h.nodes_eq, h'.root_eq.trans h.root_eq, h.managers.trans _ _ _ h'.managers⟩

lemma exists_managers (h : Twin scene scene') : ∃ managers,
    scene' = { scene with managers } ∧ Managers.Twin scene.managers managers := by
  obtain ⟨nodes, managers, root⟩ := scene'
  obtain ⟨rfl, rfl, hm⟩ := h
  exact ⟨managers, rfl, hm⟩

end Twin

/-! ### Steps that do not look at frames -/

lemma respects_add (parent : NodeKey) (name : String) (content : Content α) :
    (add parent name content).Respects Twin := by
  intro scene scene' h
  obtain ⟨managers', rfl, hm⟩ := h.exists_managers
  rw [add, get_bind_apply, get_bind_apply]
  apply Agree.check_bind rfl h
  intro _ _
  rw [check_bind_apply, check_bind_apply]
  obtain ⟨fault, h₁, h₂⟩ | ⟨kind, after, after', h₁, h₂, hafter⟩ := hm.realize content
  · rw [h₁, h₂]
    exact ⟨rfl, h⟩
  · rw [h₁, h₂]
    exact ⟨rfl, rfl, rfl, hafter⟩

lemma respects_erase (key : NodeKey) : (erase (α := α) key).Respects Twin := by
  intro scene scene' h
  obtain ⟨managers', rfl, hm⟩ := h.exists_managers
  rw [erase, get_bind_apply, get_bind_apply]
  apply Agree.check_bind rfl h
  intro node _
  refine ⟨rfl, rfl, rfl, ?_⟩
  show SlotMap.map _ (List.foldl _ _ _) = SlotMap.map _ (List.foldl _ _ _)
  rw [SlotMap.map_foldl_erase, SlotMap.map_foldl_erase, hm]

lemma respects_setTransform (key : NodeKey) (matrix : Mat4 α) :
    (setTransform key matrix).Respects Twin := by
  intro scene scene' h
  obtain ⟨managers', rfl, hm⟩ := h.exists_managers
  rw [setTransform, get_bind_apply, get_bind_apply]
  apply Agree.check_bind rfl h
  exact fun _ _ => ⟨rfl, rfl, rfl, hm⟩

lemma respects_modifySource (key : NodeKey) (f : LightSource α → LightSource α) :
    (modifySource key f).Respects Twin := by
  intro scene scene' h
  obtain ⟨managers', rfl, hm⟩ := h.exists_managers
  have hsource : ({ scene with managers := managers' } : Scene α).source? key =
    scene.source? key := rfl
  rw [modifySource, modifySource, hsource]
  cases scene.source? key with
  | none => exact ⟨rfl, h⟩
  | some source => exact ⟨rfl, rfl, rfl, hm⟩

lemma respects_attach (key managerNode : NodeKey) :
    (attach (α := α) key managerNode).Respects Twin := by
  intro scene scene' h
  obtain ⟨managers', rfl, hm⟩ := h.exists_managers
  rw [attach, get_bind_apply, get_bind_apply]
  apply Agree.check_bind rfl h
  intro _ _
  apply Agree.check_bind rfl h
  exact fun _ _ => ⟨rfl, rfl, rfl, hm⟩

/-- To be attached is no matter of frames. -/
lemma respects_decorate (key : NodeKey) : (decorate (α := α) key).Respects Twin := by
  intro scene scene' h
  obtain ⟨managers', rfl, hm⟩ := h.exists_managers
  rw [decorate, get_bind_apply, get_bind_apply]
  apply Agree.check_bind rfl h
  rintro ⟨node, m⟩ -
  have hget := hm.get?_idle m
  dsimp only
  rw [check_bind_apply, check_bind_apply, findManager, findManager]
  cases h₁ : scene.managers.get? m <;> cases h₂ : managers'.get? m <;> simp [h₁, h₂] at hget
  case none.none => exact ⟨rfl, h⟩
  case some.some manager manager' =>
    have hdecorated : manager'.isDecorated = manager.isDecorated :=
      (congrArg Manager.isDecorated hget :)
    dsimp only
    rw [hdecorated]
    split
    · exact ⟨rfl, h⟩
    · refine ⟨rfl, rfl, rfl, hm.modify m fun a b _ _ hab => ?_⟩
      exact (congrArg (fun manager => { manager with isDecorated := true }) hab :)

variable [Scalar α]

lemma respects_beginFrame : (beginFrame (α := α)).Respects Twin := by
  intro scene scene' h
  obtain ⟨managers', rfl, hm⟩ := h.exists_managers
  have htree : ({ scene with managers := managers' } : Scene α).tree = scene.tree := rfl
  rw [beginFrame, get_bind_apply, get_bind_apply, htree]
  have hpass : (onManagers (scene.tree.collect 1 none)).Respects Twin :=
    .on (Forest.respects_collect _ _ _) (fun _ _ h => h.managers)
      fun _ _ _ _ h hm => ⟨h.nodes_eq, h.root_eq, hm⟩
  exact (hpass.bind fun pending => .forM fun key _ =>
    (respects_decorate key).bind fun _ => .pure _) scene _ h

/-! ### What frames do -/

lemma twin_drawList (camera : Camera α) (scene : Scene α) :
    Twin scene (drawList camera scene).state := by
  obtain ⟨managers, hstate, hm⟩ := exists_drawList_state_of_keyed Managers.Twin.refl
    Managers.Twin.trans (fun _ _ _ _ bound modelView => twin_onManagerKey
      (fun m => Manager.idle_select camera bound modelView m) _ _ _) scene
    fun _ _ _ _ _ => trivial
  rw [hstate]
  exact ⟨rfl, rfl, hm⟩

/-- Whether a step is of the frame that it is made in, and of no other: something is drawn, a frame
cannot begin, or a manager is changed by hand in what it knows of its frame. -/
def Step.IsFleeting (scene : Scene α) : Step α → Prop
  | .drawList _    => True
  | .beginFrame    => ∃ fault, (Scene.beginFrame scene).result = .error fault
  | .onManager _ f => ∀ m, (f m).idle = m.idle
  | _              => False

theorem WellFormed.twin_of_isFleeting (h : scene.WellFormed) {step : Step α}
    (hstep : step.IsFleeting scene) : Twin scene (step.apply scene) := by
  cases step <;> try exact hstep.elim
  case beginFrame =>
    obtain ⟨fault, hfault⟩ := hstep
    obtain ⟨fault', managers, log, hcollect, ho⟩ | ⟨_, _, _, _, _, _, -, -, -, ho⟩ :=
      h.beginFrame_cases
    · have htwin := scene.tree.twin_collect 1 none scene.managers
      rw [hcollect] at htwin
      rw [Step.apply, ho]
      exact ⟨rfl, rfl, htwin⟩
    · simp [ho] at hfault
  case drawList camera => exact twin_drawList camera scene
  case onManager key f =>
    rw [Step.apply, Scene.onManager]
    split
    next m manager hkey hmanager =>
      rw [manager?, hkey, Option.bind_some] at hmanager
      refine ⟨rfl, rfl, .modify_right _ _ fun manager' hmanager' => ?_⟩
      obtain rfl : manager = manager' := by simpa [hmanager] using hmanager'
      exact hstep manager
    next => exact .refl scene

/-- A step that is not made by hand does not look at what managers know of frames. -/
theorem Twin.apply (h : Twin scene scene') {step : Step α} (hstep : step.IsByScene) :
    Twin (step.apply scene) (step.apply scene') := by
  cases step with
  | add parent name content => exact (respects_add parent name content _ _ h).2
  | erase key => exact (respects_erase key _ _ h).2
  | setTransform key matrix => exact (respects_setTransform key matrix _ _ h).2
  | modifySource key f => exact (respects_modifySource key f _ _ h).2
  | decorate key => exact (respects_decorate key _ _ h).2
  | attach key managerNode => exact (respects_attach key managerNode _ _ h).2
  | beginFrame => exact (respects_beginFrame _ _ h).2
  | drawList camera =>
    exact (twin_drawList camera scene).symm.trans (h.trans (twin_drawList camera scene'))
  | onManager key f => exact hstep.elim

/-! ### The next frame -/

/-- The scenes have the same nodes and the same managers, whatever the managers know of frames. -/
structure Alike (scene scene' : Scene α) : Prop where
  node?_eq : ∀ key, scene'.node? key = scene.node? key
  idle_eq : ∀ m,
    (scene'.managers.get? m).map Manager.idle = (scene.managers.get? m).map Manager.idle

/-- The scenes are the same but for the numbers of the frames of their managers. -/
structure SameButNumbers (scene scene' : Scene α) : Prop where
  root_eq : scene'.root = scene.root
  node?_eq : ∀ key, scene'.node? key = scene.node? key
  managers_eq : ∀ m, (scene'.managers.get? m).map Manager.unnumbered =
    (scene.managers.get? m).map Manager.unnumbered

omit [Scalar α] in
lemma Twin.alike (h : Twin scene scene') : Alike scene scene' where
  node?_eq key := by rw [node?, h.nodes_eq, node?]
  idle_eq := h.managers.get?_idle

namespace Alike

variable (h : Alike scene scene') (hwf : scene.WellFormed) (hwf' : scene'.WellFormed)

include h

omit [Scalar α] in
lemma shapes_eq : Nodes.shapes scene'.nodes = Nodes.shapes scene.nodes := by
  funext key
  rw [Nodes.shapes, ← node?, h.node?_eq, node?, Nodes.shapes]

omit [Scalar α] in
lemma selectors_eq : Nodes.selectors scene'.nodes = Nodes.selectors scene.nodes := by
  funext key
  rw [Nodes.selectors, ← node?, h.node?_eq, node?, Nodes.selectors]

omit [Scalar α] in
/-- Claims are made by managers that are not attached, whatever they know of frames. -/
lemma assigned_iff {key : NodeKey} {m : ManagerKey} :
    scene'.Assigned key m ↔ scene.Assigned key m := by
  have hpending : scene'.Pending m ↔ scene.Pending m := by
    rw [pending_iff, pending_iff, ← Manager.map_isDecorated_idle, h.idle_eq,
      Manager.map_isDecorated_idle]
  rw [Assigned, Assigned, Nodes.Waits, Nodes.Waits, h.shapes_eq, h.selectors_eq, hpending]

include hwf hwf'

omit [Scalar α] in
/-- The root is the one node that has no parent. -/
lemma root_eq : scene'.root = scene.root := by
  obtain ⟨s, hs, hparent⟩ := hwf'.tree.root_parent
  rw [h.shapes_eq] at hs
  by_contra hne
  obtain ⟨p, t, hp, -⟩ := hwf.tree.up hs hne
  simp [hparent] at hp

omit [Scalar α] in
lemma paths_eq : scene'.paths = scene.paths := by
  have hspans : ∀ {keys : List NodeKey} {forest : Forest α},
      Forest.Spans scene.nodes keys forest → Forest.Spans scene'.nodes keys forest := by
    intro keys forest hforest
    induction hforest with
    | nil => exact .nil
    | tree hnode _ _ ihc ihr => exact .tree ((h.node?_eq _).trans hnode) ihc ihr
  obtain ⟨s, hs, -⟩ := hwf'.tree.root_parent
  have htree : scene.tree = scene'.tree := by
    have hspans := hspans hwf.spans
    rw [← h.root_eq hwf hwf'] at hspans
    exact hspans.eq_ofKeys hwf'.tree (Shape.abreast_single (by simp [hs]))
  rw [paths, paths, htree]

/-- A frame begins in both scenes, or in neither. -/
lemma result_eq : (Scene.beginFrame scene').result = (Scene.beginFrame scene).result := by
  have hfault : Scene.beginFrame.fault? scene' = Scene.beginFrame.fault? scene := by
    rw [hwf'.fault?_beginFrame, hwf.fault?_beginFrame, h.paths_eq hwf hwf']
  cases hresult : (Scene.beginFrame scene).result with
  | error fault =>
    rwa [Action.fault?_eq_some.2 hresult, Action.fault?_eq_some] at hfault
  | ok =>
    rw [Action.fault?_eq_none.2 ⟨_, _, Action.answers_of_result hresult⟩] at hfault
    obtain ⟨_, _, hanswers⟩ := Action.fault?_eq_none.1 hfault
    exact hanswers.1

/-- What managers knew before does not show once a frame has begun, but for the number of frames. -/
theorem sameButNumbers (hok : (Scene.beginFrame scene).result = .ok ()) :
    SameButNumbers (Scene.beginFrame scene).state (Scene.beginFrame scene').state := by
  have hrenewed := hwf.renewed hok
  have hrenewed' := hwf'.renewed ((h.result_eq hwf hwf').trans hok)
  constructor
  case root_eq => rw [hrenewed'.root_eq, hrenewed.root_eq, h.root_eq hwf hwf']
  case node?_eq =>
    intro key
    apply node?_eq_of_bare
    · exact (hrenewed'.bare_eq key).trans
        ((congrArg _ (h.node?_eq key)).trans (hrenewed.bare_eq key).symm)
    · apply Option.ext
      intro m
      rw [hrenewed'.selectors_iff, hrenewed.selectors_iff, h.assigned_iff]
  case managers_eq =>
    intro m
    have hlights : scene'.lightsOf m = scene.lightsOf m := by
      rw [hwf'.lightsOf_eq, hwf.lightsOf_eq, h.paths_eq hwf hwf']
    have hsettings : ∀ o : Option (Manager α),
        (o.map fun manager : Manager α => (⟨manager.settings, true,
          .collected (manager.frame.number + 1) (scene.lightsOf m)⟩ : Manager α)).map
            Manager.unnumbered =
        (o.map Manager.idle).map fun manager => ⟨manager.settings, true,
          .collected 0 (scene.lightsOf m)⟩ :=
      fun o => by
        rw [Option.map_map, Option.map_map]
        rfl
    rw [hrenewed'.managers_eq, hrenewed.managers_eq, hlights, hsettings, hsettings, h.idle_eq]

end Alike

/-! ### Runs -/

/-- The second run is the first without some steps that are of one frame only. -/
inductive Sheds : List (Step α) → List (Step α) → Prop where
  | nil : Sheds [] []
  | keep {run run' : List (Step α)} {step : Step α} (h : Sheds run run')
      (hstep : step.IsByScene) : Sheds (run ++ [step]) (run' ++ [step])
  | drop {run run' : List (Step α)} {step : Step α} (h : Sheds run run')
      (hstep : step.IsFleeting (after run)) : Sheds (run ++ [step]) run'

lemma Sheds.refl {run : List (Step α)} (h : ∀ step ∈ run, step.IsByScene) : Sheds run run := by
  induction run using List.reverseRecOn with
  | nil => exact .nil
  | append_singleton run step ih =>
    exact .keep (ih fun s hs => h s (by simp [hs])) (h step (by simp))

/-- What is left out only changed what managers know of frames, also when the scene was edited later
on. -/
theorem Sheds.twin {run run' : List (Step α)} (h : Sheds run run') :
    Twin (after run) (after run') := by
  induction h with
  | nil => exact .refl _
  | keep _ hstep ih =>
    rw [after_concat, after_concat]
    exact ih.apply hstep
  | drop _ hstep ih =>
    rw [after_concat]
    exact ((wellFormed_after _).twin_of_isFleeting hstep).symm.trans ih

/-- A frame begins alike in scenes that have the same nodes and managers, whatever was known of
frames before. So what was done in one frame only leaves no trace after the next. -/
theorem beginFrame_leaves_no_trace :
    (∀ run run' : List (Step α), Alike (after run) (after run') →
      (beginFrame (after run')).result = (beginFrame (after run)).result ∧
      ((beginFrame (after run)).result = .ok () →
        SameButNumbers (beginFrame (after run)).state (beginFrame (after run')).state)) ∧
    ∀ run run' : List (Step α), Sheds run run' →
      (beginFrame (after run')).result = (beginFrame (after run)).result ∧
      ((beginFrame (after run)).result = .ok () →
        SameButNumbers (beginFrame (after run)).state (beginFrame (after run')).state ∧
        Twin (beginFrame (after run)).state (beginFrame (after run')).state) := by
  have halike : ∀ run run' : List (Step α), Alike (after run) (after run') →
      (beginFrame (after run')).result = (beginFrame (after run)).result ∧
      ((beginFrame (after run)).result = .ok () →
        SameButNumbers (beginFrame (after run)).state (beginFrame (after run')).state) := by
    intro run run' h
    have hwf := wellFormed_after run
    have hwf' := wellFormed_after run'
    exact ⟨h.result_eq hwf hwf', h.sameButNumbers hwf hwf'⟩
  refine ⟨halike, fun run run' h => ?_⟩
  obtain ⟨hresult, hsame⟩ := halike run run' h.twin.alike
  exact ⟨hresult, fun hok => ⟨hsame hok, (respects_beginFrame _ _ h.twin).2⟩⟩

/-- Two edits of a hall: a light is put outside and taken away again. -/
def moonlight : List (Step Float32) :=
  hall ++ [.add ⟨1, 1⟩ "moon" (.light ⟨.standard, 9⟩)] ++ [.erase ⟨5, 1⟩]

/-- The same with something drawn before, and with a frame that cannot begin in between. -/
def moonlitFrame : List (Step Float32) :=
  hall ++ [.drawList .identity] ++ [.add ⟨1, 1⟩ "moon" (.light ⟨.standard, 9⟩)] ++ [.beginFrame] ++
    [.erase ⟨5, 1⟩]

theorem beginFrame_leaves_no_trace_moonlight :
    Sheds moonlitFrame moonlight ∧ (beginFrame (after moonlitFrame)).result = .ok () ∧
      SameButNumbers (beginFrame (after moonlitFrame)).state
        (beginFrame (after moonlight)).state := by
  have hfault : beginFrame.fault? (after (hall ++ [.drawList .identity] ++
      [.add ⟨1, 1⟩ "moon" (.light ⟨.standard, 9⟩)])) = some (.lightOutsideManager "moon") := by
    decide +kernel
  have hsheds : Sheds moonlitFrame moonlight := by
    refine .keep (.drop (.keep (.drop (.refl ?_) ?_) ?_) ?_) ?_
    · simp [hall, Step.IsByScene]
    · trivial
    · trivial
    · exact ⟨_, Action.fault?_eq_some.1 hfault⟩
    · trivial
  have hok : (beginFrame (after moonlitFrame)).result = .ok () := by decide +kernel
  exact ⟨hsheds, hok, ((beginFrame_leaves_no_trace.2 _ _ hsheds).2 hok).1⟩

end Scene

end SceneLighting
