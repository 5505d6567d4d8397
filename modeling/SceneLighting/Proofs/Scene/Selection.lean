import SceneLighting.Proofs.Manager.Selection
import SceneLighting.Proofs.Scene.Collection
import SceneLighting.Proofs.Scene.Culling

/-!
# What the nodes of a scene select

While the managers are left to the scene, their frames only change by beginning anew and by
selections. So they stay sound, and the view that one is prepared for is that of a camera that drew
in the same frame. A draw list then has at each node the first lights that reach the node.
-/

namespace SceneLighting.Scene

variable {α : Type} [Scalar α] {scene : Scene α}

/-! ### Steps -/

/-- What a step by the scene makes of a manager: it stays as it was, is unused in its frame, or was
changed by selections. -/
def Step.Leaves (step : Step α) (scene : Scene α) (m : ManagerKey) (manager' : Manager α) : Prop :=
  (manager'.frame.cache = [] ∧ manager'.frame.preparedView = none) ∨
    ∃ manager, scene.managers.get? m = some manager ∧ (manager'.frame = manager.frame ∨
      ∃ camera, step = .drawList camera ∧ Manager.Selects camera manager manager')

lemma Step.leaves_of_get? {step : Step α} {m : ManagerKey} {manager : Manager α}
    (h : scene.managers.get? m = some manager) : step.Leaves scene m manager :=
  Or.inr ⟨manager, h, Or.inl rfl⟩

theorem WellFormed.leaves (h : scene.WellFormed) {step : Step α} (hstep : step.IsByScene)
    {m : ManagerKey} {manager' : Manager α}
    (hm' : (step.apply scene).managers.get? m = some manager') : step.Leaves scene m manager' := by
  cases step with
  | add =>
    obtain hm | ⟨settings, rfl⟩ := get?_managers_add h.managers hm'
    · exact Step.leaves_of_get? hm
    · exact Or.inl ⟨rfl, rfl⟩
  | erase => exact Step.leaves_of_get? (get?_managers_erase hm')
  | setTransform =>
    rw [Step.apply, managers_setTransform] at hm'
    exact Step.leaves_of_get? hm'
  | modifySource =>
    rw [Step.apply, managers_modifySource] at hm'
    exact Step.leaves_of_get? hm'
  | decorate key =>
    obtain ⟨manager, hm, -, hframe⟩ := (keeps_decorate key scene).managers.exists_before hm'
    exact Or.inr ⟨manager, hm, Or.inl hframe⟩
  | attach =>
    rw [Step.apply, managers_attach] at hm'
    exact Step.leaves_of_get? hm'
  | beginFrame =>
    obtain ⟨manager, hm, -, hframe | ⟨lights, hframe⟩⟩ := h.frame_beginFrame hm'
    · exact Or.inr ⟨manager, hm, Or.inl hframe⟩
    · rw [Step.Leaves, hframe]
      exact Or.inl ⟨rfl, rfl⟩
  | drawList camera =>
    obtain ⟨managers, hs, hevolve⟩ := exists_drawList_state Manager.Selects.refl
      Manager.Selects.trans (Manager.keeps_select camera) scene
    rw [Step.apply, hs] at hm'
    obtain ⟨manager, hm, hselects⟩ := hevolve.exists_before hm'
    exact Or.inr ⟨manager, hm, Or.inr ⟨camera, rfl, hselects⟩⟩
  | onManager => exact absurd hstep id

/-! ### Runs -/

/-- A camera with this view drew in the frame that the manager `m` is in after a run. -/
def Viewed (run : List (Step α)) (m : ManagerKey) (view : Mat4 α) : Prop :=
  ∃ earlier camera later manager manager', run = earlier ++ .drawList camera :: later ∧
    camera.view = view ∧ (after earlier).managers.get? m = some manager ∧
    (after run).managers.get? m = some manager' ∧ manager.frame.number = manager'.frame.number

/-- A view of an earlier part of a run counts as long as the frame does not change. -/
lemma Viewed.concat {run : List (Step α)} {m : ManagerKey} {view : Mat4 α} (h : Viewed run m view)
    {step : Step α} {manager manager' : Manager α}
    (hm : (after run).managers.get? m = some manager)
    (hm' : (after (run ++ [step])).managers.get? m = some manager')
    (hnumber : manager'.frame.number = manager.frame.number) : Viewed (run ++ [step]) m view := by
  obtain ⟨earlier, camera, later, manager₀, manager₁, rfl, hview, hm₀, hm₁, heq⟩ := h
  obtain rfl : manager₁ = manager := by simpa [hm₁] using hm
  exact ⟨earlier, camera, later ++ [step], manager₀, manager', by simp, hview, hm₀, hm',
    heq.trans hnumber.symm⟩

/-- Managers left to the scene stay sound, and are prepared for views that were drawn for. -/
theorem sound_after {run : List (Step α)} (hrun : ∀ step ∈ run, step.IsByScene) {m : ManagerKey}
    {manager : Manager α} (hm : (after run).managers.get? m = some manager) :
    manager.frame.Sound ∧ ∀ view, manager.frame.preparedView = some view → Viewed run m view := by
  induction run using List.reverseRecOn generalizing manager with
  | nil => simp [new] at hm
  | append_singleton run step ih =>
    have hsteps : ∀ s ∈ run, s.IsByScene := fun s hs => hrun s (by simp [hs])
    have hstep := hm
    rw [after_concat] at hstep
    obtain ⟨hcache, hview⟩ | ⟨old, hold, hframe | ⟨camera, rfl, hselects⟩⟩ :=
      (wellFormed_after run).leaves (hrun step (by simp)) hstep
    · exact ⟨Frame.sound_of_unused hcache hview, by simp [hview]⟩
    · obtain ⟨hsound, hviewed⟩ := ih hsteps hold
      rw [hframe]
      refine ⟨hsound, ?_⟩
      intro view hview
      exact (hviewed view hview).concat hold hm (by rw [hframe])
    · obtain ⟨hsound, hviewed⟩ := ih hsteps hold
      refine ⟨hselects.sound hsound, ?_⟩
      intro view hview
      rcases hselects.preparedView with hp | hp
      · exact (hviewed view (hp.symm.trans hview)).concat hold hm hselects.number_eq
      · obtain rfl := Option.some.inj (hp.symm.trans hview)
        exact ⟨run, camera, [], old, manager, rfl, rfl, hold, hm, hselects.number_eq.symm⟩

/-! ### Draw lists -/

/-- A selection has the first of the lights of the manager `m` that reach `bound`, as many as the
cap allows. -/
structure Chooses (selection : Selection α) (m : ManagerKey) (manager : Manager α)
    (camera : Camera α) (bound : Sphere α) : Prop where
  lighting_eq_none_iff : selection.lighting = none ↔
    ∀ (index : Nat) (entry : Registered α), manager.frame.lights[index]? = some entry →
      ¬(Sphere.map (camera.view * entry.world) ⟨0, entry.source.radius⟩).Touches bound
  manager_eq : ∀ lighting, selection.lighting = some lighting → lighting.manager = m
  indices_eq : ∀ lighting, selection.lighting = some lighting → lighting.set.indices =
    (reaching manager.frame.lights camera bound).take manager.settings.cap
  /-- Slots are numbered, and hold the lights as they were registered, each placed in the world. -/
  slots : ∀ lighting, selection.lighting = some lighting →
    ∀ (slot : Nat) (placed : PlacedLight α), lighting.set.slots[slot]? = some placed →
    ∃ entry : Registered α, manager.frame.lights[placed.index]? = some entry ∧
      placed =
        { slot := slot
          index := placed.index
          source := entry.node
          light :=
            { entry.source.light with
              number := slot
              position := entry.world.mulVec entry.source.light.position } }

lemma keeps_selectAt (scene : Scene α) (camera : Camera α) (path : Path α) :
    Action.Keeps (Managers.Evolve (Manager.Selects camera)) (scene.selectAt camera path) := by
  have refl : ∀ x, Managers.Evolve (Manager.Selects camera) x x :=
    Managers.Evolve.refl Manager.Selects.refl
  have trans := Managers.Evolve.trans (R := Manager.Selects camera) Manager.Selects.trans
  unfold selectAt
  split
  · exact .pure refl _
  · split
    · exact .pure refl _
    · exact .bind trans (keeps_onManagerKey Manager.Selects.refl (Manager.keeps_select camera _ _))
        fun _ => .pure refl _

/-- What a manager answers after other selections for the camera is right for the manager as it was
before them. -/
lemma Chooses.of_select {camera : Camera α} {bound : Sphere α} {modelView : Mat4 α} {key : NodeKey}
    {m : ManagerKey} {manager between after : Manager α} {set? : Option (LightSet α)}
    (hsound : manager.frame.Sound) (hcamera : manager.frame.Recognizes camera)
    (hbetween : Manager.Selects camera manager between)
    (hselect : (Manager.select camera bound modelView).Answers between set? after) :
    Chooses ⟨key, set?.map fun set => ⟨m, set⟩⟩ m manager camera (bound.map modelView) := by
  obtain ⟨hnone, hsome⟩ :=
    Manager.answer_of_select (hbetween.sound hsound) (hbetween.recognizes hcamera) hselect
  rw [← hbetween.lights.reaching_eq, hbetween.settings_eq] at hsome
  rw [← hbetween.lights.reaching_eq, reaching_eq_nil_iff] at hnone
  simp only [← hbetween.lights.holds_iff] at hsome
  constructor
  case lighting_eq_none_iff => rw [Option.map_eq_none_iff, hnone]
  case manager_eq =>
    rintro _ hl
    obtain ⟨set, rfl, rfl⟩ := Option.map_eq_some_iff.1 hl
    rfl
  case indices_eq =>
    rintro _ hl
    obtain ⟨set, rfl, rfl⟩ := Option.map_eq_some_iff.1 hl
    exact (hsome set rfl).indices_eq fun index hi =>
      lt_size_of_mem_reaching (List.mem_of_mem_take hi)
  case slots =>
    rintro _ hl slot placed hslot
    obtain ⟨set, rfl, rfl⟩ := Option.map_eq_some_iff.1 hl
    rw [hsome set rfl slot, Option.bind_eq_some_iff] at hslot
    obtain ⟨index, -, hplaced⟩ := hslot
    obtain ⟨entry, hentry, rfl⟩ := Option.map_eq_some_iff.1 hplaced
    exact ⟨entry, hentry, rfl⟩

/-- After any run that leaves the managers to the scene, a draw list has at each node with a manager
the first lights of it that reach the node, unless the manager saw an equal but different view. -/
theorem drawList_chooses {run : List (Step α)} (hrun : ∀ step ∈ run, step.IsByScene)
    {camera : Camera α} {list : DrawList α}
    (h : (drawList camera (after run)).result = .ok list) {key : NodeKey} {node : Node α}
    {m : ManagerKey} (hnode : (after run).node? key = some node) (hm : node.selector = some m)
    (hview : ∀ view, Viewed run m view → view == camera.view → view = camera.view) :
    (∃ selection ∈ list.selections, selection.node = key) ∧
      ∃ manager, (after run).managers.get? m = some manager ∧
        ∀ selection ∈ list.selections, selection.node = key →
          Chooses selection m manager camera
            (((after run).bound key).map (((after run).path key).modelView camera.view)) := by
  have hw := wellFormed_after run
  have hdepicts := depicts_of_answers hw (Action.answers_of_result h)
  obtain ⟨ls, hmade, hflatten⟩ := Action.answers_map.1 hdepicts.selections_made
  obtain ⟨above, hpath, hkey⟩ := hw.exists_path hnode
  -- the node selected in a state that other selections of the same camera led to
  obtain ⟨l, hl, managers, _, hevolve, hat⟩ := Action.exists_of_mapM
    (Managers.Evolve.refl Manager.Selects.refl) (Managers.Evolve.trans Manager.Selects.trans)
    (fun path _ => keeps_selectAt (after run) camera path) hmade _ hpath
  simp only [selectAt, hm, Action.answers_bind, Action.answers_pure, answers_onManagerKey] at hat
  obtain ⟨set?, _, ⟨between, _, hbetween, hselect, -⟩, rfl, -⟩ := hat
  obtain ⟨manager, hmanager, hselects⟩ := hevolve.exists_before hbetween
  obtain ⟨hsound, hviewed⟩ := sound_after hrun hmanager
  have hrecognizes : manager.frame.Recognizes camera := fun view hv heq =>
    hview view (hviewed view hv) heq
  have hchooses : Chooses ⟨key, set?.map fun set => ⟨m, set⟩⟩ m manager camera _ :=
    .of_select hsound hrecognizes hselects hselect
  have hmem : ⟨key, set?.map fun set => ⟨m, set⟩⟩ ∈ list.selections :=
    hflatten ▸ List.mem_flatten.2 ⟨_, hl, List.mem_singleton_self _⟩
  refine ⟨⟨_, hmem, rfl⟩, manager, hmanager, ?_⟩
  intro selection hs hsk
  have heq : selection = ⟨key, set?.map fun set => ⟨m, set⟩⟩ :=
    List.inj_on_of_nodup_map hdepicts.nodup_selections hs hmem hsk
  rw [heq, hkey]
  exact hchooses

/-- A camera that stands back from the scene. -/
def standingBack : Camera Float32 :=
  ⟨Mat4.translation ⟨0, 0, -5⟩, 1⟩

/-- The house, drawn for two cameras. -/
def drawnHouse : List (Step Float32) :=
  house ++ [.drawList standingBack, .drawList .identity]

/-- At the stand the house chooses the lamp and not the lantern, which it is moved away from. The
niche has a manager of its own, and the loft chooses nothing. -/
theorem drawList_chooses_drawnHouse :
    ∃ list, (drawList standingBack (after drawnHouse)).result = .ok list ∧
      (list.selections.map fun selection =>
        (selection.node, selection.lighting.map Lighting.chosen)) =
        [(⟨2, 1⟩, some (⟨1, 1⟩, [0, 1])), (⟨3, 1⟩, some (⟨1, 1⟩, [0])),
          (⟨5, 1⟩, some (⟨2, 1⟩, [0])), (⟨11, 1⟩, none)] ∧
      (∃ selection ∈ list.selections, selection.node = ⟨3, 1⟩) ∧
      ∃ manager, (after drawnHouse).managers.get? ⟨1, 1⟩ = some manager ∧
        ∀ selection ∈ list.selections, selection.node = ⟨3, 1⟩ →
          Chooses selection ⟨1, 1⟩ manager standingBack
            (((after drawnHouse).bound ⟨3, 1⟩).map
              (((after drawnHouse).path ⟨3, 1⟩).modelView standingBack.view)) := by
  have hselector : ((after drawnHouse).node? ⟨3, 1⟩).map Node.selector = some (some ⟨1, 1⟩) := by
    decide +kernel
  obtain ⟨node, hnode, hm⟩ := Option.map_eq_some_iff.1 hselector
  have hrun : ∀ step ∈ drawnHouse, step.IsByScene := by
    simp [drawnHouse, house, Step.IsByScene]
  have hview : ∀ view, Viewed drawnHouse ⟨1, 1⟩ view → view == standingBack.view →
      view = standingBack.view := by
    rintro _ ⟨earlier, camera, later, _, _, hsplit, rfl, -⟩ hequal
    have hmem : Step.drawList camera ∈ drawnHouse := hsplit ▸ by simp
    have hcamera : camera = standingBack ∨ camera = .identity := by
      simpa [drawnHouse, house] using hmem
    obtain rfl | rfl := hcamera
    · rfl
    · have hother : ¬(Camera.identity : Camera Float32).view == standingBack.view := by
        decide +kernel
      exact absurd hequal hother
  exact Action.exists_ok_of_map (by decide +kernel) fun list h =>
    drawList_chooses hrun h hnode hm hview

end SceneLighting.Scene
