import SceneLighting.Proofs.Manager.Reach
import SceneLighting.Proofs.Scene.Bounds
import SceneLighting.Proofs.Scene.Culling
import SceneLighting.Proofs.Scene.Descent
import SceneLighting.Proofs.Scene.Failure

/-!
# What is not lit, and does not light

Managers may be used by hand while a scene is used, and sets may be asked for that no selection
would choose. Still no node is given a light that reaches nothing, and a node gets no lights at all
when nothing takes up space there. The numbers may round, be infinite or be no numbers.
-/

namespace SceneLighting

variable {α : Type} [Scalar α]

/-! ### Managers of a scene -/

lemma Manager.isMade_new (settings : Settings) : (Manager.new settings : Manager α).IsMade :=
  ⟨settings, [], rfl⟩

lemma Manager.IsMade.descends {m m' : Manager α} (h : m.IsMade) (hd : Descends m m') :
    m'.IsMade := by
  obtain ⟨settings, uses, rfl⟩ := h
  obtain ⟨more, rfl⟩ := hd
  exact ⟨settings, uses ++ more, by rw [← use_new, ← use_new, use_append]⟩

/-- All managers are new ones after some uses. -/
def Managers.Made (managers : Managers α) : Prop :=
  ∀ key m, managers.get? key = some m → m.IsMade

lemma Managers.Made.evolve {managers managers' : Managers α} (h : managers.Made)
    (he : Evolve Manager.Descends managers managers') : managers'.Made := by
  intro key m' hm'
  obtain ⟨m, hm, hd⟩ := he.exists_before hm'
  exact (h key m hm).descends hd

namespace Scene

variable {scene : Scene α}

/-- By hand a manager is only used, or exchanged for another one that was made. -/
def Step.KeepsMade : Step α → Prop
  | .onManager _ f => ∀ m : Manager α, m.IsMade → (f m).IsMade
  | _              => True

lemma Managers.Made.onManager (h : scene.managers.Made) (key : NodeKey)
    {f : Manager α → Manager α} (hf : ∀ m : Manager α, m.IsMade → (f m).IsMade) :
    (onManager key (.modify f) scene).state.managers.Made := by
  rw [Scene.onManager]
  split
  next managerKey manager _ hmanager =>
    intro m manager' hm'
    obtain ⟨owner, -, howner⟩ := Option.bind_eq_some_iff.1 hmanager
    have hmodify : (scene.managers.modify managerKey fun _ => f manager).get? m = some manager' :=
      hm'
    rw [SlotMap.get?_modify] at hmodify
    split at hmodify
    · obtain ⟨_, -, rfl⟩ := Option.map_eq_some_iff.1 hmodify
      exact hf manager (h owner manager howner)
    · exact h m manager' hmodify
  next => exact h

lemma WellFormed.made_apply (hw : scene.WellFormed) (h : scene.managers.Made) {step : Step α}
    (hstep : step.KeepsMade) : (step.apply scene).managers.Made := by
  have of_uses : step.IsByUses → (step.apply scene).managers.Made := by
    intro hby m manager' hm'
    obtain ⟨-, settings, rfl⟩ | ⟨manager, hm, hd⟩ := hw.new_or_descends hby hm'
    · exact Manager.isMade_new settings
    · exact (h m manager hm).descends hd
  cases step with
  | onManager key f => exact Managers.Made.onManager h key hstep
  | _ => exact of_uses trivial

/-- After any run, all managers of the scene were made by uses. -/
theorem made_after {run : List (Step α)} (hrun : ∀ step ∈ run, step.KeepsMade) :
    (after run).managers.Made := by
  induction run using List.reverseRecOn with
  | nil =>
    intro key m hm
    simp [new] at hm
  | append_singleton run step ih =>
    rw [after_concat]
    exact (wellFormed_after run).made_apply (ih fun s hs => hrun s (by simp [hs]))
      (hrun step (by simp))

end Scene

/-! ### Selections -/

/-- All lights that are selected reach something, and none are where nothing takes up space. -/
structure Selection.Grounded (selection : Selection α) (scene : Scene α)
    (managers : Managers α) : Prop where
  reaching : ∀ lighting, selection.lighting = some lighting → ∃ manager,
    managers.get? lighting.manager = some manager ∧ lighting.set.Reaching manager.frame
  unlit : ¬scene.Occupied selection.node → selection.lighting = none

lemma Selection.Grounded.evolve {selection : Selection α} {scene : Scene α}
    {managers managers' : Managers α} {camera : Camera α}
    (h : selection.Grounded scene managers)
    (he : Managers.Evolve (Manager.Selects camera) managers managers') :
    selection.Grounded scene managers' where
  reaching lighting hlighting := by
    obtain ⟨manager, hm, hreaching⟩ := h.reaching lighting hlighting
    obtain ⟨manager', hm', hselects⟩ := he.exists_after hm
    exact ⟨manager', hm',
      hreaching.grows (.of_sameLights hselects.number_eq hselects.lights)⟩
  unlit := h.unlit

/-- What was selected so far is grounded. -/
structure Culling.Grounded (c : Culling α) (scene : Scene α) : Prop where
  made : c.managers.Made
  selections : ∀ selection ∈ c.selections, selection.Grounded scene c.managers

lemma Culling.grounded_start (camera : Camera α) {scene : Scene α} (h : scene.managers.Made) :
    (start camera scene.managers).Grounded scene :=
  ⟨h, nofun⟩

lemma Culling.Grounded.release {c : Culling α} {scene : Scene α} (h : c.Grounded scene)
    (lighting : Option (Lighting α)) : (c.release lighting).Grounded scene := by
  cases lighting <;> exact ⟨h.made, h.selections⟩

lemma Culling.Grounded.leave {c : Culling α} {scene : Scene α} (h : c.Grounded scene)
    (node : Node α) : (c.leave node).Grounded scene := by
  cases hkind : node.kind <;> simp only [Culling.leave, hkind] <;> exact ⟨h.made, h.selections⟩

lemma Culling.Grounded.enter {c : Culling α} {scene : Scene α} (h : c.Grounded scene)
    (node : Node α) : (c.enter node).Grounded scene := by
  cases hkind : node.kind <;> simp only [Culling.enter, hkind] <;> exact ⟨h.made, h.selections⟩

/-- What a manager selects for the bound of a node is grounded. -/
lemma Culling.Grounded.select [Scalar.Signed α] {c : Culling α} {scene : Scene α}
    (h : c.Grounded scene) {key : NodeKey} {managerKey : ManagerKey} {manager manager' : Manager α}
    (hm : c.managers.get? managerKey = some manager) {camera : Camera α} {bound : Sphere α}
    {modelView : Mat4 α} {set? : Option (LightSet α)}
    (hset : (Manager.select camera bound modelView).Answers manager set? manager')
    (hbound : bound.IsValid → scene.Occupied key) :
    (({ c with managers := c.managers.modify managerKey fun _ => manager' }).select
      ⟨key, set?.map fun set => ⟨managerKey, set⟩⟩).Grounded scene := by
  have evolve : ∀ {R : Manager α → Manager α → Prop}, (∀ m, R m m) → R manager manager' →
      Managers.Evolve R c.managers (c.managers.modify managerKey fun _ => manager') := by
    intro R refl hR
    refine .modify refl fun m hm' => ?_
    obtain rfl : manager = m := Option.some.inj (hm.symm.trans hm')
    exact hR
  have hdescends := (Manager.Descends.select camera bound modelView).of_answers hset
  have hselects := (Manager.keeps_select camera bound modelView).of_answers hset
  constructor
  case made => exact h.made.evolve (evolve Manager.Descends.refl hdescends)
  case selections =>
    intro selection hmem
    rcases List.mem_append.1 hmem with hmem | hmem
    · exact (h.selections selection hmem).evolve (evolve Manager.Selects.refl hselects)
    obtain rfl := List.mem_singleton.1 hmem
    constructor
    case reaching =>
      intro lighting hlighting
      obtain ⟨set, rfl, rfl⟩ := Option.map_eq_some_iff.1 hlighting
      refine ⟨manager', ?_, (h.made managerKey manager hm).reaching_of_select hset⟩
      exact (SlotMap.get?_modify _ _ _ _).trans (by simp [hm])
    case unlit =>
      intro hunoccupied
      have hnone := manager.select_of_not_isValid camera modelView (mt hbound hunoccupied)
      rw [Action.Answers, hnone] at hset
      obtain rfl := Except.ok.inj hset.1
      rfl

namespace Forest

/-- Selecting at a node comes to nothing, or its manager selects and the selection is noted. -/
lemma selectNode_cases (camera : Camera α) (key : NodeKey) (node : Node α) (children : Forest α)
    (c : Culling α) :
    (selectNode camera key node children c).state = c ∨
      ∃ managerKey manager set? manager', c.managers.get? managerKey = some manager ∧
        (Manager.select camera (node.bound children.bound) c.modelView).Answers
          manager set? manager' ∧
        (selectNode camera key node children c).state =
          ({ c with managers := c.managers.modify managerKey fun _ => manager' }).select
            ⟨key, set?.map fun set => ⟨managerKey, set⟩⟩ := by
  unfold selectNode
  cases hsel : node.selector with
  | none => exact Or.inl rfl
  | some managerKey =>
    cases hm : c.managers.get? managerKey with
    | none =>
      left
      simp [Action.bind_apply, Culling.onManagers, Action.on_apply, Scene.onManagerKey_of_none hm]
    | some manager =>
      right
      obtain ⟨set?, manager', hset⟩ :=
        manager.exists_answers_select camera (node.bound children.bound) c.modelView
      refine ⟨managerKey, manager, set?, manager', hm, hset, ?_⟩
      simp [Action.bind_apply, Culling.onManagers, Action.on_apply,
        Scene.onManagerKey_of_get? hm, hset.1, hset.2]

variable [Scalar.Signed α] {scene : Scene α} {camera : Camera α}

lemma grounded_selectNode (hw : scene.WellFormed) {key : NodeKey} {node : Node α}
    {children : Forest α} (hbound : node.bound children.bound = scene.bound key) :
    Action.Keeps (fun c c' : Culling α => c.Grounded scene → c'.Grounded scene)
      (selectNode camera key node children) := by
  intro c hc
  obtain hstate | ⟨managerKey, manager, set?, manager', hm, hset, hstate⟩ :=
    selectNode_cases camera key node children c
  · rwa [hstate]
  · rw [hstate]
    rw [hbound] at hset
    exact hc.select hm hset hw.occupied_of_isValid_bound

/-- All selections that are made in a pass over a forest are grounded. -/
theorem Spans.grounded_draws (hw : scene.WellFormed) {keys : List NodeKey} {forest : Forest α}
    (h : Spans scene.nodes keys forest) :
    Action.Keeps (fun c c' : Culling α => c.Grounded scene → c'.Grounded scene)
      (forest.draws camera) := by
  have refl := fun (c : Culling α) (hc : c.Grounded scene) => hc
  have trans := fun (a b c : Culling α) (hab : a.Grounded scene → b.Grounded scene)
    (hbc : b.Grounded scene → c.Grounded scene) => hbc ∘ hab
  induction h with
  | nil => exact .pure refl _
  | @tree key keys node children rest hnode hchildren _ ihc ihr =>
    have hbound : node.bound children.bound = scene.bound key := by
      rw [Scene.bound_eq hnode, hw.eq_below hnode hchildren]
    refine .bind trans (.modify fun c hc => hc.enter node) fun _ =>
      .bind trans (grounded_selectNode hw hbound) fun lighting => .bind trans ?_ fun _ =>
      .bind trans ihc fun _ => .bind trans (.modify fun c hc => (hc.release lighting).leave node)
        fun _ => .bind trans ihr fun _ => .pure refl _
    exact .bind trans refl fun _ => .pure refl _

end Forest

/-! ### Draw lists -/

namespace Scene

variable {scene : Scene α} {camera : Camera α}

/-- The state in which the pass that makes a draw list ends, also when the list fails. -/
def passed (scene : Scene α) (camera : Camera α) : Culling α :=
  (scene.tree.draws camera (.start camera scene.managers)).state

lemma selections_of_drawList {list : DrawList α}
    (h : (drawList camera scene).result = .ok list) :
    list.selections = (scene.passed camera).selections := by
  obtain ⟨c, hc, hselections, -⟩ := drawList_answers (Action.answers_of_result h)
  rw [hselections, passed, hc.2]

lemma managers_drawList (scene : Scene α) (camera : Camera α) :
    (drawList camera scene).state.managers = (scene.passed camera).managers := by
  rw [drawList, Action.get_bind_apply, Action.on_apply, passed, Action.bind_apply]
  rcases scene.tree.draws camera (.start camera scene.managers) with ⟨_ | _, _, _⟩ <;> rfl

/-- After a run, all that is selected to draw the scene is grounded, also when the list fails. -/
theorem grounded_passed [Scalar.Signed α] {run : List (Step α)}
    (hrun : ∀ step ∈ run, step.KeepsMade) (camera : Camera α) :
    ((after run).passed camera).Grounded (after run) :=
  (wellFormed_after run).spans.grounded_draws (wellFormed_after run) _
    (Culling.grounded_start camera (made_after hrun))

/-- A light whose radius is negative or no number is in no set that is selected, by itself or to
draw a scene, and where no drawable has a valid bound nothing is selected. This is so for all
matrices and whatever sets were asked for before. -/
theorem empty_spheres_unlit :
    (∀ source : LightSource Float32,
      ¬source.Reaches ↔ source.radius < 0 ∨ source.radius.isNaN) ∧
    (∀ (settings : Settings) (uses : List (Session.Step Float32)) (camera : Camera Float32)
        (bound : Sphere Float32) (modelView : Mat4 Float32),
      (∀ set m, (Manager.select camera bound modelView).Answers
        (Session.after settings uses).manager (some set) m → set.Reaching m.frame) ∧
      (¬bound.IsValid → (Manager.select camera bound modelView
        (Session.after settings uses).manager).result = .ok none)) ∧
    ∀ run : List (Step Float32), (∀ step ∈ run, step.KeepsMade) → ∀ camera : Camera Float32,
      (∀ list, (drawList camera (after run)).result = .ok list →
        list.selections = ((after run).passed camera).selections) ∧
      ∀ selection ∈ ((after run).passed camera).selections,
        selection.Grounded (after run) (drawList camera (after run)).state.managers := by
  refine ⟨fun source => source.not_reaches_iff, fun settings uses camera bound modelView => ?_,
    fun run hrun camera => ⟨fun list => selections_of_drawList, ?_⟩⟩
  · have hmade : (Session.after settings uses).manager.IsMade := ⟨settings, uses, rfl⟩
    refine ⟨fun set m => hmade.reaching_of_select, fun hbound => ?_⟩
    rw [Manager.select_of_not_isValid _ camera modelView hbound]
  · rw [managers_drawList]
    exact (grounded_passed hrun camera).selections

/-- A hall with a lamp of negative radius, which is asked for by hand, a torch and a corner where
nothing is. -/
def dusky : List (Step Float32) :=
  [.add ⟨1, 1⟩ "hall" (.manager .standard), .add ⟨2, 1⟩ "lamp" (.light ⟨.standard, -1⟩),
    .add ⟨2, 1⟩ "torch" (.light ⟨.standard, 2⟩),
    .add ⟨2, 1⟩ "table" (.drawable ⟨⟨1, 0, 0⟩, 1⟩), .add ⟨2, 1⟩ "corner" .group,
    .attach ⟨6, 1⟩ ⟨2, 1⟩, .beginFrame,
    .onManager ⟨2, 1⟩ fun m => (Manager.request [0] m).state]

lemma keepsMade_dusky : ∀ step ∈ dusky, step.KeepsMade := by
  simp only [dusky, List.forall_mem_cons, Step.KeepsMade, true_and]
  exact ⟨fun m hm => hm.descends (.request [0] m), nofun⟩

/-- The set of the lamp is in the cache. The hall is lit by the torch alone, and the corner by
nothing. -/
theorem empty_spheres_unlit_dusky :
    (∀ step ∈ dusky, step.KeepsMade) ∧
      ((after dusky).managers.get? ⟨1, 1⟩).map
        (fun m => m.frame.cache.map LightSet.indices) = some [[0]] ∧
      ((after dusky).passed .identity).selections.map
        (fun s => (s.node, s.lighting.map fun lighting => lighting.set.indices)) =
        [(⟨2, 1⟩, some [1]), (⟨6, 1⟩, none)] ∧
      ∀ selection ∈ ((after dusky).passed .identity).selections,
        selection.Grounded (after dusky) (drawList .identity (after dusky)).state.managers := by
  refine ⟨keepsMade_dusky, by decide +kernel, by decide +kernel, ?_⟩
  exact (empty_spheres_unlit.2.2 dusky keepsMade_dusky .identity).2

end Scene

end SceneLighting
