import SceneLighting.Scene.Decoration
import SceneLighting.Scene.Edit
import SceneLighting.Proofs.Action
import SceneLighting.Proofs.Slot.Validity

/-!
# What an edit does

An edit fails and changes nothing, or its checks went well and it does one thing. Each statement
here says for one edit what was checked and what is done.
-/

namespace SceneLighting.Scene

open SceneLighting.Action

variable {α : Type} {scene : Scene α}

/-! ### Checks -/

lemma findNode_eq_ok {key : NodeKey} {node : Node α} :
    scene.findNode key = .ok node ↔ scene.node? key = some node := by
  rw [findNode]
  split <;> simp_all

lemma findManager_eq_ok {key : ManagerKey} {manager : Manager α} :
    scene.findManager key = .ok manager ↔ scene.managers.get? key = some manager := by
  rw [findManager]
  split <;> simp_all

lemma findManagerNode_eq_ok {key : NodeKey} {node : Node α} {manager : ManagerKey} :
    scene.findManagerNode key = .ok (node, manager) ↔
      scene.node? key = some node ∧ node.kind = .manager manager := by
  rw [findManagerNode]
  split
  · simp_all
  · split <;> simp_all <;> grind

lemma checkParent_eq_ok {parent : NodeKey} {name : String} :
    scene.checkParent parent name = .ok () ↔
      ∃ node, scene.node? parent = some node ∧ node.isDrawable = false := by
  rw [checkParent]
  split <;> simp_all

lemma checkRemoval_eq_ok {key : NodeKey} {node : Node α} :
    scene.checkRemoval key = .ok node ↔ key ≠ scene.root ∧ scene.node? key = some node := by
  rw [checkRemoval]
  split <;> simp_all [findNode_eq_ok]

lemma checkTransform_eq_ok {key : NodeKey} :
    scene.checkTransform key = .ok () ↔
      ∃ node matrix, scene.node? key = some node ∧ node.kind = .transform matrix := by
  rw [checkTransform]
  rcases hn : scene.findNode key with e | node
  · have hnone : ∀ node, scene.node? key ≠ some node := fun node h => by
      simp [findNode_eq_ok.2 h] at hn
    simp [hnone, bind, Except.bind]
  · rw [findNode_eq_ok] at hn
    simp only [bind, Except.bind, hn]
    split <;> simp_all

lemma source?_eq_some {key : NodeKey} {source : LightSource α} :
    scene.source? key = some source ↔
      ∃ node, scene.node? key = some node ∧ node.kind = .light source := by
  rw [source?]
  split <;> simp_all
  grind

/-- Only a node with a manager of its own changes the managers, by one more of its settings. -/
lemma realize_eq_ok {content : Content α} {managers managers' : Managers α} {kind : Kind α}
    (h : content.realize managers = .ok (kind, managers')) :
    managers' = managers ∧ (∀ m, kind ≠ .manager m) ∨
      ∃ settings, settings.check = .ok () ∧ kind = .manager managers.nextKey ∧
        managers' = managers.insert (.new settings) := by
  cases content with
  | manager settings =>
    rw [Content.realize, Manager.ofSettings] at h
    cases hc : settings.check with
    | error fault => simp [hc, Except.map] at h
    | ok =>
      simp only [hc, Except.map, Except.ok.injEq, Prod.mk.injEq] at h
      exact Or.inr ⟨settings, hc, h.1.symm, h.2.symm⟩
  | _ =>
    simp only [Content.realize, Except.ok.injEq, Prod.mk.injEq] at h
    exact Or.inl ⟨h.2.symm, by simp [← h.1]⟩

/-! ### Edits -/

theorem add_cases (parent : NodeKey) (name : String) (content : Content α) (scene : Scene α) :
    Fails (add parent name content) scene ∨ ∃ node kind managers,
      scene.node? parent = some node ∧ node.isDrawable = false ∧
      content.realize scene.managers = .ok (kind, managers) ∧
      add parent name content scene =
        ⟨.ok scene.nodes.nextKey, { scene with managers }.withNode parent name kind, []⟩ := by
  rw [Fails, add, get_bind_apply, check_bind_apply]
  rcases hp : scene.checkParent parent name with fault | ⟨⟩
  · exact Or.inl ⟨_, fault, rfl⟩
  obtain ⟨node, hnode, hd⟩ := checkParent_eq_ok.1 hp
  rw [check_bind_apply]
  rcases hc : content.realize scene.managers with fault | ⟨kind, managers⟩
  · exact Or.inl ⟨_, fault, rfl⟩
  · exact Or.inr ⟨node, kind, managers, hnode, hd, rfl, by simp⟩

theorem erase_cases (key : NodeKey) (scene : Scene α) :
    Fails (erase key) scene ∨ ∃ node, key ≠ scene.root ∧ scene.node? key = some node ∧
      erase key scene = ⟨.ok (), scene.withoutTree key node, []⟩ := by
  rw [Fails, erase, get_bind_apply, check_bind_apply]
  rcases hc : scene.checkRemoval key with fault | node
  · exact Or.inl ⟨_, fault, rfl⟩
  · obtain ⟨hroot, hnode⟩ := checkRemoval_eq_ok.1 hc
    exact Or.inr ⟨node, hroot, hnode, rfl⟩

theorem setTransform_cases (key : NodeKey) (matrix : Mat4 α) (scene : Scene α) :
    Fails (setTransform key matrix) scene ∨ ∃ node old,
      scene.node? key = some node ∧ node.kind = .transform old ∧
      setTransform key matrix scene = ⟨.ok (), scene.withKind key (.transform matrix), []⟩ := by
  rw [Fails, setTransform, get_bind_apply, check_bind_apply]
  rcases hc : scene.checkTransform key with fault | ⟨⟩
  · exact Or.inl ⟨_, fault, rfl⟩
  · obtain ⟨node, old, hnode, hkind⟩ := checkTransform_eq_ok.1 hc
    exact Or.inr ⟨node, old, hnode, hkind, rfl⟩

theorem modifySource_cases (key : NodeKey) (f : LightSource α → LightSource α)
    (scene : Scene α) :
    modifySource key f scene = ⟨.ok none, scene, []⟩ ∨ ∃ node source,
      scene.node? key = some node ∧ node.kind = .light source ∧
      modifySource key f scene =
        ⟨.ok (some (f source)), scene.withKind key (.light (f source)), []⟩ := by
  rw [modifySource]
  rcases hs : scene.source? key with _ | source
  · exact Or.inl rfl
  · obtain ⟨node, hnode, hkind⟩ := source?_eq_some.1 hs
    exact Or.inr ⟨node, source, hnode, hkind, rfl⟩

theorem decorate_cases (key : NodeKey) (scene : Scene α) :
    Fails (decorate key) scene ∨ ∃ node managerKey manager,
      scene.node? key = some node ∧ node.kind = .manager managerKey ∧
      scene.managers.get? managerKey = some manager ∧
      decorate key scene =
        if manager.isDecorated then ⟨.ok 0, scene, []⟩
        else ⟨.ok (scene.unlitBy key node).length,
          scene.withDecoration managerKey (scene.unlitBy key node),
          [.decorated node.name (scene.unlitBy key node).length]⟩ := by
  rw [Fails, decorate, get_bind_apply, check_bind_apply]
  rcases hc : scene.findManagerNode key with fault | ⟨node, managerKey⟩
  · exact Or.inl ⟨_, fault, rfl⟩
  obtain ⟨hnode, hkind⟩ := findManagerNode_eq_ok.1 hc
  dsimp only
  rw [check_bind_apply]
  rcases hm : scene.findManager managerKey with fault | manager
  · exact Or.inl ⟨_, fault, rfl⟩
  refine Or.inr ⟨node, managerKey, manager, hnode, hkind, findManager_eq_ok.1 hm, ?_⟩
  by_cases hd : manager.isDecorated <;> simp [hd, bind_apply, Except.map]

theorem attach_cases (key managerNode : NodeKey) (scene : Scene α) :
    Fails (attach key managerNode) scene ∨ ∃ node target manager,
      scene.node? managerNode = some node ∧ node.kind = .manager manager ∧
      scene.node? key = some target ∧
      attach key managerNode scene =
        ⟨.ok (), { scene with nodes := withSelector scene.nodes manager key }, []⟩ := by
  rw [Fails, attach, get_bind_apply, check_bind_apply]
  rcases hc : scene.findManagerNode managerNode with fault | ⟨node, manager⟩
  · exact Or.inl ⟨_, fault, rfl⟩
  obtain ⟨hnode, hkind⟩ := findManagerNode_eq_ok.1 hc
  dsimp only
  rw [check_bind_apply]
  rcases hf : scene.findNode key with fault | target
  · exact Or.inl ⟨_, fault, rfl⟩
  · exact Or.inr ⟨node, target, manager, hnode, hkind, findNode_eq_ok.1 hf, rfl⟩

/-! ### Managers after an edit -/

/-- A manager that is there after a node was added was there before or is new. -/
lemma get?_managers_add (hv : scene.managers.Valid) {parent : NodeKey} {name : String}
    {content : Content α} {m : ManagerKey} {manager : Manager α}
    (hm : (add parent name content scene).state.managers.get? m = some manager) :
    scene.managers.get? m = some manager ∨ ∃ settings, manager = .new settings := by
  obtain hf | ⟨node, kind, managers, -, -, hc, ho⟩ := add_cases parent name content scene
  · rw [hf.state_eq] at hm
    exact Or.inl hm
  rw [ho] at hm
  obtain ⟨rfl, -⟩ | ⟨settings, -, rfl, rfl⟩ := realize_eq_ok hc
  · exact Or.inl hm
  · have hinsert : (scene.managers.insert (.new settings)).get? m = some manager := hm
    rw [hv.get?_insert] at hinsert
    split at hinsert
    · exact Or.inr ⟨settings, (Option.some.inj hinsert).symm⟩
    · exact Or.inl hinsert

lemma get?_managers_erase {key : NodeKey} {m : ManagerKey} {manager : Manager α}
    (hm : (erase key scene).state.managers.get? m = some manager) :
    scene.managers.get? m = some manager := by
  obtain hf | ⟨node, -, -, ho⟩ := erase_cases key scene
  · rwa [hf.state_eq] at hm
  · simp only [ho, withoutTree, SlotMap.get?_foldl_erase] at hm
    split at hm
    · cases hm
    · exact hm

lemma managers_setTransform (key : NodeKey) (matrix : Mat4 α) (scene : Scene α) :
    (setTransform key matrix scene).state.managers = scene.managers := by
  obtain hf | ⟨node, old, -, -, ho⟩ := setTransform_cases key matrix scene
  · rw [hf.state_eq]
  · rw [ho]
    rfl

lemma managers_modifySource (key : NodeKey) (f : LightSource α → LightSource α)
    (scene : Scene α) : (modifySource key f scene).state.managers = scene.managers := by
  obtain ho | ⟨node, source, -, -, ho⟩ := modifySource_cases key f scene <;> rw [ho]
  rfl

lemma managers_attach (key managerNode : NodeKey) (scene : Scene α) :
    (attach key managerNode scene).state.managers = scene.managers := by
  obtain hf | ⟨node, target, manager, -, -, -, ho⟩ := attach_cases key managerNode scene
  · rw [hf.state_eq]
  · rw [ho]

end SceneLighting.Scene
