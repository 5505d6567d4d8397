import SceneLighting.Proofs.Scene.Links
import SceneLighting.Proofs.Scene.Run

/-!
# Edits that are refused

What an edit needs is looked at before anything is changed: the node that it is about, what that
node is for, and the settings of a manager to be made. So an edit that lacks what it needs fails
and leaves no trace, not even in the keys that are given out later.
-/

namespace SceneLighting

open SceneLighting.Action

variable {σ α β γ : Type}

/-! ### Reasons -/

/-- A check fails with errors of one kind, and for one reason. -/
structure Check.Refuses (e : Except Fault β) (kind : ErrorKind) (bad : Prop) : Prop where
  kind_eq : ∀ fault, e = .error fault → fault.kind = kind
  iff : (∃ fault, e = .error fault) ↔ bad

lemma Check.refuses_of {e : Except Fault β} {kind : ErrorKind} {bad : Prop}
    (herror : ∀ fault, e = .error fault → fault.kind = kind ∧ bad)
    (hok : ∀ b, e = .ok b → ¬bad) : Check.Refuses e kind bad where
  kind_eq fault hf := (herror fault hf).1
  iff := by
    refine ⟨fun ⟨fault, hf⟩ => (herror fault hf).2, fun hbad => ?_⟩
    cases e with
    | error fault => exact ⟨fault, rfl⟩
    | ok b => exact absurd hbad (hok b rfl)

/-- An outcome is a failure for the reasons that `why` tells, each with its kind of error, and for
no other. The state is then the one before. -/
structure Outcome.Refuses (o : Outcome σ β) (before : σ) (why : ErrorKind → Prop) : Prop where
  iff : ∀ kind, (∃ fault, o.result = .error fault ∧ fault.kind = kind) ↔ why kind
  state_eq : ∀ fault, o.result = .error fault → o.state = before

namespace Outcome.Refuses

variable {why why' : ErrorKind → Prop} {s : σ}

lemma congr {o : Outcome σ β} (h : o.Refuses s why) (hwhy : ∀ kind, why kind ↔ why' kind) :
    o.Refuses s why' :=
  ⟨fun kind => (h.iff kind).trans (hwhy kind), h.state_eq⟩

lemma state_eq_of_exists {o : Outcome σ β} (h : o.Refuses s why)
    (herror : ∃ fault, o.result = .error fault) : o.state = s := by
  obtain ⟨fault, hf⟩ := herror
  exact h.state_eq fault hf

/-- What is checked first decides, and what follows only if the check goes well. -/
lemma check_bind {part : Part} {e : Except Fault β} {next : β → Action σ γ} {kind : ErrorKind}
    {bad : Prop} (he : Check.Refuses e kind bad) (hok : ∀ b, e = .ok b → (next b s).Refuses s why) :
    ((check part e >>= next) s).Refuses s fun k => bad ∧ k = kind ∨ ¬bad ∧ why k := by
  rw [check_bind_apply]
  cases e with
  | error fault =>
    have hbad : bad := he.iff.1 ⟨fault, rfl⟩
    refine ⟨fun k => ?_, fun _ _ => rfl⟩
    simp [hbad, he.kind_eq fault rfl, eq_comm]
  | ok b =>
    have hgood : ¬bad := fun hbad => by simpa using he.iff.2 hbad
    exact (hok b rfl).congr fun k => by simp [hgood]

/-- Nothing fails after the last check. -/
lemma check_bind_ok {part : Part} {e : Except Fault β} {next : β → Action σ γ} {kind : ErrorKind}
    {bad : Prop} (he : Check.Refuses e kind bad)
    (hok : ∀ b, e = .ok b → ∃ c, (next b s).result = .ok c) :
    ((check part e >>= next) s).Refuses s fun k => bad ∧ k = kind := by
  have hrest : ∀ b, e = .ok b → (next b s).Refuses s fun _ => False := by
    intro b hb
    obtain ⟨c, hc⟩ := hok b hb
    exact ⟨fun k => by simp [hc], fun fault hf => by simp [hc] at hf⟩
  exact (check_bind he hrest).congr fun k => by simp

end Outcome.Refuses

lemma Node.isDrawable_iff {node : Node α} :
    node.isDrawable ↔ ∃ bound, node.kind = .drawable bound := by
  cases h : node.kind <;> simp [isDrawable, h]

namespace Scene

variable {scene : Scene α} {key parent managerNode : NodeKey} {name : String}

/-- No node can be put below the key: it names no node, or a drawable. -/
def Barren (scene : Scene α) (key : NodeKey) : Prop :=
  ∀ node, scene.node? key = some node → ∃ bound, node.kind = .drawable bound

/-- The key names no transform. -/
def NoTransform (scene : Scene α) (key : NodeKey) : Prop :=
  ∀ node, scene.node? key = some node → ∀ matrix, node.kind ≠ .transform matrix

/-- The key names no manager node. -/
def NoManager (scene : Scene α) (key : NodeKey) : Prop :=
  ∀ node, scene.node? key = some node → ∀ m, node.kind ≠ .manager m

/-! ### Checks -/

lemma refuses_findNode :
    Check.Refuses (scene.findNode key) .invalidNode (scene.node? key = none) := by
  apply Check.refuses_of
  case herror =>
    intro fault hf
    rw [findNode] at hf
    split at hf
    case h_1 => cases hf
    case h_2 hnone => cases hf; exact ⟨rfl, hnone⟩
  case hok =>
    intro node hf
    simp [findNode_eq_ok.1 hf]

lemma refuses_findManagerNode :
    Check.Refuses (scene.findManagerNode key) .invalidNode (scene.NoManager key) := by
  apply Check.refuses_of
  case herror =>
    intro fault hf
    rw [findManagerNode] at hf
    split at hf
    case h_1 hnone =>
      cases hf
      exact ⟨rfl, by simp [NoManager, hnone]⟩
    case h_2 node hnode =>
      split at hf
      case h_1 => cases hf
      case h_2 hkind =>
        cases hf
        exact ⟨rfl, by simpa [NoManager, hnode] using hkind⟩
  case hok =>
    rintro ⟨node, m⟩ hf hbad
    obtain ⟨hnode, hkind⟩ := findManagerNode_eq_ok.1 hf
    exact hbad node hnode m hkind

lemma refuses_checkParent :
    Check.Refuses (scene.checkParent parent name) .invalidNode (scene.Barren parent) := by
  apply Check.refuses_of
  case herror =>
    intro fault hf
    rw [checkParent] at hf
    split at hf
    case h_1 hnone =>
      cases hf
      exact ⟨rfl, by simp [Barren, hnone]⟩
    case h_2 node hnode =>
      split at hf
      case isFalse => cases hf
      case isTrue hd =>
        cases hf
        exact ⟨rfl, by simpa [Barren, hnode] using Node.isDrawable_iff.1 hd⟩
  case hok =>
    rintro ⟨⟩ hf hbad
    obtain ⟨node, hnode, hd⟩ := checkParent_eq_ok.1 hf
    simp [Node.isDrawable_iff.2 (hbad node hnode)] at hd

lemma refuses_checkRemoval :
    Check.Refuses (scene.checkRemoval key) .invalidNode
      (key = scene.root ∨ scene.node? key = none) := by
  rw [checkRemoval]
  split
  case isTrue hroot =>
    refine Check.refuses_of (fun fault hf => ?_) fun node hf => ?_
    · cases hf
      exact ⟨rfl, Or.inl hroot⟩
    · cases hf
  case isFalse hroot => simpa [hroot] using refuses_findNode

lemma refuses_checkTransform :
    Check.Refuses (scene.checkTransform key) .invalidNode (scene.NoTransform key) := by
  apply Check.refuses_of
  case herror =>
    intro fault hf
    rw [checkTransform] at hf
    cases hn : scene.findNode key with
    | error fault' =>
      obtain rfl : fault' = fault := by simpa [hn, bind, Except.bind] using hf
      have hnone := refuses_findNode.iff.1 ⟨fault', hn⟩
      exact ⟨refuses_findNode.kind_eq _ hn, by simp [NoTransform, hnone]⟩
    | ok node =>
      have hnode := findNode_eq_ok.1 hn
      simp only [hn, bind, Except.bind] at hf
      split at hf
      case h_1 => cases hf
      case h_2 hkind =>
        cases hf
        exact ⟨rfl, by simpa [NoTransform, hnode] using hkind⟩
  case hok =>
    rintro ⟨⟩ hf hbad
    obtain ⟨node, matrix, hnode, hkind⟩ := checkTransform_eq_ok.1 hf
    exact hbad node hnode matrix hkind

/-- A manager can be made if it takes between one light and eight. -/
lemma refuses_realize {content : Content α} {managers : Managers α} :
    Check.Refuses (content.realize managers) .invalidConfig
      (∃ settings, content = .manager settings ∧ ¬(1 ≤ settings.cap ∧ settings.cap ≤ 8)) := by
  cases content with
  | manager settings =>
    have hcap : settings.cap = 0 ∨ Settings.limit < settings.cap ↔
        ¬(1 ≤ settings.cap ∧ settings.cap ≤ 8) := by
      rw [Settings.limit]
      omega
    simp only [Content.manager.injEq, exists_eq_left', ← hcap]
    rw [Content.realize, Manager.ofSettings, Settings.check]
    split
    case isTrue h =>
      refine Check.refuses_of (fun fault hf => ?_) fun _ hf => ?_
      · cases hf
        exact ⟨rfl, h⟩
      · cases hf
    case isFalse h => exact Check.refuses_of (fun _ hf => by cases hf) fun _ _ => h
  | group | transform | light | drawable =>
    exact Check.refuses_of (fun _ hf => by cases hf) fun _ _ => by simp

/-! ### Edits -/

theorem refuses_add {content : Content α} :
    (add parent name content scene).Refuses scene fun kind =>
      scene.Barren parent ∧ kind = .invalidNode ∨
        ¬scene.Barren parent ∧
          (∃ settings, content = .manager settings ∧ ¬(1 ≤ settings.cap ∧ settings.cap ≤ 8)) ∧
          kind = .invalidConfig := by
  rw [add, get_bind_apply]
  apply Outcome.Refuses.check_bind refuses_checkParent
  intro _ _
  exact .check_bind_ok refuses_realize fun _ _ => ⟨_, rfl⟩

theorem refuses_erase :
    (erase key scene).Refuses scene fun kind =>
      (key = scene.root ∨ scene.node? key = none) ∧ kind = .invalidNode := by
  rw [erase, get_bind_apply]
  exact .check_bind_ok refuses_checkRemoval fun _ _ => ⟨_, rfl⟩

theorem refuses_setTransform {matrix : Mat4 α} :
    (setTransform key matrix scene).Refuses scene fun kind =>
      scene.NoTransform key ∧ kind = .invalidNode := by
  rw [setTransform, get_bind_apply]
  exact .check_bind_ok refuses_checkTransform fun _ _ => ⟨_, rfl⟩

/-- A manager node has its manager, so nothing can be missing but the node. -/
theorem refuses_decorate (h : scene.WellFormed) :
    (decorate key scene).Refuses scene fun kind =>
      scene.NoManager key ∧ kind = .invalidNode := by
  rw [decorate, get_bind_apply]
  apply Outcome.Refuses.check_bind_ok refuses_findManagerNode
  rintro ⟨node, m⟩ hf
  obtain ⟨hnode, hkind⟩ := findManagerNode_eq_ok.1 hf
  obtain ⟨manager, hm⟩ := Option.isSome_iff_exists.1 (h.isSome_of_kind hnode hkind)
  dsimp only
  rw [findManager_eq_ok.2 hm, check_bind_apply]
  dsimp only
  split <;> exact ⟨_, rfl⟩

theorem refuses_attach :
    (attach key managerNode scene).Refuses scene fun kind =>
      (scene.NoManager managerNode ∨ scene.node? key = none) ∧ kind = .invalidNode := by
  rw [attach, get_bind_apply]
  refine (Outcome.Refuses.check_bind refuses_findManagerNode fun _ _ =>
    .check_bind_ok refuses_findNode fun _ _ => ⟨_, rfl⟩).congr fun kind => ?_
  by_cases hm : scene.NoManager managerNode <;> simp [hm]

/-- What each edit is refused for. -/
structure Refusals (scene : Scene α) : Prop where
  add : ∀ parent name content, (add parent name content scene).Refuses scene fun kind =>
    scene.Barren parent ∧ kind = .invalidNode ∨
      ¬scene.Barren parent ∧
        (∃ settings, content = .manager settings ∧ ¬(1 ≤ settings.cap ∧ settings.cap ≤ 8)) ∧
        kind = .invalidConfig
  erase : ∀ key, (erase key scene).Refuses scene fun kind =>
    (key = scene.root ∨ scene.node? key = none) ∧ kind = .invalidNode
  setTransform : ∀ key matrix, (setTransform key matrix scene).Refuses scene fun kind =>
    scene.NoTransform key ∧ kind = .invalidNode
  decorate : ∀ key, (decorate key scene).Refuses scene fun kind =>
    scene.NoManager key ∧ kind = .invalidNode
  attach : ∀ key managerNode, (attach key managerNode scene).Refuses scene fun kind =>
    (scene.NoManager managerNode ∨ scene.node? key = none) ∧ kind = .invalidNode

theorem WellFormed.refusals (h : scene.WellFormed) : scene.Refusals where
  add _ _ _ := refuses_add
  erase _ := refuses_erase
  setTransform _ _ := refuses_setTransform
  decorate _ := refuses_decorate h
  attach _ _ := refuses_attach

/-! ### A manager before its node -/

/-- Put a node below a parent that is looked at first. -/
def insertNode (parent : NodeKey) (name : String) (kind : Kind α) :
    Action (Scene α) NodeKey := do
  let scene ← Action.get
  Action.check .scene (scene.checkParent parent name)
  Action.modify fun scene => scene.withNode parent name kind
  return scene.nodes.nextKey

/-- Keep a new manager, and then put the node below the parent, which is looked at both before the
manager is made and after. -/
def insertManagerNode (parent : NodeKey) (name : String) (settings : Settings) :
    Action (Scene α) NodeKey := do
  let scene ← Action.get
  Action.check .scene (scene.checkParent parent name)
  let manager ← Action.check .settings (Manager.ofSettings settings)
  Action.modify fun scene => { scene with managers := scene.managers.insert manager }
  insertNode parent name (.manager scene.managers.nextKey)

/-- The second look finds what the first one found, so no manager is left without its node. -/
theorem insertManagerNode_eq_add (parent : NodeKey) (name : String) (settings : Settings) :
    insertManagerNode parent name settings = (add parent name (.manager settings) :
      Action (Scene α) NodeKey) := by
  funext scene
  rw [insertManagerNode, add, get_bind_apply, get_bind_apply, check_bind_apply, check_bind_apply]
  cases hp : scene.checkParent parent name with
  | error fault => rfl
  | ok =>
    dsimp only
    rw [check_bind_apply, check_bind_apply, Content.realize]
    cases Manager.ofSettings settings with
    | error fault => rfl
    | ok manager =>
      have hagain : ({ scene with managers := scene.managers.insert manager } :
          Scene α).checkParent parent name = .ok () := hp
      dsimp only [Except.map]
      rw [modify_bind_apply, insertNode, get_bind_apply, hagain]
      rfl

variable [Scalar α]

/-! ### Runs -/

/-- The step is an edit that fails. -/
def Step.IsRefused (scene : Scene α) : Step α → Prop
  | .add parent name content => ∃ fault, (Scene.add parent name content scene).result = .error fault
  | .erase key               => ∃ fault, (Scene.erase key scene).result = .error fault
  | .setTransform key matrix => ∃ fault, (Scene.setTransform key matrix scene).result = .error fault
  | .decorate key            => ∃ fault, (Scene.decorate key scene).result = .error fault
  | .attach key managerNode  => ∃ fault, (Scene.attach key managerNode scene).result = .error fault
  | _                        => False

lemma Step.IsRefused.apply_eq (h : scene.WellFormed) {step : Step α} (hr : step.IsRefused scene) :
    step.apply scene = scene := by
  cases step with
  | add => exact refuses_add.state_eq_of_exists hr
  | erase => exact refuses_erase.state_eq_of_exists hr
  | setTransform => exact refuses_setTransform.state_eq_of_exists hr
  | decorate => exact (refuses_decorate h).state_eq_of_exists hr
  | attach => exact refuses_attach.state_eq_of_exists hr
  | modifySource | beginFrame | drawList | onManager => exact hr.elim

/-- After any run an edit fails for the reasons told and for no other. Then all goes on as if it had
not been tried, so the same keys are given out later. A manager that is kept before its node is put
in comes to the same. -/
theorem edits_refused (run : List (Step α)) :
    Refusals (after run) ∧
      (∀ parent name settings, insertManagerNode parent name settings (after run) =
        add parent name (.manager settings) (after run)) ∧
      ∀ step : Step α, step.IsRefused (after run) →
        ∀ later, after (run ++ step :: later) = after (run ++ later) := by
  have h := wellFormed_after run
  refine ⟨h.refusals, fun parent name settings => ?_, fun step hr later => ?_⟩
  · rw [insertManagerNode_eq_add]
  · have hstep : step.apply (run.foldl Step.apply new) = run.foldl Step.apply new := hr.apply_eq h
    rw [after, after, List.foldl_append, List.foldl_append, List.foldl_cons, hstep]

end Scene

end SceneLighting
