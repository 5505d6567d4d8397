import SceneLighting.Proofs.Manager.Cache
import SceneLighting.Proofs.Scene.Removal

/-!
# How managers are used in a scene

Whatever a scene does to a manager it does by operations that the manager has for itself. So what
holds of a new manager after any operations holds of every manager of a scene.
-/

namespace SceneLighting

variable {α : Type} [Scalar α]

/-! ### Managers by themselves -/

/-- What a step makes of a manager does not depend on the requests answered before. -/
lemma Session.manager_step_congr {s t : Session α} (h : s.manager = t.manager)
    (step : Session.Step α) : (s.step step).manager = (t.step step).manager := by
  cases step <;> simp only [Session.step, h]
  case request indices =>
    split <;> rfl
  case select camera bound modelView =>
    split <;> rfl

lemma Session.manager_foldl_congr {s t : Session α} (h : s.manager = t.manager)
    (uses : List (Session.Step α)) :
    (uses.foldl Session.step s).manager = (uses.foldl Session.step t).manager := by
  induction uses generalizing s t with
  | nil => exact h
  | cons step uses ih => exact ih (manager_step_congr h step)

/-- No operation takes back that a manager is attached to its nodes. -/
lemma Session.isDecorated_step {s : Session α} (h : s.manager.isDecorated = true)
    (step : Session.Step α) : (s.step step).manager.isDecorated = true := by
  cases step with
  | beginFrame => exact h
  | decorate => rfl
  | register => exact h
  | prepare => exact h
  | request indices =>
    obtain hs | ⟨_, _, -, -, -, hs⟩ := s.request_cases indices <;> rw [hs] <;> exact h
  | select camera bound modelView =>
    obtain hs | ⟨_, _, _, -, -, -, -, hs⟩ := s.select_cases camera bound modelView <;>
      rw [hs] <;> exact h

lemma Session.isDecorated_foldl {s : Session α} (h : s.manager.isDecorated = true)
    (uses : List (Session.Step α)) :
    (uses.foldl Session.step s).manager.isDecorated = true := by
  induction uses generalizing s with
  | nil => exact h
  | cons step uses ih => exact ih (isDecorated_step h step)

namespace Manager

/-- A manager after some operations. -/
def use (m : Manager α) (uses : List (Session.Step α)) : Manager α :=
  (uses.foldl Session.step ⟨m, []⟩).manager

lemma use_append (m : Manager α) (uses more : List (Session.Step α)) :
    m.use (uses ++ more) = (m.use uses).use more := by
  simp only [use, List.foldl_append]
  apply Session.manager_foldl_congr
  rfl

lemma use_new (settings : Settings) (uses : List (Session.Step α)) :
    (new settings).use uses = (Session.after settings uses).manager :=
  rfl

/-- Some operations lead from one manager to another. -/
def Descends (m m' : Manager α) : Prop :=
  ∃ uses, m.use uses = m'

namespace Descends

lemma refl (m : Manager α) : Descends m m :=
  ⟨[], rfl⟩

lemma trans (a b c : Manager α) (hab : Descends a b) (hbc : Descends b c) : Descends a c := by
  obtain ⟨uses, rfl⟩ := hab
  obtain ⟨more, rfl⟩ := hbc
  exact ⟨uses ++ more, use_append a uses more⟩

lemma beginFrame : Action.Keeps Descends (Manager.beginFrame (α := α)) :=
  fun _ => ⟨[.beginFrame], rfl⟩

lemma register (node : NodeKey) (source : LightSource α) (world : Mat4 α) (m : Manager α) :
    Descends m (m.register node source world) :=
  ⟨[.register node source world], rfl⟩

lemma decorate (m : Manager α) : Descends m { m with isDecorated := true } :=
  ⟨[.decorate], rfl⟩

lemma request (indices : List Nat) :
    Action.Keeps Descends (Manager.request (α := α) indices) := by
  intro m
  refine ⟨[.request indices], ?_⟩
  simp only [use, List.foldl_cons, List.foldl_nil, Session.step]
  split <;> rfl

lemma select (camera : Camera α) (bound : Sphere α) (modelView : Mat4 α) :
    Action.Keeps Descends (Manager.select camera bound modelView) := by
  intro m
  refine ⟨[.select camera bound modelView], ?_⟩
  simp only [use, List.foldl_cons, List.foldl_nil, Session.step]
  split <;> rfl

lemma settings_eq {settings : Settings} {m : Manager α} (h : Descends (new settings) m) :
    m.settings = settings := by
  obtain ⟨uses, rfl⟩ := h
  rw [use_new]
  exact (Session.sound_after settings uses).settings_eq

lemma isDecorated {m m' : Manager α} (h : Descends m m') (hm : m.isDecorated = true) :
    m'.isDecorated = true := by
  obtain ⟨uses, rfl⟩ := h
  exact Session.isDecorated_foldl hm uses

end Descends

end Manager

namespace Scene

open Manager (Descends)

variable {scene : Scene α} {m : ManagerKey}

/-! ### Steps -/

/-- Managers are only changed by hand with operations of their own. -/
def Step.IsByUses : Step α → Prop
  | .onManager _ f => ∀ m, Descends m (f m)
  | _              => True

lemma descends_decorate (key : NodeKey) : Action.Keeps
    (fun s t : Scene α => Managers.Evolve Descends s.managers t.managers) (decorate key) := by
  intro scene
  obtain hf | ⟨node, managerKey, manager, -, -, -, ho⟩ := decorate_cases key scene
  · rw [hf.state_eq]
    exact .refl Descends.refl _
  · rw [ho]
    split
    next => exact .refl Descends.refl _
    next => exact .modify Descends.refl fun manager _ => .decorate manager

lemma descends_beginFrame : Action.Keeps
    (fun s t : Scene α => Managers.Evolve Descends s.managers t.managers) beginFrame := by
  have refl := fun s : Scene α => Managers.Evolve.refl Descends.refl s.managers
  have trans := fun s t u : Scene α =>
    Managers.Evolve.trans Descends.trans s.managers t.managers u.managers
  refine .bind trans refl fun scene => .bind trans ?_ fun pending => ?_
  · refine .on ?_ fun _ _ => id
    exact Forest.keeps_collect Descends.refl Descends.trans .beginFrame .register _ _ _
  · exact .forM refl trans fun key _ => .bind trans (descends_decorate key) fun _ => .pure refl _

lemma descends_drawList (camera : Camera α) (scene : Scene α) :
    Managers.Evolve Descends scene.managers (drawList camera scene).state.managers := by
  obtain ⟨managers, hs, hm⟩ :=
    exists_drawList_state Descends.refl Descends.trans (Descends.select camera) scene
  rw [hs]
  exact hm

lemma descends_onManager (key : NodeKey) {f : Manager α → Manager α}
    (hf : ∀ m, Descends m (f m)) (scene : Scene α) :
    Managers.Evolve Descends scene.managers (onManager key (.modify f) scene).state.managers := by
  rw [onManager]
  split
  next managerKey manager _ hmanager =>
    refine .modify Descends.refl fun manager' hm => ?_
    obtain rfl : manager' = manager := by simp_all [manager?]
    exact hf manager'
  next => exact .refl Descends.refl _

/-- A manager that is there after a step is new, or it was there before and was used by the step, if
anything. -/
theorem WellFormed.new_or_descends (h : scene.WellFormed) {step : Step α} (hstep : step.IsByUses)
    {manager' : Manager α} (hm' : (step.apply scene).managers.get? m = some manager') :
    (scene.managers.get? m = none ∧ ∃ settings, manager' = .new settings) ∨
      ∃ manager, scene.managers.get? m = some manager ∧ Descends manager manager' := by
  have of_eq : scene.managers.get? m = some manager' →
      ∃ manager, scene.managers.get? m = some manager ∧ Descends manager manager' :=
    fun hm => ⟨manager', hm, .refl manager'⟩
  cases step with
  | add parent name content =>
    obtain hf | ⟨node, kind, managers, -, -, hc, ho⟩ := add_cases parent name content scene
    · rw [Step.apply, hf.state_eq] at hm'
      exact Or.inr (of_eq hm')
    rw [Step.apply, ho] at hm'
    obtain ⟨rfl, -⟩ | ⟨settings, -, rfl, rfl⟩ := realize_eq_ok hc
    · exact Or.inr (of_eq hm')
    · have hinsert : (scene.managers.insert (.new settings)).get? m = some manager' := hm'
      rw [h.managers.get?_insert] at hinsert
      split at hinsert
      next hkey => exact Or.inl ⟨hkey ▸ h.managers.get?_nextKey, settings,
        (Option.some.inj hinsert).symm⟩
      next => exact Or.inr (of_eq hinsert)
  | erase => exact Or.inr (of_eq (get?_managers_erase hm'))
  | setTransform =>
    rw [Step.apply, managers_setTransform] at hm'
    exact Or.inr (of_eq hm')
  | modifySource =>
    rw [Step.apply, managers_modifySource] at hm'
    exact Or.inr (of_eq hm')
  | decorate key => exact Or.inr ((descends_decorate key scene).exists_before hm')
  | attach =>
    rw [Step.apply, managers_attach] at hm'
    exact Or.inr (of_eq hm')
  | beginFrame => exact Or.inr ((descends_beginFrame scene).exists_before hm')
  | drawList camera => exact Or.inr ((descends_drawList camera scene).exists_before hm')
  | onManager key f => exact Or.inr ((descends_onManager key hstep scene).exists_before hm')

/-- A manager that is there before and after a step was used by it, if anything. -/
theorem WellFormed.descends_apply (h : scene.WellFormed) {step : Step α} (hstep : step.IsByUses)
    {manager manager' : Manager α} (hm : scene.managers.get? m = some manager)
    (hm' : (step.apply scene).managers.get? m = some manager') : Descends manager manager' := by
  obtain ⟨hnone, -⟩ | ⟨old, hold, hdescends⟩ := h.new_or_descends hstep hm'
  · cases hnone.symm.trans hm
  · obtain rfl : old = manager := Option.some.inj (hold.symm.trans hm)
    exact hdescends

/-! ### Runs -/

/-- A manager that is there before and after a run was used in it, if anything. -/
theorem descends_after {run later : List (Step α)} (hlater : ∀ step ∈ later, step.IsByUses)
    {manager manager' : Manager α} (hm : (after run).managers.get? m = some manager)
    (hm' : (after (run ++ later)).managers.get? m = some manager') :
    Descends manager manager' := by
  induction later using List.reverseRecOn generalizing manager' with
  | nil =>
    rw [List.append_nil] at hm'
    obtain rfl : manager = manager' := by simpa [hm] using hm'
    exact .refl manager
  | append_singleton later step ih =>
    rw [← List.append_assoc] at hm'
    have hhad : Had (run ++ later) m := (had_of_isSome (Option.isSome_of_mem hm)).append later
    cases hbetween : (after (run ++ later)).managers.get? m with
    | none =>
      have hgone := (Removed.append ⟨hhad, hbetween⟩ [step]).2
      cases hgone.symm.trans hm'
    | some between =>
      rw [after_concat] at hm'
      exact .trans _ _ _ (ih (fun s hs => hlater s (by simp [hs])) hbetween)
        ((wellFormed_after _).descends_apply (hlater step (by simp)) hbetween hm')

end Scene

end SceneLighting
