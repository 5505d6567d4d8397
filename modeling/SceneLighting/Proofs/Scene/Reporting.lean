import SceneLighting.Proofs.Manager.Frame
import SceneLighting.Scene.Collection
import SceneLighting.Scene.DrawList
import SceneLighting.Scene.Edit

/-!
# Faults and the log

An operation that fails logs its fault once, as the last thing it does, and an operation that
answers logs no fault. Faults are found deep inside traversals, after other things were logged, and
each is logged where it is found and not again on the way out.
-/

namespace SceneLighting

variable {α σ τ β γ : Type}

/-! ### Logs of actions -/

/-- The entries tell of a failure if there was one, once and in the end, with its message and the
file and the line where it was found. Of an answer they tell no failure. -/
structure Log.Tells (result : Except Fault β) (entries : List Log.Entry) : Prop where
  ok : ∀ b, result = .ok b → ∀ entry ∈ entries, entry.severity ≠ .error
  error : ∀ fault, result = .error fault → ∃ earlier entry, entries = earlier ++ [entry] ∧
    (∀ e ∈ earlier, e.severity ≠ .error) ∧ entry.severity = .error ∧
    (∃ file number, entry.site = some (.line file number)) ∧
    entry.message = fault.error.message

lemma Log.Tells.of_ok {entries : List Log.Entry} {b : β}
    (h : ∀ entry ∈ entries, entry.severity ≠ .error) : Tells (.ok b) entries :=
  ⟨fun _ _ => h, nofun⟩

/-- What was logged before without a failure does not matter. -/
lemma Log.Tells.append {result : Except Fault β} {before entries : List Log.Entry}
    (h : Tells result entries) (hbefore : ∀ entry ∈ before, entry.severity ≠ .error) :
    Tells result (before ++ entries) where
  ok b hb entry hentry := by
    rcases List.mem_append.1 hentry with hentry | hentry
    · exact hbefore entry hentry
    · exact h.ok b hb entry hentry
  error fault hfault := by
    obtain ⟨earlier, entry, rfl, hearlier, hrest⟩ := h.error fault hfault
    refine ⟨before ++ earlier, entry, (List.append_assoc _ _ _).symm, fun e he => ?_, hrest⟩
    rcases List.mem_append.1 he with he | he
    · exact hbefore e he
    · exact hearlier e he

namespace Action

/-- The entries of a log, when `file` and `line` tell where in the program each event is reported.
-/
def entries (file : Event → String) (line : Event → Nat) (log : List Event) : List Log.Entry :=
  log.map fun event => event.entry.madeAt (file event) (line event)

/-- Whatever the state, and wherever in the program its parts are, the log tells of the outcome. -/
def Honest (act : Action σ β) : Prop :=
  ∀ file line s, Log.Tells (act s).result (entries file line (act s).log)

namespace Honest

lemma of_calm {act : Action σ β}
    (h : ∀ s, (∃ b, (act s).result = .ok b) ∧
      ∀ event ∈ (act s).log, event.entry.severity ≠ .error) : Honest act := by
  intro file line s
  obtain ⟨⟨b, hb⟩, hlog⟩ := h s
  rw [hb]
  refine .of_ok fun entry hentry => ?_
  obtain ⟨event, hevent, rfl⟩ := List.mem_map.1 hentry
  exact hlog event hevent

lemma pure (b : β) : Honest (Pure.pure b : Action σ β) :=
  of_calm fun _ => ⟨⟨b, rfl⟩, by simp⟩

lemma get : Honest (Action.get : Action σ σ) :=
  of_calm fun s => ⟨⟨s, rfl⟩, by simp⟩

lemma modify (f : σ → σ) : Honest (Action.modify f) :=
  of_calm fun _ => ⟨⟨(), rfl⟩, by simp⟩

lemma emit {event : Event} (h : event.entry.severity ≠ .error) :
    Honest (Action.emit event : Action σ Unit) :=
  of_calm fun _ => ⟨⟨(), rfl⟩, by simpa using h⟩

lemma fail (part : Part) (fault : Fault) : Honest (Action.fail part fault : Action σ β) := by
  refine fun file line _ => ⟨nofun, ?_⟩
  rintro _ ⟨⟩
  exact ⟨[], _, rfl, by simp, rfl, ⟨_, _, rfl⟩, rfl⟩

lemma check (part : Part) (e : Except Fault β) : Honest (Action.check part e : Action σ β) := by
  cases e with
  | error fault => exact fail part fault
  | ok b => exact pure b

lemma bind {act : Action σ β} {next : β → Action σ γ} (h : Honest act)
    (hnext : ∀ b, Honest (next b)) : Honest (act >>= next) := by
  intro file line s
  have hs := h file line s
  rw [bind_apply]
  rcases ho : act s with ⟨fault | b, t, log⟩ <;> rw [ho] at hs
  · refine ⟨nofun, ?_⟩
    rintro _ ⟨⟩
    exact hs.error fault rfl
  · dsimp only
    rw [entries, List.map_append]
    exact (hnext b file line t).append (hs.ok b rfl)

lemma forM {f : β → Action σ PUnit} {l : List β} (h : ∀ b, Honest (f b)) : Honest (l.forM f) := by
  induction l with
  | nil => exact pure _
  | cons b l ih =>
    rw [List.forM_eq_forM, List.forM_cons]
    exact bind (h b) fun _ => ih

lemma on {part : σ → τ} {put : σ → τ → σ} {act : Action τ β} (h : Honest act) :
    Honest (Action.on part put act) :=
  fun file line s => h file line (part s)

end Honest

end Action

open SceneLighting.Action (Honest)

/-! ### Managers -/

lemma Manager.honest_beginFrame : Honest (beginFrame (α := α)) :=
  .of_calm fun _ => ⟨⟨_, rfl⟩, by simp [beginFrame, Event.entry]⟩

lemma Manager.honest_noteTruncation (count : Nat) : Honest (noteTruncation (α := α) count) := by
  refine .of_calm fun m => ?_
  rw [noteTruncation]
  split
  next => split <;> exact ⟨⟨(), rfl⟩, by simp [Event.entry]⟩
  next => exact ⟨⟨(), rfl⟩, by simp⟩

section Scalars

variable [Scalar α]

lemma Frame.honest_answer (mode : Fingerprint.Mode) (indices : List Nat) :
    Honest (answer (α := α) mode indices) := by
  refine .of_calm fun frame => ?_
  obtain ⟨_, -, -, ho⟩ | ⟨-, ho⟩ | ⟨_, -, -, ho⟩ := answer_cases mode indices frame
  all_goals
    rw [ho]
    exact ⟨⟨_, rfl⟩, by simp [Event.entry]⟩

theorem Manager.honest_request (indices : List Nat) : Honest (request (α := α) indices) :=
  .bind .get fun _ => .bind (.check _ _) fun _ => .on (Frame.honest_answer _ _)

theorem Manager.honest_select (camera : Camera α) (bound : Sphere α) (modelView : Mat4 α) :
    Honest (select camera bound modelView) := by
  refine .bind (.modify _) fun _ => .bind .get fun m => ?_
  split
  · exact .pure _
  · exact .bind (honest_noteTruncation _) fun _ =>
      .bind (honest_request _) fun _ => .pure _

end Scalars

/-! ### Traversals -/

lemma Scene.honest_onManagerKey {key : ManagerKey} {part : Part} {missing : Fault}
    {act : Action (Manager α) β} (h : Honest act) :
    Honest (onManagerKey key part missing act) := by
  intro file line managers
  cases hm : managers.get? key with
  | none =>
    simpa [onManagerKey, hm] using Honest.fail part missing file line managers
  | some m =>
    simpa [onManagerKey, hm] using h file line m

section Traversals

variable [Scalar α]

namespace Forest

lemma honest_collectNode (key : NodeKey) (node : Node α) (world : Mat4 α)
    (owner : Option ManagerKey) : Honest (collectNode key node world owner) := by
  unfold collectNode
  split
  · exact .bind (Scene.honest_onManagerKey Manager.honest_beginFrame) fun _ => .pure _
  · split
    · exact .fail _ _
    · exact .bind (Scene.honest_onManagerKey (.modify _)) fun _ => .pure _
  · exact .pure _

theorem honest_collect (forest : Forest α) (world : Mat4 α) (owner : Option ManagerKey) :
    Honest (forest.collect world owner) := by
  induction forest generalizing world owner with
  | nil => exact .pure _
  | lost => exact .fail _ _
  | tree key node children rest ihc ihr =>
    exact .bind (honest_collectNode key node _ owner) fun _ => .bind (ihc _ _) fun _ =>
      .bind (ihr _ _) fun _ => .pure _

lemma honest_selectNode (camera : Camera α) (key : NodeKey) (node : Node α)
    (children : Forest α) : Honest (selectNode camera key node children) := by
  unfold selectNode
  split
  · exact .pure _
  · exact .bind .get fun _ =>
      .bind (.on (Scene.honest_onManagerKey (Manager.honest_select _ _ _))) fun _ =>
      .bind (.modify _) fun _ => .pure _

theorem honest_draws (camera : Camera α) (forest : Forest α) :
    Honest (forest.draws camera) := by
  induction forest with
  | nil => exact .pure _
  | lost => exact .fail _ _
  | tree key node children rest ihc ihr =>
    exact .bind (.modify _) fun _ => .bind (honest_selectNode camera key node children) fun _ =>
      .bind (.bind .get fun _ => .pure _) fun _ => .bind ihc fun _ => .bind (.modify _) fun _ =>
      .bind ihr fun _ => .pure _

end Forest

end Traversals

/-! ### Scenes -/

namespace Scene

theorem honest_decorate (key : NodeKey) : Honest (decorate (α := α) key) := by
  refine .bind .get fun _ => .bind (.check _ _) fun _ => .bind (.check _ _) fun _ => ?_
  split
  · exact .pure _
  · exact .bind (.modify _) fun _ => .bind (.emit (by simp [Event.entry])) fun _ => .pure _

theorem honest_attach (key managerNode : NodeKey) : Honest (attach (α := α) key managerNode) :=
  .bind .get fun _ => .bind (.check _ _) fun _ => .bind (.check _ _) fun _ => .modify _

theorem honest_add (parent : NodeKey) (name : String) (content : Content α) :
    Honest (add parent name content) :=
  .bind .get fun _ => .bind (.check _ _) fun _ => .bind (.check _ _) fun _ =>
    .bind (.modify _) fun _ => .pure _

theorem honest_erase (key : NodeKey) : Honest (erase (α := α) key) :=
  .bind .get fun _ => .bind (.check _ _) fun _ => .modify _

theorem honest_setTransform (key : NodeKey) (matrix : Mat4 α) :
    Honest (setTransform key matrix) :=
  .bind .get fun _ => .bind (.check _ _) fun _ => .modify _

variable [Scalar α]

theorem honest_worldMatrix (key : NodeKey) : Honest (worldMatrix (α := α) key) :=
  .bind .get fun _ => .bind (.check _ _) fun _ => .pure _

theorem honest_beginFrame : Honest (beginFrame (α := α)) :=
  .bind .get fun _ => .bind (.on (Forest.honest_collect _ _ _)) fun _ =>
    .forM fun key => .bind (honest_decorate key) fun _ => .pure _

theorem honest_drawList (camera : Camera α) : Honest (drawList camera) :=
  .bind .get fun _ => .on (.bind (Forest.honest_draws _ _) fun _ => .bind .get fun _ => .pure _)

end Scene

/-! ### All operations -/

/-- Each operation that can fail logs its fault once and in the end, and no fault if it answers. -/
structure LogsFaults (α : Type) [Scalar α] : Prop where
  settings : ∀ (σ : Type) (settings : Settings),
    Honest (Action.check .settings settings.check : Action σ Unit)
  ofSettings : ∀ (σ : Type) (settings : Settings),
    Honest (Action.check .settings (Manager.ofSettings settings) : Action σ (Manager α))
  request : ∀ indices, Honest (Manager.request (α := α) indices)
  select : ∀ (camera : Camera α) bound modelView, Honest (Manager.select camera bound modelView)
  add : ∀ parent name (content : Content α), Honest (Scene.add parent name content)
  erase : ∀ key, Honest (Scene.erase (α := α) key)
  setTransform : ∀ key (matrix : Mat4 α), Honest (Scene.setTransform key matrix)
  worldMatrix : ∀ key, Honest (Scene.worldMatrix (α := α) key)
  decorate : ∀ key, Honest (Scene.decorate (α := α) key)
  attach : ∀ key managerNode, Honest (Scene.attach (α := α) key managerNode)
  beginFrame : Honest (Scene.beginFrame (α := α))
  drawList : ∀ camera : Camera α, Honest (Scene.drawList camera)

theorem faults_logged (α : Type) [Scalar α] : LogsFaults α where
  settings _ _ := .check _ _
  ofSettings _ _ := .check _ _
  request := Manager.honest_request
  select := Manager.honest_select
  add := Scene.honest_add
  erase := Scene.honest_erase
  setTransform := Scene.honest_setTransform
  worldMatrix := Scene.honest_worldMatrix
  decorate := Scene.honest_decorate
  attach := Scene.honest_attach
  beginFrame := Scene.honest_beginFrame
  drawList := Scene.honest_drawList

end SceneLighting
