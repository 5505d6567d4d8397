import SceneLighting.Proofs.Manager.Frame
import SceneLighting.Proofs.Scene.Managers
import SceneLighting.Proofs.Slot.Mapping
import SceneLighting.Scene.Edit

/-!
# Managers apart from their frames

A manager is made with its settings and is attached to nodes once; all else that it knows is of one
frame. Passes over the nodes change no more than that, and what they answer when a frame begins does
not depend on it.
-/

namespace SceneLighting

open SceneLighting.Action

variable {α : Type}

/-- The manager without all that it knows of its frame. -/
def Manager.idle (m : Manager α) : Manager α :=
  { m with frame := .blank 0 }

lemma Manager.map_isDecorated_idle (o : Option (Manager α)) :
    (o.map Manager.idle).map Manager.isDecorated = o.map Manager.isDecorated := by
  simp [Function.comp_def, idle]

/-- The managers differ in what they know of their frames, and in nothing else. -/
def Managers.Twin (managers managers' : Managers α) : Prop :=
  managers'.map Manager.idle = managers.map Manager.idle

namespace Managers.Twin

variable {managers managers' : Managers α}

lemma refl (managers : Managers α) : Twin managers managers :=
  rfl

lemma trans (a b c : Managers α) (hab : Twin a b) (hbc : Twin b c) : Twin a c :=
  Eq.trans hbc hab

lemma get?_idle (h : Twin managers managers') (m : ManagerKey) :
    (managers'.get? m).map Manager.idle = (managers.get? m).map Manager.idle := by
  rw [← SlotMap.get?_map, h, SlotMap.get?_map]

lemma isSome_eq (h : Twin managers managers') (m : ManagerKey) :
    (managers'.get? m).isSome = (managers.get? m).isSome := by
  rw [← Option.isSome_map (f := Manager.idle), h.get?_idle, Option.isSome_map]

lemma isDecorated_eq (h : Twin managers managers') (m : ManagerKey) :
    (managers'.get? m).map Manager.isDecorated = (managers.get? m).map Manager.isDecorated := by
  rw [← Manager.map_isDecorated_idle, h.get?_idle, Manager.map_isDecorated_idle]

lemma modify (h : Twin managers managers') (key : ManagerKey) {f f' : Manager α → Manager α}
    (hf : ∀ m m', managers.get? key = some m → managers'.get? key = some m' →
      m'.idle = m.idle → (f' m').idle = (f m).idle) :
    Twin (managers.modify key f) (managers'.modify key f') := by
  have hget := h.get?_idle key
  cases hm : managers.get? key <;> cases hm' : managers'.get? key <;> simp [hm, hm'] at hget
  case none.none => simpa [SlotMap.modify, hm, hm'] using h
  case some.some m m' =>
    rw [Twin, SlotMap.map_modify _ _ hm, SlotMap.map_modify _ _ hm', h, hf m m' hm hm' hget]

/-- To change a manager in what it knows of its frame. -/
lemma modify_right (managers : Managers α) (key : ManagerKey) {f : Manager α → Manager α}
    (hf : ∀ m, managers.get? key = some m → (f m).idle = m.idle) :
    Twin managers (managers.modify key f) := by
  cases hm : managers.get? key with
  | none => simp [Twin, SlotMap.modify, hm]
  | some m => exact SlotMap.map_modify_of_get? _ _ hm (hf m hm)

/-- A new node is made alike. -/
lemma realize (h : Twin managers managers') (content : Content α) :
    (∃ fault, content.realize managers = .error fault ∧
      content.realize managers' = .error fault) ∨
    ∃ kind after after', content.realize managers = .ok (kind, after) ∧
      content.realize managers' = .ok (kind, after') ∧ Twin after after' := by
  have hkey : managers'.nextKey = managers.nextKey := by
    rw [← SlotMap.nextKey_map Manager.idle, h, SlotMap.nextKey_map]
  cases content with
  | manager settings =>
    rw [Content.realize, Content.realize, hkey]
    cases Manager.ofSettings (α := α) settings with
    | error fault => exact Or.inl ⟨fault, rfl, rfl⟩
    | ok m =>
      refine Or.inr ⟨_, _, _, rfl, rfl, ?_⟩
      rw [Twin, SlotMap.map_insert, SlotMap.map_insert, h]
  | _ => exact Or.inr ⟨_, _, _, rfl, rfl, h⟩

end Managers.Twin

namespace Scene

section Keyed

variable {β : Type} {act : Action (Manager α) β}

lemma respects_onManagerKey (h : act.Respects fun m m' => m'.idle = m.idle) (key : ManagerKey)
    (part : Part) (missing : Fault) :
    (onManagerKey key part missing act).Respects Managers.Twin := by
  intro managers managers' hm
  have hget := hm.get?_idle key
  cases h₁ : managers.get? key <;> cases h₂ : managers'.get? key <;> simp [h₁, h₂] at hget
  case none.none =>
    rw [onManagerKey_of_none h₁, onManagerKey_of_none h₂]
    exact ⟨rfl, hm⟩
  case some.some m m' =>
    rw [onManagerKey_of_get? h₁, onManagerKey_of_get? h₂]
    obtain ⟨hresult, hstate⟩ := h m m' hget
    exact ⟨hresult, hm.modify key fun _ _ _ _ _ => hstate⟩

lemma twin_onManagerKey (h : act.Keeps fun m m' => m'.idle = m.idle) (key : ManagerKey)
    (part : Part) (missing : Fault) :
    (onManagerKey key part missing act).Keeps Managers.Twin := by
  intro managers
  cases hm : managers.get? key with
  | none =>
    rw [onManagerKey_of_none hm]
    exact .refl managers
  | some m =>
    rw [onManagerKey_of_get? hm]
    apply Managers.Twin.modify_right
    intro m' hm'
    obtain rfl : m = m' := by simpa [hm] using hm'
    exact h m

end Keyed

end Scene

/-! ### Passes -/

section Passes

variable [Scalar α]

lemma Forest.respects_collectNode (key : NodeKey) (node : Node α) (world : Mat4 α)
    (owner : Option ManagerKey) : (collectNode key node world owner).Respects Managers.Twin := by
  unfold collectNode
  split
  · refine .bind (Scene.respects_onManagerKey (fun m m' hm => ?_) _ _ _) fun _ => .pure _
    have hdecorated : m'.isDecorated = m.isDecorated := (congrArg Manager.isDecorated hm :)
    exact ⟨by simp [Manager.beginFrame, hdecorated], hm⟩
  · split
    · exact .fail _ _
    · exact .bind (Scene.respects_onManagerKey (fun m m' hm => ⟨rfl, hm⟩) _ _ _) fun _ => .pure _
  · exact .pure _

/-- What is collected does not depend on what managers knew of frames. -/
lemma Forest.respects_collect (forest : Forest α) (world : Mat4 α) (owner : Option ManagerKey) :
    (forest.collect world owner).Respects Managers.Twin := by
  induction forest generalizing world owner with
  | nil => exact .pure _
  | lost => exact .fail _ _
  | tree key node children rest ihc ihr =>
    refine .bind (respects_collectNode _ _ _ _) fun _ => .bind (ihc _ _) fun _ => ?_
    exact .bind (ihr _ _) fun _ => .pure _

lemma Forest.twin_collectNode (key : NodeKey) (node : Node α) (world : Mat4 α)
    (owner : Option ManagerKey) : (collectNode key node world owner).Keeps Managers.Twin :=
  keeps_collectNode_of_keyed Managers.Twin.refl Managers.Twin.trans
    (fun _ _ _ => Scene.twin_onManagerKey (fun _ => rfl) _ _ _)
    (fun _ _ _ _ _ _ => Scene.twin_onManagerKey (fun _ => rfl) _ _ _) key node world owner

lemma Forest.twin_collect (forest : Forest α) (world : Mat4 α) (owner : Option ManagerKey) :
    (forest.collect world owner).Keeps Managers.Twin :=
  keeps_collect_of_keyed Managers.Twin.refl Managers.Twin.trans
    (fun _ _ _ => Scene.twin_onManagerKey (fun _ => rfl) _ _ _)
    (fun _ _ _ _ _ _ => Scene.twin_onManagerKey (fun _ => rfl) _ _ _) forest world owner

/-- A selection changes a manager in what it knows of its frame. -/
lemma Manager.idle_select (camera : Camera α) (bound : Sphere α) (modelView : Mat4 α)
    (m : Manager α) : (select camera bound modelView m).state.idle = m.idle := by
  obtain ⟨-, -, hstate⟩ | ⟨-, frame, hframe, set, frame', hset, -, hstate⟩ :=
    select_cases camera bound modelView m
  · rw [hstate]
    rfl
  · rw [hstate]
    rfl

end Passes

end SceneLighting
