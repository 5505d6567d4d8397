import SceneLighting.Scene.Collection
import SceneLighting.Scene.DrawList
import SceneLighting.Proofs.Action
import SceneLighting.Proofs.Scene.Forest
import SceneLighting.Proofs.Slot.Retirement

/-!
# Managers one by one

Traversals change the managers of a scene through their keys. They neither add nor remove any, so
what they do to all managers is what they do to each.
-/

namespace SceneLighting

variable {α : Type}

/-- The same keys name managers before and after, and those of one key are related. -/
structure Managers.Evolve (R : Manager α → Manager α → Prop) (before after : Managers α) :
    Prop where
  valid : before.Valid → after.Valid
  retired : ∀ {key}, before.Retired key → after.Retired key
  rel : ∀ key, Option.Rel R (before.get? key) (after.get? key)

namespace Managers.Evolve

variable {R : Manager α → Manager α → Prop} {before after : Managers α}

lemma refl (hrefl : ∀ m, R m m) (managers : Managers α) : Evolve R managers managers where
  valid := id
  retired := id
  rel key := by
    cases managers.get? key
    · exact .none
    · exact .some (hrefl _)

lemma trans (htrans : ∀ a b c, R a b → R b c → R a c) (x y z : Managers α)
    (hxy : Evolve R x y) (hyz : Evolve R y z) : Evolve R x z where
  valid := hyz.valid ∘ hxy.valid
  retired := hyz.retired ∘ hxy.retired
  rel key := by
    have h₁ := hxy.rel key
    have h₂ := hyz.rel key
    cases hx : x.get? key <;> cases hy : y.get? key <;> cases hz : z.get? key <;>
      simp only [hx, hy, hz] at h₁ h₂ <;> cases h₁ <;> cases h₂
    · exact .none
    · exact .some (htrans _ _ _ ‹_› ‹_›)

lemma isSome_eq (h : Evolve R before after) (key : ManagerKey) :
    (after.get? key).isSome = (before.get? key).isSome := by
  have := h.rel key
  cases hb : before.get? key <;> cases ha : after.get? key <;> simp only [hb, ha] at this
  · rfl
  · cases this
  · cases this
  · rfl

lemma issued (h : Evolve R before after) {key : ManagerKey} (hkey : before.Issued key) :
    after.Issued key := by
  rcases hkey with hkey | hkey
  · left
    rwa [h.isSome_eq]
  · exact Or.inr (h.retired hkey)

lemma exists_before (h : Evolve R before after) {key : ManagerKey} {m' : Manager α}
    (hm : after.get? key = some m') : ∃ m, before.get? key = some m ∧ R m m' := by
  have := h.rel key
  rw [hm] at this
  cases hb : before.get? key with
  | none =>
    rw [hb] at this
    cases this
  | some m =>
    rw [hb] at this
    cases this
    exact ⟨m, rfl, ‹_›⟩

lemma exists_after (h : Evolve R before after) {key : ManagerKey} {m : Manager α}
    (hm : before.get? key = some m) : ∃ m', after.get? key = some m' ∧ R m m' := by
  have := h.rel key
  rw [hm] at this
  cases ha : after.get? key with
  | none =>
    rw [ha] at this
    cases this
  | some m' =>
    rw [ha] at this
    cases this
    exact ⟨m', rfl, ‹_›⟩

lemma modify (hrefl : ∀ m, R m m) {key : ManagerKey} {f : Manager α → Manager α}
    (h : ∀ m, before.get? key = some m → R m (f m)) :
    Evolve R before (before.modify key f) where
  valid hv := hv.modify key f
  retired h := h.modify key f
  rel k := by
    rw [SlotMap.get?_modify]
    by_cases hk : k = key
    · subst hk
      cases hb : before.get? k with
      | none => simp
      | some m => simpa using h m hb
    · rw [if_neg hk]
      exact (refl hrefl before).rel k

end Managers.Evolve

namespace Scene

variable {β : Type} {R : Manager α → Manager α → Prop}

lemma onManagerKey_of_get? {key : ManagerKey} {managers : Managers α} {m : Manager α}
    (hm : managers.get? key = some m) (part : Part) (missing : Fault)
    (act : Action (Manager α) β) :
    onManagerKey key part missing act managers =
      { act m with state := managers.modify key fun _ => (act m).state } := by
  simp [onManagerKey, hm]

lemma onManagerKey_of_none {key : ManagerKey} {managers : Managers α}
    (hm : managers.get? key = none) (part : Part) (missing : Fault)
    (act : Action (Manager α) β) :
    onManagerKey key part missing act managers =
      ⟨.error missing, managers, [.failed part missing]⟩ := by
  simp [onManagerKey, hm]

lemma answers_onManagerKey {key : ManagerKey} {part : Part} {missing : Fault}
    {act : Action (Manager α) β} {managers after : Managers α} {b : β} :
    (onManagerKey key part missing act).Answers managers b after ↔
      ∃ m m', managers.get? key = some m ∧ act.Answers m b m' ∧
        managers.modify key (fun _ => m') = after := by
  cases hm : managers.get? key with
  | none => simp [Action.Answers, onManagerKey_of_none hm]
  | some m => simp [Action.Answers, onManagerKey_of_get? hm]

/-- To use one manager leaves the others alone. -/
lemma get?_onManagerKey {β : Type} {key m : ManagerKey} (hne : m ≠ key) (part : Part)
    (missing : Fault) (act : Action (Manager α) β) (managers : Managers α) :
    (onManagerKey key part missing act managers).state.get? m = managers.get? m := by
  cases hm : managers.get? key with
  | none => rw [onManagerKey_of_none hm]
  | some manager =>
    rw [onManagerKey_of_get? hm]
    exact (SlotMap.get?_modify _ _ _ _).trans (if_neg hne)

/-- What an action does to one manager is all that happens. -/
lemma keeps_onManagerKey (hrefl : ∀ m, R m m) {key : ManagerKey} {part : Part} {missing : Fault}
    {act : Action (Manager α) β} (h : Action.Keeps R act) :
    Action.Keeps (Managers.Evolve R) (onManagerKey key part missing act) := by
  intro managers
  cases hm : managers.get? key with
  | none =>
    rw [onManagerKey_of_none hm]
    exact .refl hrefl managers
  | some m =>
    rw [onManagerKey_of_get? hm]
    refine .modify hrefl fun m' hm' => ?_
    obtain rfl : m = m' := by simpa [hm] using hm'
    exact h m

end Scene

/-! ### Traversals -/

namespace Culling

@[simp] lemma managers_release (c : Culling α) (lighting : Option (Lighting α)) :
    (c.release lighting).managers = c.managers := by
  cases lighting <;> rfl

@[simp] lemma managers_leave (c : Culling α) (node : Node α) :
    (c.leave node).managers = c.managers := by
  cases h : node.kind <;> simp [leave, h]

@[simp] lemma managers_enter [Scalar α] (c : Culling α) (node : Node α) :
    (c.enter node).managers = c.managers := by
  cases h : node.kind <;> simp [enter, h]

end Culling

section Traversals

variable [Scalar α] {camera : Camera α}

section Keyed

variable {Q : Managers α → Managers α → Prop} {P : ManagerKey → Prop} (refl : ∀ s, Q s s)
  (trans : ∀ s t u, Q s t → Q t u → Q s u)
  (hbegin : ∀ key part missing, Action.Keeps Q
    (Scene.onManagerKey key part missing (Manager.beginFrame (α := α))))
  (hregister : ∀ key part missing node source world, Action.Keeps Q
    (Scene.onManagerKey key part missing
      (Action.modify fun m => Manager.register m node source world)))
  (hselect : ∀ key, P key → ∀ part missing bound modelView, Action.Keeps Q
    (Scene.onManagerKey key part missing (Manager.select camera bound modelView)))

include refl trans

namespace Forest

include hbegin hregister

lemma keeps_collectNode_of_keyed (key : NodeKey) (node : Node α) (world : Mat4 α)
    (owner : Option ManagerKey) : Action.Keeps Q (collectNode key node world owner) := by
  unfold collectNode
  split
  · exact .bind trans (hbegin _ _ _) fun _ => .pure refl _
  · split
    · exact .fail refl _ _
    · exact .bind trans (hregister _ _ _ _ _ _) fun _ => .pure refl _
  · exact .pure refl _

/-- To collect lights is to begin frames and to register lights, one manager at a time. -/
theorem keeps_collect_of_keyed (forest : Forest α) (world : Mat4 α) (owner : Option ManagerKey) :
    Action.Keeps Q (forest.collect world owner) := by
  induction forest generalizing world owner with
  | nil => exact .pure refl _
  | lost => exact .fail refl _ _
  | tree key node children rest ihc ihr =>
    refine .bind trans (keeps_collectNode_of_keyed refl trans hbegin hregister _ _ _ _) fun _ => ?_
    refine .bind trans (ihc _ _) fun _ => ?_
    exact .bind trans (ihr _ _) fun _ => .pure refl _

omit hbegin hregister
include hselect

lemma keeps_selectNode_of_keyed (key : NodeKey) {node : Node α}
    (hnode : ∀ m, node.selector = some m → P m) (children : Forest α) :
    Action.Keeps (fun c c' => Q c.managers c'.managers)
      (selectNode camera key node children) := by
  have refl' := fun c : Culling α => refl c.managers
  have trans' := fun a b c : Culling α => trans a.managers b.managers c.managers
  unfold selectNode
  split
  next => exact .pure refl' _
  next manager hselector =>
    refine .bind trans' refl' fun c => .bind trans' (.on ?_ fun _ _ h => h) fun _ =>
      .bind trans' (.modify fun c => refl c.managers) fun _ => .pure refl' _
    exact hselect manager (hnode manager hselector) _ _ _ _

/-- To make a draw list is to select lights, of one manager at a time. -/
theorem keeps_draws_of_keyed (forest : Forest α)
    (hforest : ∀ e ∈ forest.preorder, ∀ m, e.2.selector = some m → P m) :
    Action.Keeps (fun c c' => Q c.managers c'.managers) (forest.draws camera) := by
  have refl' := fun c : Culling α => refl c.managers
  have trans' := fun a b c : Culling α => trans a.managers b.managers c.managers
  have same : ∀ f : Culling α → Culling α, (∀ c, (f c).managers = c.managers) →
      Action.Keeps (fun c c' : Culling α => Q c.managers c'.managers) (Action.modify f) :=
    fun f hf => .modify fun c => (hf c).symm ▸ refl c.managers
  induction forest with
  | nil => exact .pure refl' _
  | lost => exact .fail refl' _ _
  | tree key node children rest ihc ihr =>
    simp only [preorder, List.mem_cons, List.mem_append] at hforest
    refine .bind trans' (same _ fun c => c.managers_enter node) fun _ => .bind trans' ?_ fun _ =>
      .bind trans' ?_ fun _ => .bind trans' (ihc ?_) fun _ => .bind trans' (same _ ?_) fun _ =>
      .bind trans' (ihr ?_) fun _ => .pure refl' _
    · exact keeps_selectNode_of_keyed refl trans hselect _ (hforest _ (Or.inl rfl)) _
    · exact .bind trans' refl' fun _ => .pure refl' _
    · exact fun e he => hforest e (Or.inr (Or.inl he))
    · exact fun c => by simp
    · exact fun e he => hforest e (Or.inr (Or.inr he))

end Forest

include hselect in
/-- Of a scene that is drawn only the managers change, as selections change those that nodes are
attached to. -/
theorem Scene.exists_drawList_state_of_keyed (scene : Scene α)
    (hscene : ∀ key node m, scene.node? key = some node → node.selector = some m → P m) :
    ∃ managers, (drawList camera scene).state = { scene with managers } ∧
      Q scene.managers managers := by
  have refl' := fun c : Culling α => refl c.managers
  have trans' := fun a b c : Culling α => trans a.managers b.managers c.managers
  rw [drawList, Action.get_bind_apply, Action.on_apply]
  refine ⟨_, rfl, ?_⟩
  refine Action.Keeps.bind trans' ?_ (fun _ => ?_) (.start camera scene.managers)
  · refine Forest.keeps_draws_of_keyed refl trans hselect scene.tree ?_
    exact fun e he m hm => hscene e.1 e.2 m (Forest.get?_of_mem_unfold he) hm
  · exact .bind trans' refl' fun _ => .pure refl' _

end Keyed

variable {R : Manager α → Manager α → Prop} (hrefl : ∀ m, R m m)
  (htrans : ∀ a b c, R a b → R b c → R a c)

include hrefl htrans

variable (hselect : ∀ bound modelView, Action.Keeps R (Manager.select camera bound modelView))

namespace Forest

theorem keeps_collect (hbegin : Action.Keeps R Manager.beginFrame)
    (hregister : ∀ node source world m, R m (Manager.register m node source world))
    (forest : Forest α) (world : Mat4 α) (owner : Option ManagerKey) :
    Action.Keeps (Managers.Evolve R) (forest.collect world owner) :=
  keeps_collect_of_keyed (.refl hrefl) (.trans htrans)
    (fun _ _ _ => Scene.keeps_onManagerKey hrefl hbegin)
    (fun _ _ _ _ _ _ => Scene.keeps_onManagerKey hrefl (.modify (hregister _ _ _))) _ _ _

include hselect in
lemma keeps_selectNode (key : NodeKey) (node : Node α) (children : Forest α) :
    Action.Keeps (fun c c' => Managers.Evolve R c.managers c'.managers)
      (selectNode camera key node children) :=
  keeps_selectNode_of_keyed (.refl hrefl) (.trans htrans)
    (fun _ _ _ _ _ _ => Scene.keeps_onManagerKey hrefl (hselect _ _)) _ (fun _ _ => trivial) _

include hselect in
theorem keeps_draws (forest : Forest α) :
    Action.Keeps (fun c c' => Managers.Evolve R c.managers c'.managers) (forest.draws camera) :=
  keeps_draws_of_keyed (.refl hrefl) (.trans htrans)
    (fun _ _ _ _ _ _ => Scene.keeps_onManagerKey hrefl (hselect _ _)) _
    fun _ _ _ _ => trivial

end Forest

include hselect in
/-- Of a scene that is drawn only the managers change, each as selections change it. -/
theorem Scene.exists_drawList_state (scene : Scene α) : ∃ managers,
    (drawList camera scene).state = { scene with managers } ∧
      Managers.Evolve R scene.managers managers :=
  exists_drawList_state_of_keyed (.refl hrefl) (.trans htrans)
    (fun _ _ _ _ _ _ => keeps_onManagerKey hrefl (hselect _ _)) scene
    fun _ _ _ _ _ => trivial

end Traversals

end SceneLighting
