import SceneLighting.Proofs.Scene.Assignment
import Mathlib.Algebra.Ring.Nat

/-!
# Attaching managers one after another

A manager that is not attached yet lays claim to the nodes that it is to light. When it is attached,
these nodes are lit by it and the claim is gone, while the claims of others stay. So what is lit in
the end by whom, and how many nodes have come to be lit, does not depend on the order.
-/

namespace SceneLighting

open SceneLighting.Action

variable {α : Type}

/-- How many nodes a manager was attached to in an event. -/
def Event.attached : Event → Nat
  | .decorated _ count => count
  | _                  => 0

lemma Node.shape_bare (node : Node α) : node.bare.shape = node.shape :=
  rfl

namespace Scene

variable {scene scene' before between after : Scene α} {key k : NodeKey} {node : Node α}
  {m m' : ManagerKey} {manager : Manager α}

lemma managerKey?_eq_some :
    scene.managerKey? key = some m ↔
      ∃ node, scene.node? key = some node ∧ node.kind = .manager m := by
  rw [managerKey?]
  cases hnode : scene.node? key with
  | none => simp
  | some node => cases hkind : node.kind <;> simp [hkind]

lemma Relit.shapes_eq (h : Relit before after) :
    Nodes.shapes after.nodes = Nodes.shapes before.nodes := by
  funext key
  have hshape : ∀ o : Option (Node α), o.map Node.shape = (o.map Node.bare).map Node.shape :=
    fun o => by simp [Function.comp_def, Node.shape_bare]
  rw [Nodes.shapes, Nodes.shapes, hshape, h.nodes, ← hshape]

lemma Relit.isSome_eq (h : Relit before after) (key : NodeKey) :
    (after.nodes.get? key).isSome = (before.nodes.get? key).isSome := by
  rw [← Option.isSome_map (f := Node.bare), h.nodes, Option.isSome_map]

lemma Relit.managerKey?_eq (h : Relit before after) (key : NodeKey) :
    after.managerKey? key = before.managerKey? key := by
  have hkind : ∀ o : Option (Node α), o.map Node.kind = (o.map Node.bare).map Node.kind :=
    fun o => by simp [Function.comp_def, Node.bare]
  have hkinds : (after.node? key).map Node.kind = (before.node? key).map Node.kind := by
    rw [hkind, node?, h.nodes, ← hkind, node?]
  rw [managerKey?, hkinds, managerKey?]

/-! ### Claims -/

/-- The manager is there, and it is not attached to its nodes yet. -/
def Pending (scene : Scene α) (m : ManagerKey) : Prop :=
  ∃ manager, scene.managers.get? m = some manager ∧ manager.isDecorated = false

lemma pending_iff : scene.Pending m ↔
    (scene.managers.get? m).map Manager.isDecorated = some false := by
  simp [Pending]

/-- The manager lights the node, or it is to light it when it is attached. -/
def Assigned (scene : Scene α) (key : NodeKey) (m : ManagerKey) : Prop :=
  Nodes.selectors scene.nodes key = some m ∨
    Nodes.Waits scene.nodes key ∧ Shape.Nearest (Nodes.shapes scene.nodes) key m ∧ scene.Pending m

/-- When all managers are attached, what is to light a node lights it. -/
lemma assigned_iff_of_not_pending (h : ∀ m, ¬scene.Pending m) :
    scene.Assigned key m ↔ Nodes.selectors scene.nodes key = some m :=
  or_iff_left fun hclaim => h m hclaim.2.2

/-! ### Nodes that gain a selector -/

/-- The number of nodes that nothing lights. -/
def unlitCount (scene : Scene α) : Nat :=
  (scene.nodes.keys.filter fun key => (Nodes.selectors scene.nodes key).isNone).length

/-- The nodes that nothing lights before and something lights afterwards. -/
def gained (before after : Scene α) : List NodeKey :=
  before.nodes.keys.filter fun key =>
    (Nodes.selectors before.nodes key).isNone && (Nodes.selectors after.nodes key).isSome

/-- Where no selector is lost, what was unlit has gained one or is unlit still. -/
lemma unlitCount_eq_gained
    (hlive : ∀ key, (scene'.nodes.get? key).isSome = (scene.nodes.get? key).isSome)
    (hkept : ∀ key m, Nodes.selectors scene.nodes key = some m →
      Nodes.selectors scene'.nodes key = some m) :
    scene.unlitCount = (scene.gained scene').length + scene'.unlitCount := by
  have hperm : scene.nodes.keys.Perm scene'.nodes.keys := by
    apply (List.perm_ext_iff_of_nodup scene.nodes.nodup_keys scene'.nodes.nodup_keys).2
    intro key
    rw [SlotMap.mem_keys_iff, SlotMap.mem_keys_iff, hlive]
  rw [unlitCount, unlitCount, gained, ← (hperm.filter _).length_eq]
  generalize scene.nodes.keys = keys
  induction keys with
  | nil => rfl
  | cons key keys ih =>
    have hkey := hkept key
    cases hb : Nodes.selectors scene.nodes key <;> cases ha : Nodes.selectors scene'.nodes key <;>
      simp_all <;> omega

/-! ### One manager -/

lemma selectors_foldl_eq (nodes : Nodes α) (m : ManagerKey) (keys : List NodeKey) (k : NodeKey) :
    Nodes.selectors (keys.foldl (fun nodes key => withSelector nodes m key) nodes) k =
      if k ∈ keys then (nodes.get? k).map fun _ => m else Nodes.selectors nodes k := by
  induction keys generalizing nodes with
  | nil => rfl
  | cons key keys ih =>
    rw [List.foldl_cons, ih, Nodes.selectors, withSelector, SlotMap.get?_modify]
    by_cases hk : k = key
    · subst hk
      cases nodes.get? k <;> simp
    · simp only [List.mem_cons, hk, false_or]
      rfl

lemma decorate_eq (hnode : scene.node? key = some node) (hkind : node.kind = .manager m)
    (hm : scene.managers.get? m = some manager) :
    decorate key scene =
      if manager.isDecorated then ⟨.ok 0, scene, []⟩
      else ⟨.ok (scene.unlitBy key node).length,
        scene.withDecoration m (scene.unlitBy key node),
        [.decorated node.name (scene.unlitBy key node).length]⟩ := by
  rw [decorate, get_bind_apply, findManagerNode_eq_ok.2 ⟨hnode, hkind⟩, check_bind_apply]
  dsimp only
  rw [findManager_eq_ok.2 hm, check_bind_apply]
  dsimp only
  split
  · rfl
  · simp [bind_apply, Except.map]

section WithDecoration

variable (h : scene.WellFormed) (hnode : scene.node? key = some node)
  (hkind : node.kind = .manager m)

include h hnode hkind

/-- A node is lit by what it was lit by before, or it waited below the manager. -/
lemma WellFormed.selectors_withDecoration (k : NodeKey) (m' : ManagerKey) :
    Nodes.selectors (scene.withDecoration m (scene.unlitBy key node)).nodes k = some m' ↔
      Nodes.selectors scene.nodes k = some m' ∨
        Nodes.Waits scene.nodes k ∧ Shape.Nearest (Nodes.shapes scene.nodes) k m ∧ m = m' := by
  have hmem := h.mem_unlitBy hnode hkind (k := k)
  rw [Scene.withDecoration, selectors_foldl_eq]
  split
  next hk =>
    obtain ⟨⟨hfree, s, hs, hdrawn⟩, hnearest⟩ := hmem.1 hk
    obtain ⟨n, hn, -⟩ := Forest.exists_of_shapes hs
    simp only [hn, Option.map_some, Option.some.injEq, hfree, reduceCtorEq, false_or]
    exact ⟨fun hmm => ⟨⟨hfree, s, hs, hdrawn⟩, hnearest, hmm⟩, fun hclaim => hclaim.2.2⟩
  next hk =>
    rw [or_iff_left]
    rintro ⟨hwaits, hnearest, -⟩
    exact hk (hmem.2 ⟨hwaits, hnearest⟩)

omit hnode hkind in
omit h in
lemma pending_withDecoration (keys : List NodeKey) :
    (scene.withDecoration m keys).Pending m' ↔ scene.Pending m' ∧ m ≠ m' := by
  simp only [Pending, withDecoration, SlotMap.get?_modify]
  by_cases hm : m' = m
  · subst hm
    simp
  · simp [hm, Ne.symm hm]

/-- Attaching a manager settles its own claims and leaves those of others. -/
theorem WellFormed.assigned_withDecoration (hm : scene.Pending m) :
    (scene.withDecoration m (scene.unlitBy key node)).Assigned k m' ↔ scene.Assigned k m' := by
  have hshapes := (relit_withDecoration scene m (scene.unlitBy key node)).shapes_eq
  have hsel := fun m' => h.selectors_withDecoration hnode hkind k m'
  rw [Assigned, Assigned, Nodes.Waits, hshapes, pending_withDecoration, hsel]
  constructor
  · rintro ((hlit | ⟨hwaits, hnearest, rfl⟩) | ⟨⟨hfree, hdrawn⟩, hnearest, hpending, -⟩)
    · exact Or.inl hlit
    · exact Or.inr ⟨hwaits, hnearest, hm⟩
    · refine Or.inr ⟨⟨?_, hdrawn⟩, hnearest, hpending⟩
      apply Option.eq_none_iff_forall_ne_some.2
      intro m'' hlit
      simpa [hfree] using (hsel m'').2 (Or.inl hlit)
  · rintro (hlit | ⟨hwaits, hnearest, hpending⟩)
    · exact Or.inl (Or.inl hlit)
    · by_cases hmm : m = m'
      · subst hmm
        exact Or.inl (Or.inr ⟨hwaits, hnearest, rfl⟩)
      · refine Or.inr ⟨⟨?_, hwaits.2⟩, hnearest, hpending, hmm⟩
        apply Option.eq_none_iff_forall_ne_some.2
        intro m'' hlit
        obtain hlit | ⟨-, hnearest', -⟩ := (hsel m'').1 hlit
        · simp [hwaits.1] at hlit
        · exact hmm (hnearest'.unique hnearest)

/-- The nodes that gain a selector are those that the manager is attached to. -/
lemma WellFormed.gained_withDecoration :
    (scene.gained (scene.withDecoration m (scene.unlitBy key node))).Perm
      (scene.unlitBy key node) := by
  have hsel := h.selectors_withDecoration hnode hkind
  generalize scene.withDecoration m (scene.unlitBy key node) = after at hsel
  have hnodup : (scene.gained after).Nodup := scene.nodes.nodup_keys.filter _
  apply (List.perm_ext_iff_of_nodup hnodup (h.nodup_unlitBy hnode)).2
  intro k
  rw [h.mem_unlitBy hnode hkind, gained, List.mem_filter, Bool.and_eq_true,
    Option.isNone_iff_eq_none, Option.isSome_iff_exists]
  constructor
  · rintro ⟨-, hfree, m', hm'⟩
    obtain hlit | ⟨hwaits, hnearest, -⟩ := (hsel k m').1 hm'
    · simp [hfree] at hlit
    · exact ⟨hwaits, hnearest⟩
  · rintro ⟨hwaits, hnearest⟩
    obtain ⟨hfree, s, hs, -⟩ := id hwaits
    obtain ⟨n, hn, -⟩ := Forest.exists_of_shapes hs
    have hlive : k ∈ scene.nodes.keys := SlotMap.mem_keys_iff.2 (by simp [hn])
    exact ⟨hlive, hfree, m, (hsel k m).2 (Or.inr ⟨hwaits, hnearest, rfl⟩)⟩

end WithDecoration

/-! ### Several managers -/

/-- The number of nodes that something was attached to, as it was reported. -/
def attachedIn (log : List Event) : Nat :=
  (log.map Event.attached).sum

@[simp] lemma attachedIn_append (log log' : List Event) :
    attachedIn (log ++ log') = attachedIn log + attachedIn log' := by
  simp [attachedIn]

lemma attachedIn_eq_zero {log : List Event} (h : ∀ event ∈ log, event.attached = 0) :
    attachedIn log = 0 := by
  apply List.sum_eq_zero_iff_forall_eq_nat.2
  intro n hn
  obtain ⟨event, hevent, rfl⟩ := List.mem_map.1 hn
  exact h event hevent

/-- What is different after the managers of the manager nodes `keys` were attached to `count`
nodes. -/
structure Decorated (before : Scene α) (keys : List NodeKey) (count : Nat) (after : Scene α) :
    Prop where
  wellFormed : after.WellFormed
  relit : Relit before after
  assigned_iff : ∀ k m, after.Assigned k m ↔ before.Assigned k m
  pending_iff : ∀ m, after.Pending m ↔
    before.Pending m ∧ ∀ key ∈ keys, before.managerKey? key ≠ some m
  kept : ∀ k m, Nodes.selectors before.nodes k = some m → Nodes.selectors after.nodes k = some m
  unlitCount_eq : before.unlitCount = count + after.unlitCount

lemma Decorated.refl (h : scene.WellFormed) : Decorated scene [] 0 scene where
  wellFormed := h
  relit := .refl scene
  assigned_iff _ _ := Iff.rfl
  pending_iff _ := by simp
  kept _ _ := id
  unlitCount_eq := (Nat.zero_add _).symm

lemma Decorated.trans {keys keys' : List NodeKey} {count count' : Nat}
    (h : Decorated before keys count between) (h' : Decorated between keys' count' after) :
    Decorated before (keys ++ keys') (count + count') after where
  wellFormed := h'.wellFormed
  relit := h.relit.trans _ _ _ h'.relit
  assigned_iff k m := (h'.assigned_iff k m).trans (h.assigned_iff k m)
  pending_iff m := by
    simp only [h'.pending_iff, h.pending_iff, h.relit.managerKey?_eq, List.mem_append, or_imp,
      forall_and, and_assoc]
  kept k m hm := h'.kept k m (h.kept k m hm)
  unlitCount_eq := by rw [h.unlitCount_eq, h'.unlitCount_eq, Nat.add_assoc]

theorem WellFormed.decorated (h : scene.WellFormed) (hkey : (scene.managerKey? key).isSome) :
    ∃ count after log, Scene.decorate key scene = ⟨.ok count, after, log⟩ ∧
      attachedIn log = count ∧ Decorated scene [key] count after := by
  obtain ⟨m, hkey⟩ := Option.isSome_iff_exists.1 hkey
  obtain ⟨node, hnode, hkind⟩ := managerKey?_eq_some.1 hkey
  obtain ⟨manager, hm⟩ := Option.isSome_iff_exists.1 (h.isSome_of_kind hnode hkind)
  rw [decorate_eq hnode hkind hm]
  cases hd : manager.isDecorated with
  | true =>
    refine ⟨0, scene, [], rfl, rfl, ?_⟩
    constructor
    case wellFormed => exact h
    case relit => exact .refl scene
    case assigned_iff => exact fun _ _ => Iff.rfl
    case pending_iff =>
      intro m'
      rw [iff_self_and]
      rintro ⟨manager', hm', hd'⟩ key' hk hkey'
      obtain rfl := List.mem_singleton.1 hk
      obtain rfl : m = m' := by simpa [hkey] using hkey'
      simp_all
    case kept => exact fun _ _ => id
    case unlitCount_eq => exact (Nat.zero_add _).symm
  | false =>
    refine ⟨_, _, _, rfl, by simp [attachedIn, Event.attached], ?_⟩
    constructor
    case wellFormed => exact h.withDecoration _ _
    case relit => exact relit_withDecoration _ _ _
    case assigned_iff => exact fun k m' => h.assigned_withDecoration hnode hkind ⟨manager, hm, hd⟩
    case pending_iff => exact fun m' => by simp [pending_withDecoration, hkey]
    case kept => exact fun k m' hm' => (h.selectors_withDecoration hnode hkind k m').2 (Or.inl hm')
    case unlitCount_eq =>
      rw [← (h.gained_withDecoration hnode hkind).length_eq]
      apply unlitCount_eq_gained
      · exact (relit_withDecoration _ _ _).isSome_eq
      · exact fun k m' hm' => (h.selectors_withDecoration hnode hkind k m').2 (Or.inl hm')

/-- Managers of manager nodes can be attached in any order, and more than once. -/
theorem WellFormed.decorated_all (h : scene.WellFormed) {keys : List NodeKey}
    (hkeys : ∀ key ∈ keys, (scene.managerKey? key).isSome) :
    ∃ counts after log, keys.mapM Scene.decorate scene = ⟨.ok counts, after, log⟩ ∧
      attachedIn log = counts.sum ∧ Decorated scene keys counts.sum after := by
  induction keys generalizing scene with
  | nil => exact ⟨[], scene, [], rfl, rfl, .refl h⟩
  | cons key keys ih =>
    obtain ⟨count, between, log, hkey, hlog, hdecorated⟩ := h.decorated (hkeys key (by simp))
    have hrest : ∀ k ∈ keys, (between.managerKey? k).isSome := fun k hk => by
      rw [hdecorated.relit.managerKey?_eq]
      exact hkeys k (by simp [hk])
    obtain ⟨counts, after, log', hall, hlog', hdecorated'⟩ := ih hdecorated.wellFormed hrest
    refine ⟨count :: counts, after, log ++ log', ?_, ?_, ?_⟩
    · simp [List.mapM_cons, bind_apply, hkey, hall, Except.map]
    · rw [attachedIn_append, hlog, hlog', List.sum_cons]
    · rw [List.sum_cons]
      exact hdecorated.trans hdecorated'

/-- To attach managers and forget the answers. -/
lemma forM_decorate (keys : List NodeKey) :
    (keys.forM fun key => do let _ ← decorate (α := α) key) =
      (fun _ => ()) <$> keys.mapM decorate := by
  induction keys with
  | nil => rfl
  | cons key keys ih =>
    rw [List.forM_eq_forM, List.forM_cons, ← List.forM_eq_forM, ih]
    simp only [List.mapM_cons, ← bind_pure_comp, bind_assoc, pure_bind]

end Scene

end SceneLighting
