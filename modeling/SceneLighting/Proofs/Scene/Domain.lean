import SceneLighting.Proofs.Scene.Lifetime
import SceneLighting.Proofs.Scene.Renewal
import SceneLighting.Proofs.Scene.Traversal

/-!
# What a manager comes to light

The domain of a manager node is what lies below it up to other manager nodes. To attach its manager
is to let it light what waits in its domain, and nothing else. This is done once: later on neither
the manager node nor a frame attaches it to anything, whatever has been added to its domain.
-/

namespace SceneLighting

variable {α : Type}

/-! ### Domains -/

lemma Path.owner_eq_some {path : Path α} {m : ManagerKey} : path.owner = some m ↔
    ∃ below key node above, path = below ++ (key, node) :: above ∧ node.kind = .manager m ∧
      ∀ e ∈ below, e.2.isManager = false := by
  rw [owner, List.findSome?_eq_some_iff]
  constructor
  · rintro ⟨below, ⟨key, node⟩, above, rfl, howned, hbelow⟩
    exact ⟨below, key, node, above, rfl, Node.owned_eq_some.1 howned,
      fun e he => Node.owned_eq_none.1 (hbelow e he)⟩
  · rintro ⟨below, key, node, above, rfl, hkind, hbelow⟩
    exact ⟨below, (key, node), above, rfl, Node.owned_eq_some.2 hkind,
      fun e he => Node.owned_eq_none.2 (hbelow e he)⟩

namespace Scene

open Worklist (drain)

variable {scene : Scene α} {key k : NodeKey} {node : Node α} {m : ManagerKey}

/-- The node `k` is `key` or below it, and from there down to `k` there is no manager node. -/
def Governs (scene : Scene α) (key k : NodeKey) : Prop :=
  ∃ below node above, scene.path k = below ++ (key, node) :: above ∧
    ∀ e ∈ below, e.2.isManager = false

lemma WellFormed.node?_of_path (h : scene.WellFormed) {below above : Path α}
    (hpath : scene.path k = below ++ (key, node) :: above) : scene.node? key = some node := by
  have hclimbs := h.climbs_path k
  rw [hpath] at hclimbs
  cases hclimbs.of_append with
  | cons hnode => exact hnode

/-- The domain of a manager node is where its manager is the nearest. -/
theorem WellFormed.governs_iff (h : scene.WellFormed) (hnode : scene.node? key = some node)
    (hkind : node.kind = .manager m) :
    scene.Governs key k ↔ Shape.Nearest (Nodes.shapes scene.nodes) k m := by
  rw [← h.owner_eq_some, Path.owner_eq_some]
  constructor
  · rintro ⟨below, node', above, hpath, hbelow⟩
    obtain rfl : node' = node := by simpa [hnode] using (h.node?_of_path hpath).symm
    exact ⟨below, key, node', above, hpath, hkind, hbelow⟩
  · rintro ⟨below, key', node', above, hpath, hkind', hbelow⟩
    obtain rfl : key' = key := h.eq_of_managerKey?
      (managerKey?_eq_some.2 ⟨node', h.node?_of_path hpath, hkind'⟩)
      (managerKey?_eq_some.2 ⟨node, hnode, hkind⟩)
    exact ⟨below, node', above, hpath, hbelow⟩

/-! ### Attaching a manager -/

/-- The manager `m` of the node `key` is attached to `keys`, which are the nodes that wait in its
domain, and nothing else is different. -/
structure Adorned (before : Scene α) (key : NodeKey) (m : ManagerKey) (keys : List NodeKey)
    (after : Scene α) : Prop where
  nodup : keys.Nodup
  mem_iff : ∀ k, k ∈ keys ↔ Nodes.Waits before.nodes k ∧ before.Governs key k
  node?_eq : ∀ k, after.node? k =
    if k ∈ keys then (before.node? k).map fun node => { node with selector := some m }
    else before.node? k
  manager_eq : ∀ m', after.managers.get? m' =
    if m' = m then (before.managers.get? m).map fun manager =>
      { manager with isDecorated := true }
    else before.managers.get? m'
  root_eq : after.root = before.root
  nodes_eq : after.nodes.slots.size = before.nodes.slots.size ∧
    after.nodes.free = before.nodes.free
  managers_eq : after.managers.slots.size = before.managers.slots.size ∧
    after.managers.free = before.managers.free

theorem WellFormed.adorned (h : scene.WellFormed) (hnode : scene.node? key = some node)
    (hkind : node.kind = .manager m) {keys : List NodeKey}
    (hkeys : keys.Perm (scene.unlitBy key node)) :
    Adorned scene key m keys (scene.withDecoration m keys) where
  nodup := hkeys.nodup_iff.2 (h.nodup_unlitBy hnode)
  mem_iff k := by
    rw [hkeys.mem_iff, h.mem_unlitBy hnode hkind, h.governs_iff hnode hkind]
  node?_eq k := get?_foldl_withSelector scene.nodes m keys k
  manager_eq m' := SlotMap.get?_modify _ _ _ _
  root_eq := rfl
  nodes_eq := slots_foldl_withSelector scene.nodes m keys
  managers_eq := ⟨SlotMap.size_slots_modify _ _ _, SlotMap.free_modify _ _ _⟩

/-! ### Attaching it again -/

variable [Scalar α]

/-- What is attached when a frame begins was to be attached, whether the frame begins or not. -/
lemma WellFormed.selectors_beginFrame (h : scene.WellFormed) (hm : ¬scene.Pending m)
    (hk : Nodes.selectors (Scene.beginFrame scene).state.nodes k = some m) :
    Nodes.selectors scene.nodes k = some m := by
  cases hresult : (Scene.beginFrame scene).result with
  | error fault =>
    obtain ⟨_, _, _, _, -, -, -, -, hleft⟩ := h.interrupted hresult
    rwa [hleft.nodes_eq] at hk
  | ok =>
    obtain hlit | ⟨-, -, hpending⟩ := ((h.renewed hresult).selectors_iff k m).1 hk
    · exact hlit
    · exact absurd hpending hm

/-- The manager `m` of the node `key` is not attached to anything any more. -/
structure Spent (scene : Scene α) (key : NodeKey) (m : ManagerKey) : Prop where
  decorate : (scene.node? key).isSome → decorate key scene = ⟨.ok 0, scene, []⟩
  stale : scene.node? key = none → Action.Fails (Scene.decorate key) scene
  beginFrame : ∀ k, Nodes.selectors (beginFrame scene).state.nodes k = some m →
    Nodes.selectors scene.nodes k = some m

/-- Once a manager is attached it stays so, as long as its node is there. -/
theorem spent_after {run later : List (Step α)} (hnode : (after run).node? key = some node)
    (hkind : node.kind = .manager m) {manager : Manager α}
    (hm : (after run).managers.get? m = some manager) (hdone : manager.isDecorated = true)
    (hlater : ∀ step ∈ later, step.IsByUses) : Spent (after (run ++ later)) key m := by
  have hw := wellFormed_after (run ++ later)
  have hdone' : ∀ manager', (after (run ++ later)).managers.get? m = some manager' →
      manager'.isDecorated = true :=
    fun manager' hm' => (descends_after hlater hm hm').isDecorated hdone
  constructor
  case decorate =>
    intro hlive
    have hid : (after run).nodes.identities key = some node.identity :=
      Nodes.identities_eq_some.2 ⟨node, hnode, rfl⟩
    obtain ⟨hkept, hgone⟩ := identities_after hid later
    have hlost : ¬Lost run later key := by
      intro hlost
      have hnone := (hgone hlost).node.get?_eq
      simp [node?, hnone] at hlive
    have howns : (after (run ++ later)).managerKey? key = some m := by
      rw [managerKey?_eq_bind, hkept hlost, Option.bind_some]
      exact Node.owned_eq_some.2 hkind
    obtain ⟨node', hnode', hkind'⟩ := managerKey?_eq_some.1 howns
    obtain ⟨manager', hm'⟩ := Option.isSome_iff_exists.1 (hw.isSome_of_kind hnode' hkind')
    rw [decorate_eq hnode' hkind' hm', if_pos (hdone' manager' hm')]
  case stale => exact fun hnone => (stale_of_node?_eq_none hnone).decorate
  case beginFrame =>
    intro k hk
    refine hw.selectors_beginFrame ?_ hk
    rintro ⟨manager', hm', hpending⟩
    simp [hdone' manager' hm'] at hpending

/-- To attach a manager for the first time attaches it to what waits in its domain, which a stack
of nodes finds, and answers how many nodes these are. From then on it is attached to nothing, what
is added later included. -/
theorem decorate_in_full {run : List (Step α)} (hnode : (after run).node? key = some node)
    (hkind : node.kind = .manager m) (hpending : (after run).Pending m) :
    ∃ dealt keys,
      (∀ steps, (after run).size ≤ steps →
        drain (seek (after run).nodes key) steps [key] [] = some (dealt, keys)) ∧
      decorate key (after run) = ⟨.ok keys.length, after (run ++ [.decorate key]),
        [.decorated node.name keys.length]⟩ ∧
      Adorned (after run) key m keys (after (run ++ [.decorate key])) ∧
      ∀ later : List (Step α), (∀ step ∈ later, step.IsByUses) →
        Spent (after (run ++ .decorate key :: later)) key m := by
  have h := wellFormed_after run
  obtain ⟨manager, hm, hundone⟩ := hpending
  obtain ⟨dealt, keys, -, hdrain, hperm, hdecorate⟩ := h.exists_found hnode hkind hm
  rw [hundone, if_neg Bool.false_ne_true] at hdecorate
  have hafter : after (run ++ [.decorate key]) = (after run).withDecoration m keys := by
    rw [after_concat, Step.apply, hdecorate]
  have hadorned := h.adorned hnode hkind hperm
  rw [← hafter] at hdecorate hadorned
  refine ⟨dealt, keys, hdrain, hdecorate, hadorned, fun later hlater => ?_⟩
  obtain ⟨node', hnode', hkind'⟩ : ∃ node', (after (run ++ [.decorate key])).node? key =
      some node' ∧ node'.kind = .manager m := by
    rw [hadorned.node?_eq, hnode]
    split
    · exact ⟨_, rfl, hkind⟩
    · exact ⟨_, rfl, hkind⟩
  have hm' := hadorned.manager_eq m
  rw [if_pos rfl, hm] at hm'
  rw [List.append_cons]
  exact spent_after hnode' hkind' hm' rfl hlater

/-- The hall is attached to itself for its table, and not to the niche. A chair that is brought in
later makes no difference. -/
theorem decorate_in_full_niche : ∃ node : Node Float32,
    (after niche).node? ⟨2, 1⟩ = some node ∧ node.kind = .manager ⟨1, 1⟩ ∧
      (after niche).Pending ⟨1, 1⟩ ∧
      Adorned (after niche) ⟨2, 1⟩ ⟨1, 1⟩ [⟨2, 1⟩] (after (niche ++ [.decorate ⟨2, 1⟩])) ∧
      Spent (after (niche ++ .decorate ⟨2, 1⟩ ::
        [.add ⟨2, 1⟩ "alcove" .group, .add ⟨8, 1⟩ "chair" (.drawable ⟨⟨1, 0, 0⟩, 1⟩)]))
          ⟨2, 1⟩ ⟨1, 1⟩ := by
  have howns : (after niche).managerKey? ⟨2, 1⟩ = some ⟨1, 1⟩ := by decide +kernel
  obtain ⟨node, hnode, hkind⟩ := managerKey?_eq_some.1 howns
  have hpending : (after niche).Pending ⟨1, 1⟩ := pending_iff.2 (by decide +kernel)
  obtain ⟨dealt, keys, hdrain, -, hadorned, hspent⟩ := decorate_in_full hnode hkind hpending
  have hkeys : (drain (seek (after niche).nodes ⟨2, 1⟩) (after niche).size [⟨2, 1⟩] []).map
      Prod.snd = some [⟨2, 1⟩] := by
    decide +kernel
  obtain rfl : keys = [⟨2, 1⟩] := by simpa [hdrain _ (Nat.le_refl _)] using hkeys
  exact ⟨node, hnode, hkind, hpending, hadorned, hspent _ (by simp [Step.IsByUses])⟩

end Scene

end SceneLighting
