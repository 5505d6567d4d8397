import SceneLighting.Proofs.Scene.Attachment

/-!
# What a node stays

A node has its name, its parent, its manager and what it is for from the step that added it, and no
step changes them. Nodes are added one at a time and removed with all that is below them, and
managers are added and removed with their nodes. Nothing else makes a key name something, or
nothing.
-/

namespace SceneLighting

variable {α : Type}

/-- What a node is for, its data aside. -/
inductive Variant where
  | group
  | transform
  | manager
  | light
  | drawable
  deriving DecidableEq

def Kind.variant : Kind α → Variant
  | .group       => .group
  | .transform _ => .transform
  | .manager _   => .manager
  | .light _     => .light
  | .drawable _  => .drawable

def Content.variant : Content α → Variant
  | .group       => .group
  | .transform _ => .transform
  | .manager _   => .manager
  | .light _     => .light
  | .drawable _  => .drawable

/-- What a node keeps from the step that added it. -/
structure Identity where
  name : String
  parent : Option NodeKey
  variant : Variant
  /-- The manager that the node owns. -/
  owned : Option ManagerKey

def Node.identity (node : Node α) : Identity :=
  ⟨node.name, node.parent, node.kind.variant, node.owned⟩

def Nodes.identities (nodes : Nodes α) : NodeKey → Option Identity := fun key =>
  (nodes.get? key).map Node.identity

lemma Nodes.identities_eq_some {nodes : Nodes α} {key : NodeKey} {id : Identity} :
    nodes.identities key = some id ↔ ∃ node, nodes.get? key = some node ∧ node.identity = id :=
  Option.map_eq_some_iff

/-- A manager is new when its node is made. -/
lemma Content.realize_manager {settings : Settings} {managers managers' : Managers α}
    {kind : Kind α} (h : (manager settings).realize managers = .ok (kind, managers')) :
    kind = .manager managers.nextKey ∧ managers' = managers.insert (.new settings) := by
  rw [realize, Manager.ofSettings] at h
  cases hc : settings.check with
  | error fault => simp [hc, Except.map] at h
  | ok =>
    simp only [hc, Except.map, Except.ok.injEq, Prod.mk.injEq] at h
    exact ⟨h.1.symm, h.2.symm⟩

/-- A node is made for what it is to hold. -/
lemma Content.variant_of_realize {content : Content α} {managers managers' : Managers α}
    {kind : Kind α} (h : content.realize managers = .ok (kind, managers')) :
    kind.variant = content.variant := by
  cases content with
  | manager settings =>
    rw [(realize_manager h).1]
    rfl
  | _ =>
    simp only [realize, Except.ok.injEq, Prod.mk.injEq] at h
    rw [← h.1]
    rfl

/-! ### Nodes that stay -/

/-- The same keys name nodes before and after, each the node that it was. -/
structure Nodes.Lasting (before after : Nodes α) : Prop where
  continues : before.Continues after
  identities : after.identities = before.identities

namespace Nodes.Lasting

lemma refl (nodes : Nodes α) : Lasting nodes nodes :=
  ⟨.refl nodes, rfl⟩

lemma trans {a b c : Nodes α} (hab : Lasting a b) (hbc : Lasting b c) : Lasting a c :=
  ⟨hab.continues.trans hbc.continues, hbc.identities.trans hab.identities⟩

lemma modify {nodes : Nodes α} {key : NodeKey} {f : Node α → Node α}
    (h : ∀ node, nodes.get? key = some node → (f node).identity = node.identity) :
    Lasting nodes (nodes.modify key f) where
  continues := .modify nodes key f
  identities := funext (SlotMap.map_get?_modify h)

lemma withSelector (nodes : Nodes α) (manager : ManagerKey) (key : NodeKey) :
    Lasting nodes (Scene.withSelector nodes manager key) :=
  .modify fun _ _ => rfl

lemma withKind {scene : Scene α} {key : NodeKey} {node : Node α} {kind : Kind α}
    (hnode : scene.node? key = some node)
    (hk : ({ node with kind } : Node α).identity = node.identity) :
    Lasting scene.nodes (scene.withKind key kind).nodes := by
  refine .modify fun node' hn => ?_
  obtain rfl : node = node' := by simpa [Scene.node?, hn] using hnode.symm
  exact hk

lemma setTransform (key : NodeKey) (matrix : Mat4 α) (scene : Scene α) :
    Lasting scene.nodes (Scene.setTransform key matrix scene).state.nodes := by
  obtain hf | ⟨node, old, hnode, hkind, ho⟩ := Scene.setTransform_cases key matrix scene
  · rw [hf.state_eq]
    exact refl _
  · rw [ho]
    exact withKind hnode (by simp [Node.identity, Node.owned, hkind, Kind.variant])

lemma modifySource (key : NodeKey) (f : LightSource α → LightSource α) (scene : Scene α) :
    Lasting scene.nodes (Scene.modifySource key f scene).state.nodes := by
  obtain ho | ⟨node, source, hnode, hkind, ho⟩ := Scene.modifySource_cases key f scene
  · rw [ho]
    exact refl _
  · rw [ho]
    exact withKind hnode (by simp [Node.identity, Node.owned, hkind, Kind.variant])

lemma attach (key managerNode : NodeKey) (scene : Scene α) :
    Lasting scene.nodes (Scene.attach key managerNode scene).state.nodes := by
  obtain hf | ⟨node, target, manager, -, -, -, ho⟩ := Scene.attach_cases key managerNode scene
  · rw [hf.state_eq]
    exact refl _
  · rw [ho]
    exact withSelector _ _ _

lemma withDecoration (scene : Scene α) (manager : ManagerKey) (keys : List NodeKey) :
    Lasting scene.nodes (scene.withDecoration manager keys).nodes := by
  have hfold : ∀ (keys : List NodeKey) (nodes : Nodes α),
      Lasting nodes
        (keys.foldl (fun nodes key => Scene.withSelector nodes manager key) nodes) := by
    intro keys
    induction keys with
    | nil => exact refl
    | cons key keys ih => exact fun nodes => (withSelector nodes manager key).trans (ih _)
  exact hfold keys scene.nodes

lemma decorate (key : NodeKey) : Action.Keeps
    (fun s t : Scene α => Lasting s.nodes t.nodes) (Scene.decorate key) := by
  intro scene
  obtain hf | ⟨node, managerKey, manager, -, -, -, ho⟩ := Scene.decorate_cases key scene
  · rw [hf.state_eq]
    exact refl _
  · rw [ho]
    split
    next => exact refl _
    next => exact withDecoration _ _ _

lemma beginFrame [Scalar α] : Action.Keeps
    (fun s t : Scene α => Lasting s.nodes t.nodes) Scene.beginFrame := by
  have refl' := fun s : Scene α => refl s.nodes
  have trans' : ∀ s t u : Scene α, Lasting s.nodes t.nodes → Lasting t.nodes u.nodes →
      Lasting s.nodes u.nodes := fun _ _ _ => trans
  refine .bind trans' refl' fun scene => .bind trans' (fun s => refl s.nodes) fun pending => ?_
  exact .forM refl' trans' fun key _ => .bind trans' (decorate key) fun _ => .pure refl' _

lemma drawList [Scalar α] (camera : Camera α) (scene : Scene α) :
    Lasting scene.nodes (Scene.drawList camera scene).state.nodes := by
  obtain ⟨managers, hs, -⟩ := Scene.exists_drawList_managers camera scene
  rw [hs]
  exact refl scene.nodes

lemma onManager {β : Type} (key : NodeKey) (act : Action (Manager α) β) (scene : Scene α) :
    Lasting scene.nodes (Scene.onManager key act scene).state.nodes := by
  rw [Scene.onManager]
  split <;> exact refl _

end Nodes.Lasting

lemma Scene.managerKey?_eq_bind (scene : Scene α) (key : NodeKey) :
    scene.managerKey? key = (scene.nodes.identities key).bind Identity.owned := by
  rw [managerKey?, node?, Nodes.identities]
  cases hnode : scene.nodes.get? key with
  | none => rfl
  | some node => cases hkind : node.kind <;> simp [Node.identity, Node.owned, hkind]

/-! ### Below a node -/

/-- The nodes on a path are those above where it starts. -/
lemma Path.Climbs.above_iff {nodes : Nodes α} {path : Path α} (h : path.Climbs nodes)
    {root : NodeKey} (htree : Shape.IsTree (Nodes.shapes nodes) root) {top key : NodeKey}
    (hkey : path.head?.map Prod.fst = some key) :
    Shape.Above (Nodes.shapes nodes) top key ↔ top ∈ path.map Prod.fst := by
  induction h generalizing key with
  | nil => cases hkey
  | @cons k node above hnode hparent _ ih =>
    obtain rfl : k = key := by simpa using hkey
    have hs := Forest.shapes_of_get? hnode
    rw [List.map_cons, List.mem_cons]
    constructor
    · rintro (_ | ⟨habove, hs', hc⟩)
      · exact Or.inl rfl
      · obtain ⟨t, ht, hp⟩ := htree.down hs' hc
        obtain rfl : t = node.shape := by simpa [hs] using ht.symm
        exact Or.inr ((ih (hparent.symm.trans hp)).1 habove)
    · rintro (rfl | htop)
      · exact .refl
      · rcases above with _ | ⟨⟨p, parent⟩, above⟩
        · simp at htop
        · obtain ⟨t, ht, hc⟩ := htree.mem_children_of_parent hs hparent
          exact ((ih rfl).2 htop).step ht hc

namespace Scene

variable {scene : Scene α} {top key : NodeKey}

lemma isSome_identities (scene : Scene α) (key : NodeKey) :
    (scene.nodes.identities key).isSome = (scene.node? key).isSome :=
  Option.isSome_map

/-- The node `key` is `top` or below it. -/
def Within (scene : Scene α) (top key : NodeKey) : Prop :=
  top ∈ (scene.path key).map Prod.fst

instance : Decidable (scene.Within top key) :=
  inferInstanceAs (Decidable (_ ∈ _))

/-- Going up from a node one meets those from which links lead down to it. -/
theorem WellFormed.within_iff (h : scene.WellFormed) : scene.Within top key ↔
    (scene.node? key).isSome ∧ Shape.Above (Nodes.shapes scene.nodes) top key := by
  cases hnode : scene.node? key with
  | none => simp [Within, path_of_none hnode]
  | some node =>
    obtain ⟨above, hmem, hpath⟩ := h.exists_path hnode
    rw [Within, hpath, (h.climbs hmem).above_iff h.tree rfl]
    simp

/-- The nodes within a subtree are those that its root spans. -/
lemma WellFormed.mem_keys_iff_within (h : scene.WellFormed) (htop : (scene.node? top).isSome)
    (hkey : (scene.node? key).isSome) :
    key ∈ (Forest.ofKeys scene.nodes [top]).keys ↔ scene.Within top key := by
  obtain ⟨node, hnode⟩ := Option.isSome_iff_exists.1 htop
  have hspans : Forest.Spans scene.nodes [top] (Forest.ofKeys scene.nodes [top]) :=
    Forest.spans_ofKeys h.tree (Shape.abreast_single (by simp [Forest.shapes_of_get? hnode]))
  rw [h.within_iff, hspans.mem_keys_iff]
  simp [hkey]

lemma WellFormed.mem_ownedManagers_iff_within (h : scene.WellFormed)
    (htop : (scene.node? top).isSome) {m : ManagerKey} :
    m ∈ ownedManagers (Forest.ofKeys scene.nodes [top]).lastFirst ↔
      ∃ k, scene.managerKey? k = some m ∧ scene.Within top k := by
  simp only [mem_ownedManagers, Forest.mem_lastFirst, managerKey?_eq_some]
  constructor
  · rintro ⟨k, node, hk, hm⟩
    have hnode := Forest.get?_of_mem_unfold hk
    exact ⟨k, ⟨node, hnode, Node.owned_eq_some.1 hm⟩,
      (h.mem_keys_iff_within htop (Option.isSome_of_mem hnode)).1 (List.mem_map_of_mem hk)⟩
  · rintro ⟨k, ⟨node, hnode, hkind⟩, hin⟩
    have hk := (h.mem_keys_iff_within htop (Option.isSome_of_mem hnode)).2 hin
    obtain ⟨⟨_, node'⟩, hmem, rfl⟩ := List.mem_map.1 hk
    obtain rfl : node' = node := by
      simpa [Forest.get?_of_mem_unfold hmem, node?] using hnode
    exact ⟨_, node', hmem, Node.owned_eq_some.2 hkind⟩

/-- A manager has one node only. -/
lemma WellFormed.eq_of_managerKey? (h : scene.WellFormed) {k : NodeKey} {m : ManagerKey}
    (hk : scene.managerKey? k = some m) (hm : scene.managerKey? key = some m) : k = key := by
  obtain ⟨node, hnode, hkind⟩ := managerKey?_eq_some.1 hk
  exact (h.existsUnique_owner (h.isSome_of_kind hnode hkind)).unique (managerKey?_eq_some.1 hk)
    (managerKey?_eq_some.1 hm)

/-- What is left of the nodes when a subtree is taken away. -/
lemma WellFormed.node?_withoutTree (h : scene.WellFormed) {node : Node α}
    (hnode : scene.node? top = some node) (k : NodeKey) :
    (scene.withoutTree top node).node? k =
      if scene.Within top k then none
      else (scene.node? k).map fun n =>
        if some k = node.parent then { n with children := n.children.filter (· ≠ top) } else n := by
  have hgone : k ∈ (Forest.ofKeys scene.nodes [top]).lastFirst.map Prod.fst ↔
      k ∈ (Forest.ofKeys scene.nodes [top]).keys := by
    simp only [Forest.keys, List.mem_map, Forest.mem_lastFirst]
  simp only [node?, withoutTree, SlotMap.get?_foldl_erase, hgone, get?_unlink]
  cases hk : scene.nodes.get? k with
  | none => simp
  | some n =>
    simp only [h.mem_keys_iff_within (Option.isSome_of_mem hnode) (Option.isSome_of_mem hk)]

/-- A manager is taken away with its node. -/
lemma WellFormed.get?_managers_withoutTree (h : scene.WellFormed) {node : Node α}
    (hnode : scene.node? top = some node) {m : ManagerKey} (hm : scene.managerKey? key = some m) :
    (scene.withoutTree top node).managers.get? m =
      if scene.Within top key then none else scene.managers.get? m := by
  have hgone : m ∈ ownedManagers (Forest.ofKeys scene.nodes [top]).lastFirst ↔
      scene.Within top key := by
    rw [h.mem_ownedManagers_iff_within (Option.isSome_of_mem hnode)]
    constructor
    · rintro ⟨k, hk, hin⟩
      rwa [← h.eq_of_managerKey? hk hm]
    · exact fun hin => ⟨key, hm, hin⟩
  simp only [withoutTree, SlotMap.get?_foldl_erase, hgone]

/-! ### Steps -/

variable [Scalar α]

/-- The step adds the node `key`. -/
def Step.Adds (scene : Scene α) (key : NodeKey) : Step α → Prop
  | .add parent name content => (Scene.add parent name content scene).result = .ok key
  | _                        => False

/-- The step removes the node `key`, or one above it. -/
def Step.Removes (scene : Scene α) (key : NodeKey) : Step α → Prop
  | .erase top => (Scene.erase top scene).result = .ok () ∧ scene.Within top key
  | _          => False

omit [Scalar α]

/-- One more node, with its manager if it has one. -/
structure Gains (before after : Scene α) (key : NodeKey) (id : Identity) : Prop where
  fresh : before.nodes.identities key = none
  nodes : ∀ k, after.nodes.identities k = if k = key then some id else before.nodes.identities k
  managers : ∀ m, (after.managers.get? m).isSome ↔
    id.owned = some m ∨ (before.managers.get? m).isSome
  /-- The manager is a new one. -/
  new : ∀ m, id.owned = some m → ¬before.managers.Issued m
  continues : before.nodes.Continues after.nodes

/-- All nodes within a subtree less, with their managers. -/
structure Loses (before after : Scene α) (top : NodeKey) : Prop where
  nodes : ∀ k, after.nodes.identities k =
    if before.Within top k then none else before.nodes.identities k
  managers : ∀ m, (after.managers.get? m).isSome ↔ (before.managers.get? m).isSome ∧
    ∀ k, before.managerKey? k = some m → ¬before.Within top k
  continues : before.nodes.Continues after.nodes

/-- The same nodes and managers. -/
structure Stays (before after : Scene α) : Prop where
  nodes : Nodes.Lasting before.nodes after.nodes
  managers : Managers.Evolve (fun _ _ => True) before.managers after.managers

lemma Stays.refl (scene : Scene α) : Stays scene scene :=
  ⟨.refl _, .refl (fun _ => trivial) _⟩

lemma lasting_withNode (scene : Scene α) (parent : NodeKey) (name : String) (kind : Kind α) :
    Nodes.Lasting (scene.nodes.insert ⟨name, kind, some parent, [], none⟩)
      (scene.withNode parent name kind).nodes :=
  .modify fun _ _ => rfl

lemma identities_withNode (hv : scene.nodes.Valid) (parent : NodeKey) (name : String)
    (kind : Kind α) (k : NodeKey) :
    Nodes.identities (scene.withNode parent name kind).nodes k =
      if k = scene.nodes.nextKey then some (Node.identity ⟨name, kind, some parent, [], none⟩)
      else scene.nodes.identities k := by
  rw [(scene.lasting_withNode parent name kind).identities, Nodes.identities, hv.get?_insert]
  split <;> rfl

lemma WellFormed.gains_add (h : scene.WellFormed) {parent : NodeKey} {name : String}
    {content : Content α} (hadd : (Scene.add parent name content scene).result = .ok key) :
    ∃ kind managers, content.realize scene.managers = .ok (kind, managers) ∧
      (Scene.add parent name content scene).state.managers = managers ∧
      Gains scene (Scene.add parent name content scene).state key
        (Node.identity ⟨name, kind, some parent, [], none⟩) := by
  obtain ⟨_, _, hf⟩ | ⟨node, kind, managers, -, -, hc, ho⟩ := add_cases parent name content scene
  · simp [hf] at hadd
  obtain rfl : scene.nodes.nextKey = key := by simpa [ho] using hadd
  have hmanagers : ∀ m, (managers.get? m).isSome ↔
      Node.owned ⟨name, kind, some parent, [], none⟩ = some m ∨
        (scene.managers.get? m).isSome := by
    intro m
    obtain ⟨rfl, hkind⟩ | ⟨settings, -, rfl, rfl⟩ := realize_eq_ok hc
    · exact (or_iff_right fun hm => hkind m (Node.owned_eq_some.1 hm)).symm
    · rw [h.managers.get?_insert]
      by_cases hm : m = scene.managers.nextKey <;> simp [hm, Node.owned, Ne.symm]
  refine ⟨kind, managers, hc, by rw [ho]; rfl, ?_⟩
  rw [ho]
  constructor
  case fresh => rw [Nodes.identities, h.nodes.get?_nextKey, Option.map_none]
  case nodes => exact identities_withNode h.nodes parent name kind
  case managers => exact hmanagers
  case new =>
    intro m hm
    obtain ⟨rfl, hkind⟩ | ⟨settings, -, rfl, rfl⟩ := realize_eq_ok hc
    · exact absurd (Node.owned_eq_some.1 hm) (hkind m)
    · obtain rfl : scene.managers.nextKey = m := by simpa [Node.identity, Node.owned] using hm
      exact h.managers.not_issued_nextKey
  case continues =>
    exact (SlotMap.Continues.insert h.nodes _).trans (lasting_withNode _ _ _ _).continues

lemma continues_unlink (nodes : Nodes α) (key : NodeKey) (parent : Option NodeKey) :
    nodes.Continues (unlink nodes key parent) := by
  cases parent with
  | none => exact .refl nodes
  | some p => exact .modify nodes p _

lemma WellFormed.loses_erase (h : scene.WellFormed)
    (herase : (Scene.erase top scene).result = .ok ()) :
    Loses scene (Scene.erase top scene).state top := by
  obtain ⟨_, _, hf⟩ | ⟨node, -, hnode, ho⟩ := erase_cases top scene
  · simp [hf] at herase
  rw [ho]
  constructor
  case nodes =>
    intro k
    have hk := h.node?_withoutTree hnode k
    rw [node?] at hk
    rw [Nodes.identities, hk]
    split
    · rfl
    · rw [Option.map_map, Nodes.identities]
      refine Option.map_congr fun n _ => ?_
      dsimp only [Function.comp_apply]
      split <;> rfl
  case managers =>
    intro m
    have htop := Option.isSome_of_mem hnode
    simp only [withoutTree, SlotMap.get?_foldl_erase]
    split
    next hgone =>
      obtain ⟨k, hk, hin⟩ := (h.mem_ownedManagers_iff_within htop).1 hgone
      simp only [Option.isSome_none, Bool.false_eq_true, false_iff, not_and]
      exact fun _ hout => hout k hk hin
    next hkept =>
      rw [iff_self_and]
      exact fun _ k hk hin => hkept ((h.mem_ownedManagers_iff_within htop).2 ⟨k, hk, hin⟩)
  case continues =>
    exact (continues_unlink _ _ _).trans (.foldl_erase (Valid.unlink h.nodes _ _) _)

variable [Scalar α]

/-- A step that neither adds nor removes leaves all nodes and managers where they are. -/
lemma WellFormed.stays (h : scene.WellFormed) {step : Step α}
    (hadds : ∀ key, ¬step.Adds scene key) (hremoves : ∀ key, ¬step.Removes scene key) :
    Stays scene (step.apply scene) := by
  cases step with
  | add parent name content =>
    obtain hf | ⟨_, _, _, -, -, -, ho⟩ := add_cases parent name content scene
    · rw [Step.apply, hf.state_eq]
      exact .refl scene
    · exact absurd (congrArg Outcome.result ho) (hadds _)
  | erase top =>
    obtain hf | ⟨_, -, hnode, ho⟩ := erase_cases top scene
    · rw [Step.apply, hf.state_eq]
      exact .refl scene
    · have hself : scene.Within top top := h.within_iff.2 ⟨Option.isSome_of_mem hnode, .refl⟩
      exact absurd ⟨congrArg Outcome.result ho, hself⟩ (hremoves top)
  | setTransform key matrix =>
    exact ⟨.setTransform key matrix scene, (Attached.setTransform key matrix scene).managers⟩
  | modifySource key f =>
    exact ⟨.modifySource key f scene, (Attached.modifySource key f scene).managers⟩
  | decorate key => exact ⟨.decorate key scene, (Attached.decorate key scene).managers⟩
  | attach key managerNode =>
    exact ⟨.attach key managerNode scene, (Attached.attach h key managerNode).managers⟩
  | beginFrame => exact ⟨.beginFrame scene, (Attached.beginFrame scene).managers⟩
  | drawList camera => exact ⟨.drawList camera scene, (Attached.drawList camera scene).managers⟩
  | onManager key f => exact ⟨.onManager key _ scene, (Attached.onManager key _ scene).managers⟩

/-- A step adds one node, removes those within one subtree, or leaves all nodes where they are. -/
theorem WellFormed.apply_cases (h : scene.WellFormed) (step : Step α) :
    (∃ key id, (∀ k, step.Adds scene k ↔ k = key) ∧ (∀ k, ¬step.Removes scene k) ∧
      Gains scene (step.apply scene) key id) ∨
    (∃ top, (∀ k, ¬step.Adds scene k) ∧ (∀ k, step.Removes scene k ↔ scene.Within top k) ∧
      Loses scene (step.apply scene) top) ∨
    (∀ k, ¬step.Adds scene k) ∧ (∀ k, ¬step.Removes scene k) ∧ Stays scene (step.apply scene) := by
  by_cases hadds : ∃ key, step.Adds scene key
  · obtain ⟨key, hadd⟩ := hadds
    cases step <;> try exact hadd.elim
    case add parent name content =>
      have hresult : (Scene.add parent name content scene).result = .ok key := hadd
      obtain ⟨_, _, -, -, hgains⟩ := h.gains_add hresult
      exact Or.inl ⟨key, _, fun k => by simp [Step.Adds, hresult, eq_comm], fun _ => id, hgains⟩
  by_cases hremoves : ∃ key, step.Removes scene key
  · obtain ⟨key, hremove⟩ := hremoves
    cases step <;> try exact hremove.elim
    case erase top =>
      have hresult := hremove.1
      exact Or.inr (Or.inl
        ⟨top, fun _ => id, fun k => by simp [Step.Removes, hresult], h.loses_erase hresult⟩)
  · rw [not_exists] at hadds hremoves
    exact Or.inr (Or.inr ⟨hadds, hremoves, h.stays hadds hremoves⟩)

/-! ### What a step does to one key -/

lemma WellFormed.continues (h : scene.WellFormed) (step : Step α) :
    scene.nodes.Continues (step.apply scene).nodes := by
  obtain ⟨_, _, -, -, hgains⟩ | ⟨_, -, -, hloses⟩ | ⟨-, -, hstays⟩ := h.apply_cases step
  · exact hgains.continues
  · exact hloses.continues
  · exact hstays.nodes.continues

/-- A node that is not removed stays what it is. -/
lemma WellFormed.identities_apply (h : scene.WellFormed) {step : Step α} {id : Identity}
    (hkey : scene.nodes.identities key = some id) (hstep : ¬step.Removes scene key) :
    (step.apply scene).nodes.identities key = some id := by
  obtain ⟨new, _, -, -, hgains⟩ | ⟨top, -, hremoves, hloses⟩ | ⟨-, -, hstays⟩ := h.apply_cases step
  · have hne : key ≠ new := by
      rintro rfl
      simp [hgains.fresh] at hkey
    rw [hgains.nodes, if_neg hne, hkey]
  · rw [hloses.nodes, if_neg (mt (hremoves key).2 hstep), hkey]
  · rw [hstays.nodes.identities, hkey]

lemma WellFormed.identities_of_removes (h : scene.WellFormed) {step : Step α}
    (hstep : step.Removes scene key) : (step.apply scene).nodes.identities key = none := by
  obtain ⟨_, _, -, hremoves, -⟩ | ⟨top, -, hremoves, hloses⟩ | ⟨-, hremoves, -⟩ :=
    h.apply_cases step
  · exact absurd hstep (hremoves key)
  · rw [hloses.nodes, if_pos ((hremoves key).1 hstep)]
  · exact absurd hstep (hremoves key)

lemma WellFormed.get?_managers_of_removes (h : scene.WellFormed) {step : Step α} {m : ManagerKey}
    (hm : scene.managerKey? key = some m) (hstep : step.Removes scene key) :
    (step.apply scene).managers.get? m = none := by
  obtain ⟨_, _, -, hremoves, -⟩ | ⟨top, -, hremoves, hloses⟩ | ⟨-, hremoves, -⟩ :=
    h.apply_cases step
  · exact absurd hstep (hremoves key)
  · rw [← Option.not_isSome_iff_eq_none, hloses.managers]
    exact fun hkept => hkept.2 key hm ((hremoves key).1 hstep)
  · exact absurd hstep (hremoves key)

/-- Keys of nodes come to name something by additions, and cease to by removals. Those of managers
do so with their nodes. -/
structure Step.ChangesKeys (step : Step α) (scene : Scene α) : Prop where
  node : ∀ key, ((step.apply scene).node? key).isSome ↔
    step.Adds scene key ∨ (scene.node? key).isSome ∧ ¬step.Removes scene key
  manager : ∀ m, ((step.apply scene).managers.get? m).isSome ↔
    (∃ key, step.Adds scene key ∧ (step.apply scene).managerKey? key = some m) ∨
      (scene.managers.get? m).isSome ∧
        ∀ key, scene.managerKey? key = some m → ¬step.Removes scene key

theorem WellFormed.changesKeys (h : scene.WellFormed) (step : Step α) :
    step.ChangesKeys scene := by
  obtain ⟨new, id, hadds, hremoves, hgains⟩ | ⟨top, hadds, hremoves, hloses⟩ |
    ⟨hadds, hremoves, hstays⟩ := h.apply_cases step
  · constructor
    case node =>
      intro key
      rw [← isSome_identities, ← isSome_identities, hgains.nodes]
      by_cases hk : key = new <;> simp [hadds, hremoves, hk]
    case manager =>
      intro m
      rw [hgains.managers]
      simp [hadds, hremoves, managerKey?_eq_bind, hgains.nodes]
  · constructor
    case node =>
      intro key
      rw [← isSome_identities, ← isSome_identities, hloses.nodes]
      by_cases hk : scene.Within top key <;> simp [hadds, hremoves, hk]
    case manager =>
      intro m
      rw [hloses.managers]
      simp [hadds, hremoves]
  · constructor
    case node =>
      intro key
      rw [← isSome_identities, ← isSome_identities, hstays.nodes.identities]
      simp [hadds, hremoves]
    case manager =>
      intro m
      rw [hstays.managers.isSome_eq]
      simp [hadds, hremoves]

end Scene

end SceneLighting
