import SceneLighting.Proofs.Scene.Enclosure
import SceneLighting.Proofs.Scene.Interruption

/-!
# A scene after a frame began

When a frame begins, everything that there is to tell of the managers and of what they are attached
to is settled by the scene as it was before. To attach managers by hand before does not change any
of this, in no order and no matter how often: it settles some of the claims earlier.
-/

namespace SceneLighting

variable {α : Type}

/-! ### Reports of a pass -/

section Reports

lemma Scene.reports_onManagerKey {β : Type} {P : Event → Prop} {key : ManagerKey} {part : Part}
    {missing : Fault} {act : Action (Manager α) β} (hmissing : P (.failed part missing))
    (h : act.Reports P) : (onManagerKey key part missing act).Reports P := by
  intro managers event he
  cases hm : managers.get? key with
  | none =>
    obtain rfl : event = .failed part missing := by simpa [onManagerKey_of_none hm] using he
    exact hmissing
  | some m =>
    rw [onManagerKey_of_get? hm] at he
    exact h m event he

variable [Scalar α]

/-- Nothing is attached while lights are collected. -/
lemma Forest.reports_collect (forest : Forest α) (world : Mat4 α) (owner : Option ManagerKey) :
    (forest.collect world owner).Reports fun event => event.attached = 0 := by
  induction forest generalizing world owner with
  | nil => exact .pure _
  | lost => exact .fail rfl
  | tree key node children rest ihc ihr =>
    refine .bind ?_ fun _ => .bind (ihc _ _) fun _ => .bind (ihr _ _) fun _ => .pure _
    unfold collectNode
    split
    · refine .bind (Scene.reports_onManagerKey rfl fun m event he => ?_) fun _ => .pure _
      obtain rfl := List.mem_singleton.1 he
      rfl
    · split
      · exact .fail rfl
      · refine .bind (Scene.reports_onManagerKey rfl fun m event he => ?_) fun _ => .pure _
        simp at he
    · exact .pure _

end Reports

namespace Scene

variable {scene scene' : Scene α} {m : ManagerKey}

/-! ### What there is to tell -/

variable [Scalar α]

/-- What a frame makes of a scene. -/
structure Renewed (before after : Scene α) : Prop where
  root_eq : after.root = before.root
  /-- Of the nodes only the selectors have changed. -/
  bare_eq : ∀ key, (after.node? key).map Node.bare = (before.node? key).map Node.bare
  /-- All claims are settled. -/
  selectors_iff : ∀ key m,
    Nodes.selectors after.nodes key = some m ↔ before.Assigned key m
  managers_eq : ∀ m, after.managers.get? m = (before.managers.get? m).map fun manager =>
    ⟨manager.settings, true,
      .collected (manager.frame.number + 1) (before.lightsOf m)⟩
  unlitCount_eq : before.unlitCount =
    attachedIn (Scene.beginFrame before).log + after.unlitCount

theorem WellFormed.renewed (h : scene.WellFormed)
    (hok : (Scene.beginFrame scene).result = .ok ()) :
    Renewed scene (Scene.beginFrame scene).state := by
  obtain ⟨_, _, _, -, ho⟩ | ⟨pending, managers, log, count, after, log', hcollect, hlog, hd, ho⟩ :=
    h.beginFrame_cases
  case inl => simp [ho] at hok
  have hanswer : (scene.tree.collect 1 none).Answers scene.managers pending managers :=
    Action.answers_of_eq hcollect
  have hget := h.get?_of_collect hanswer
  have hbetween : ∀ m, ({ scene with managers } : Scene α).Pending m ↔ scene.Pending m := by
    intro m
    rw [pending_iff, pending_iff, hget, Option.map_map]
    rfl
  have hsettled : ∀ m, ¬after.Pending m := by
    intro m hm
    obtain ⟨hpending, hkeys⟩ := (hd.pending_iff m).1 hm
    rw [hbetween] at hpending
    obtain ⟨manager, hmanager, -⟩ := id hpending
    obtain ⟨key, ⟨node, hnode, hkind⟩, -⟩ := h.existsUnique_owner (Option.isSome_of_mem hmanager)
    have hkey : scene.managerKey? key = some m := managerKey?_eq_some.2 ⟨node, hnode, hkind⟩
    exact hkeys key ((h.mem_pending hanswer).2 ⟨m, hkey, hpending⟩) hkey
  rw [ho]
  constructor
  case root_eq => exact hd.relit.root
  case bare_eq => exact hd.relit.nodes
  case selectors_iff =>
    intro key m
    rw [← assigned_iff_of_not_pending hsettled, hd.assigned_iff, Assigned, Assigned, hbetween]
  case managers_eq =>
    intro m
    cases ha : after.managers.get? m with
    | none =>
      have hlive := hd.relit.managers.isSome_eq m
      rw [ha] at hlive
      have hnone : scene.managers.get? m = none := by simpa [hget] using hlive
      rw [hnone]
      rfl
    | some manager' =>
      obtain ⟨between, hm, hsettings, hframe⟩ := hd.relit.managers.exists_before ha
      obtain ⟨manager, hmanager, rfl⟩ := Option.map_eq_some_iff.1 ((hget m).symm.trans hm)
      have hdecorated : manager'.isDecorated = true := by
        by_contra hdecorated
        exact hsettled m ⟨manager', ha, by simpa using hdecorated⟩
      dsimp only at hsettings hframe
      rw [hmanager, Option.map_some, ← hdecorated, ← hframe, ← hsettings]
  case unlitCount_eq =>
    have hcollected : attachedIn log = 0 := by
      apply attachedIn_eq_zero
      have hreports := scene.tree.reports_collect 1 none scene.managers
      rwa [hcollect] at hreports
    rw [ho, attachedIn_append, hcollected, hlog, Nat.zero_add]
    exact hd.unlitCount_eq

/-! ### Managers attached before -/

omit [Scalar α] in
/-- A node is what it is without its selector, and its selector. -/
lemma node?_eq_of_bare {nodes nodes' : Nodes α} {key : NodeKey}
    (hbare : (nodes'.get? key).map Node.bare = (nodes.get? key).map Node.bare)
    (hselectors : Nodes.selectors nodes' key = Nodes.selectors nodes key) :
    nodes'.get? key = nodes.get? key := by
  rw [Nodes.selectors, Nodes.selectors] at hselectors
  cases hn : nodes.get? key with
  | none => simpa [hn] using hbare
  | some node =>
    rw [hn, Option.map_some, Option.map_eq_some_iff] at hbare
    obtain ⟨node', hn', hbare⟩ := hbare
    rw [hn, hn'] at hselectors
    rw [hn', Option.some.injEq]
    cases node
    cases node'
    simp_all [Node.bare]

omit [Scalar α] in
lemma strayFault?_bare (path : Path α) : path.bare.strayFault? = path.strayFault? := by
  rcases path with _ | ⟨⟨key, node⟩, above⟩
  · rfl
  · rw [Path.bare_cons, Path.strayFault?, Path.strayFault?, Path.owner_bare]
    rfl

/-- A frame begins, or does not, whatever lights the nodes. -/
lemma Relit.fault?_beginFrame_eq (h : Relit scene scene') (hb : scene.WellFormed)
    (ha : scene'.WellFormed) : Scene.beginFrame.fault? scene' = Scene.beginFrame.fault? scene := by
  have hbare : ∀ paths : List (Path α),
      (paths.map Path.bare).findSome? Path.strayFault? = paths.findSome? Path.strayFault? := by
    intro paths
    rw [List.findSome?_map]
    congr 1
    funext path
    exact strayFault?_bare path
  rw [ha.fault?_beginFrame, hb.fault?_beginFrame, ← hbare, h.paths_eq hb ha, hbare]

/-- Whether managers were attached before does not show after a frame began. -/
lemma Renewed.eq_of_decorated {adorned renewed renewed' : Scene α} {keys : List NodeKey}
    {count : Nat} (h : Renewed scene renewed) (h' : Renewed adorned renewed')
    (hwf : scene.WellFormed) (hd : Decorated scene keys count adorned) :
    (∀ key, renewed'.node? key = renewed.node? key) ∧
      ∀ m, renewed'.managers.get? m = renewed.managers.get? m := by
  constructor
  · intro key
    apply node?_eq_of_bare
    · exact (h'.bare_eq key).trans ((hd.relit.nodes key).trans (h.bare_eq key).symm)
    · apply Option.ext
      intro m
      rw [h'.selectors_iff, h.selectors_iff, hd.assigned_iff]
  · intro m
    rw [h'.managers_eq, h.managers_eq, hd.relit.lightsOf_eq hwf hd.wellFormed]
    cases hm : adorned.managers.get? m with
    | none =>
      have hlive := hd.relit.managers.isSome_eq m
      rw [hm] at hlive
      have hnone : scene.managers.get? m = none := by simpa using hlive
      rw [hnone, Option.map_none]
    | some manager' =>
      obtain ⟨manager, hmanager, hsettings, hframe⟩ := hd.relit.managers.exists_before hm
      rw [hmanager, Option.map_some, Option.map_some, hsettings, hframe]

/-- What lights a node goes on to light it. -/
lemma Renewed.kept (h : Renewed scene scene') {key : NodeKey}
    (hm : Nodes.selectors scene.nodes key = some m) : Nodes.selectors scene'.nodes key = some m :=
  (h.selectors_iff key m).2 (Or.inl hm)

lemma eq_of_answers_decorate {keys : List NodeKey} {counts : List Nat} {adorned : Scene α}
    (h : (keys.mapM Scene.decorate).Answers scene counts adorned) :
    adorned = (keys.map Step.decorate).foldl Step.apply scene := by
  induction keys generalizing scene counts with
  | nil => exact (Action.answers_pure.1 h).2.symm
  | cons key keys ih =>
    obtain ⟨count, between, counts, hkey, hkeys, -⟩ := Action.answers_mapM_cons.1 h
    rw [ih hkeys, List.map_cons, List.foldl_cons, Step.apply, hkey.2]

/-- Where a frame can begin after a run, it begins alike when managers were attached by hand before,
whichever and in whatever order. All managers are attached then. What the calls by hand answered and
what the frame reports add up to the number of nodes that gained a selector, and no selector was
changed. -/
theorem decorate_beginFrame {run : List (Step α)} {keys : List NodeKey}
    (hkeys : ∀ key ∈ keys, ((after run).managerKey? key).isSome)
    (hok : (beginFrame (after run)).result = .ok ()) :
    ∃ counts adorned, (keys.mapM decorate).Answers (after run) counts adorned ∧
      adorned = after (run ++ keys.map .decorate) ∧
      (beginFrame adorned).result = .ok () ∧
      (∀ key, (beginFrame adorned).state.node? key =
        (beginFrame (after run)).state.node? key) ∧
      (∀ m, (beginFrame adorned).state.managers.get? m =
        (beginFrame (after run)).state.managers.get? m) ∧
      (∀ m manager, (beginFrame (after run)).state.managers.get? m = some manager →
        manager.isDecorated) ∧
      counts.sum + attachedIn (beginFrame adorned).log =
        ((after run).gained (beginFrame adorned).state).length ∧
      ∀ key m, Nodes.selectors (after run).nodes key = some m →
        Nodes.selectors (beginFrame (after run)).state.nodes key = some m := by
  have hwf := wellFormed_after run
  obtain ⟨counts, adorned, log, hall, -, hd⟩ := hwf.decorated_all hkeys
  have hanswers : (keys.mapM decorate).Answers (after run) counts adorned :=
    Action.answers_of_eq hall
  have hadorned : (beginFrame adorned).result = .ok () := by
    have hfault := hd.relit.fault?_beginFrame_eq hwf hd.wellFormed
    rw [Action.fault?_eq_none.2 ⟨(), _, Action.answers_of_result hok⟩] at hfault
    obtain ⟨_, _, hanswers⟩ := Action.fault?_eq_none.1 hfault
    exact hanswers.1
  have hrenewed := hwf.renewed hok
  have hrenewed' := hd.wellFormed.renewed hadorned
  obtain ⟨hnodes, hmanagers⟩ := hrenewed.eq_of_decorated hrenewed' hwf hd
  refine ⟨counts, adorned, hanswers, ?_, hadorned, hnodes, hmanagers, ?_, ?_, ?_⟩
  · rw [eq_of_answers_decorate hanswers]
    exact List.foldl_append.symm
  · intro m manager hm
    rw [hrenewed.managers_eq] at hm
    obtain ⟨_, -, rfl⟩ := Option.map_eq_some_iff.1 hm
    rfl
  · have hkept : ∀ key m, Nodes.selectors (after run).nodes key = some m →
        Nodes.selectors (beginFrame adorned).state.nodes key = some m :=
      fun key m hm => hrenewed'.kept (hd.kept key m hm)
    have hlive : ∀ key, ((beginFrame adorned).state.nodes.get? key).isSome =
        ((after run).nodes.get? key).isSome := by
      intro key
      rw [← hd.relit.isSome_eq, ← Option.isSome_map (f := Node.bare), ← node?, hrenewed'.bare_eq,
        Option.isSome_map, node?]
    have hgained := unlitCount_eq_gained hlive hkept
    have hbefore := hd.unlitCount_eq
    have hafter := hrenewed'.unlitCount_eq
    omega
  · exact fun key m => hrenewed.kept

theorem decorate_beginFrame_niche :
    (∀ key ∈ [⟨5, 1⟩, ⟨2, 1⟩, ⟨5, 1⟩], ((after niche).managerKey? key).isSome) ∧
      (beginFrame (after niche)).result = .ok () ∧
      ∃ counts adorned,
        ([⟨5, 1⟩, ⟨2, 1⟩, ⟨5, 1⟩].mapM decorate).Answers (after niche) counts adorned ∧
        counts.sum + attachedIn (beginFrame adorned).log =
          ((after niche).gained (beginFrame adorned).state).length := by
  have hkeys : ∀ key ∈ [⟨5, 1⟩, ⟨2, 1⟩, ⟨5, 1⟩], ((after niche).managerKey? key).isSome := by
    decide +kernel
  have hok : (beginFrame (after niche)).result = .ok () := by decide +kernel
  obtain ⟨counts, adorned, hanswers, -, -, -, -, -, hcount, -⟩ := decorate_beginFrame hkeys hok
  exact ⟨hkeys, hok, counts, adorned, hanswers, hcount⟩

end Scene

end SceneLighting
