import SceneLighting.Proofs.Scene.Descent
import SceneLighting.Proofs.Scene.Identity

/-!
# How long keys last

The key of a node names that node from the step that added it to the step that removes it or one
above it, and nothing from then on, though its slot is used again. The key of its manager names that
manager as long, and no other one at any time.
-/

namespace SceneLighting.Scene

variable {α : Type} [Scalar α] {run later : List (Step α)} {key : NodeKey} {m : ManagerKey}

/-! ### Loss -/

/-- One of the later steps removed the node. -/
def Lost (run later : List (Step α)) (key : NodeKey) : Prop :=
  ∃ before step rest, later = before ++ step :: rest ∧ step.Removes (after (run ++ before)) key

lemma not_lost_nil : ¬Lost run [] key := by
  rintro ⟨before, step, rest, hsplit, -⟩
  simp at hsplit

lemma lost_concat {step : Step α} : Lost run (later ++ [step]) key ↔
    Lost run later key ∨ step.Removes (after (run ++ later)) key := by
  constructor
  · rintro ⟨before, s, rest, hsplit, hremoves⟩
    rcases List.eq_nil_or_concat rest with rfl | ⟨rest, last, rfl⟩
    · obtain ⟨rfl, hs⟩ := List.append_inj' hsplit rfl
      obtain rfl := List.singleton_inj.1 hs
      exact Or.inr hremoves
    · rw [List.concat_eq_append, ← List.cons_append, ← List.append_assoc] at hsplit
      obtain ⟨rfl, -⟩ := List.append_inj' hsplit rfl
      exact Or.inl ⟨before, s, rest, rfl, hremoves⟩
  · rintro (⟨before, s, rest, rfl, hremoves⟩ | hremoves)
    · exact ⟨before, s, rest ++ [step], by simp, hremoves⟩
    · exact ⟨later, step, [], rfl, hremoves⟩

/-- The node and its manager were taken out, so that their keys do not come back. -/
structure Gone (scene : Scene α) (key : NodeKey) (id : Identity) : Prop where
  node : scene.nodes.Retired key
  manager : ∀ m, id.owned = some m → scene.managers.Retired m

lemma Gone.apply {scene : Scene α} {id : Identity} (h : Gone scene key id)
    (hw : scene.WellFormed) (step : Step α) : Gone (step.apply scene) key id where
  node := (hw.continues step).retired key h.node
  manager m hm := (hw.follows step).retired m (h.manager m hm)

lemma WellFormed.gone_of_removes {scene : Scene α} (h : scene.WellFormed) {id : Identity}
    (hkey : scene.nodes.identities key = some id) {step : Step α}
    (hstep : step.Removes scene key) : Gone (step.apply scene) key id := by
  constructor
  case node =>
    obtain ⟨node, hnode, -⟩ := Nodes.identities_eq_some.1 hkey
    apply ((h.continues step).issued key (Or.inl (Option.isSome_of_mem hnode))).retired_of_get?
    exact Option.map_eq_none_iff.1 (h.identities_of_removes hstep)
  case manager =>
    intro m hm
    have howns : scene.managerKey? key = some m := by
      rw [managerKey?_eq_bind, hkey, Option.bind_some, hm]
    obtain ⟨node, hnode, hkind⟩ := managerKey?_eq_some.1 howns
    apply ((h.follows step).issued m (Or.inl (h.isSome_of_kind hnode hkind))).retired_of_get?
    exact h.get?_managers_of_removes howns hstep

/-- What a key names stays what it is until it is lost, and then it is gone. -/
theorem identities_after {id : Identity} (h : (after run).nodes.identities key = some id)
    (later : List (Step α)) :
    (¬Lost run later key → (after (run ++ later)).nodes.identities key = some id) ∧
      (Lost run later key → Gone (after (run ++ later)) key id) := by
  induction later using List.reverseRecOn with
  | nil =>
    rw [List.append_nil]
    exact ⟨fun _ => h, fun hlost => absurd hlost not_lost_nil⟩
  | append_singleton later step ih =>
    obtain ⟨hkept, hgone⟩ := ih
    have hw := wellFormed_after (run ++ later)
    rw [← List.append_assoc, after_concat, lost_concat, not_or]
    constructor
    · rintro ⟨hlost, hstep⟩
      exact hw.identities_apply (hkept hlost) hstep
    · intro hlost
      by_cases hbefore : Lost run later key
      -- what is gone stays gone, also when its slot is used again
      · exact (hgone hbefore).apply hw step
      · exact hw.gone_of_removes (hkept hbefore) (hlost.resolve_left hbefore)

/-! ### Lifetimes -/

/-- The node that was added under this key is there until it is lost, as it was added. -/
structure Endures (run later : List (Step α)) (key parent : NodeKey) (name : String)
    (variant : Variant) : Prop where
  kept : ¬Lost run later key → ∃ node, (after (run ++ later)).node? key = some node ∧
    node.name = name ∧ node.parent = some parent ∧ node.kind.variant = variant
  gone : Lost run later key → (after (run ++ later)).node? key = none

/-- The key `m` names the manager of the node as long as the node is there. -/
structure Employs (run later : List (Step α)) (key : NodeKey) (m : ManagerKey)
    (settings : Settings) : Prop where
  isSome_iff : ((after (run ++ later)).managers.get? m).isSome ↔
    ((after (run ++ later)).node? key).isSome
  kept : ¬Lost run later key → (after (run ++ later)).managerKey? key = some m
  only : ∀ k, (after (run ++ later)).managerKey? k = some m → k = key
  /-- It is the manager made with the node, with its settings, unless it was changed by hand in
  other ways than by operations of its own. -/
  used : (∀ step ∈ later, step.IsByUses) → ∀ manager,
    (after (run ++ later)).managers.get? m = some manager →
      (∃ uses, manager = (Manager.new settings).use uses) ∧ manager.settings = settings

lemma endures_of_identities {parent : NodeKey} {name : String} {id : Identity}
    (h : (after run).nodes.identities key = some id) (hname : id.name = name)
    (hparent : id.parent = some parent) (later : List (Step α)) :
    Endures run later key parent name id.variant := by
  obtain ⟨hkept, hgone⟩ := identities_after h later
  constructor
  case kept =>
    intro hlost
    obtain ⟨node, hnode, rfl⟩ := Nodes.identities_eq_some.1 (hkept hlost)
    exact ⟨node, hnode, hname, hparent, rfl⟩
  case gone => exact fun hlost => (hgone hlost).node.get?_eq

lemma employs_of_identities {settings : Settings} {id : Identity}
    (h : (after run).nodes.identities key = some id) (howned : id.owned = some m)
    (hm : (after run).managers.get? m = some (.new settings)) (later : List (Step α)) :
    Employs run later key m settings := by
  obtain ⟨hkept, hgone⟩ := identities_after h later
  have hw := wellFormed_after (run ++ later)
  have howns : ¬Lost run later key → (after (run ++ later)).managerKey? key = some m := by
    intro hlost
    rw [managerKey?_eq_bind, hkept hlost, Option.bind_some, howned]
  have hlive : ∀ {k}, (after (run ++ later)).managerKey? k = some m →
      ((after (run ++ later)).managers.get? m).isSome := by
    intro k hk
    obtain ⟨node, hnode, hkind⟩ := managerKey?_eq_some.1 hk
    exact hw.isSome_of_kind hnode hkind
  constructor
  case isSome_iff =>
    by_cases hlost : Lost run later key
    · rw [((hgone hlost).manager m howned).get?_eq, node?, (hgone hlost).node.get?_eq]
      simp
    · rw [← isSome_identities, hkept hlost]
      simpa using hlive (howns hlost)
  case kept => exact howns
  case only =>
    intro k hk
    have hlost : ¬Lost run later key := by
      intro hlost
      have := hlive hk
      simp [((hgone hlost).manager m howned).get?_eq] at this
    exact hw.eq_of_managerKey? hk (howns hlost)
  case used =>
    intro hlater manager hmanager
    have hdescends := descends_after hlater hm hmanager
    refine ⟨?_, hdescends.settings_eq⟩
    obtain ⟨uses, rfl⟩ := hdescends
    exact ⟨uses, rfl⟩

/-- A node that was added stays what it is until it or a node above it is removed, and after that
its key names nothing. Its manager stays as long, and its key names no other one, before or after.
Keys come to name something, or cease to, in no other way. -/
theorem keys_last (run : List (Step α)) :
    (∀ step : Step α, step.ChangesKeys (after run)) ∧
    ∀ parent name content key,
      (add parent name content (after run)).result = .ok key →
      (∀ later, Endures (run ++ [.add parent name content]) later key parent name
        content.variant) ∧
      ∀ settings, content = .manager settings → ∃ m, ¬Had run m ∧
        ∀ later, Employs (run ++ [.add parent name content]) later key m settings := by
  have hw := wellFormed_after run
  refine ⟨hw.changesKeys, ?_⟩
  intro parent name content key hadd
  obtain ⟨kind, managers, hc, hmanagers, hgains⟩ := hw.gains_add hadd
  have hafter : after (run ++ [.add parent name content]) =
      (add parent name content (after run)).state := after_concat _ _
  have hid : (after (run ++ [.add parent name content])).nodes.identities key =
      some (Node.identity ⟨name, kind, some parent, [], none⟩) := by
    rw [hafter, hgains.nodes, if_pos rfl]
  refine ⟨fun later => ?_, ?_⟩
  · rw [← Content.variant_of_realize hc]
    exact endures_of_identities hid rfl rfl later
  · rintro settings rfl
    obtain ⟨rfl, rfl⟩ := Content.realize_manager hc
    refine ⟨(after run).managers.nextKey, fun hhad => ?_, fun later => ?_⟩
    · exact hw.managers.not_issued_nextKey hhad.issued
    · refine employs_of_identities hid rfl ?_ later
      rw [hafter, hmanagers, hw.managers.get?_insert, if_pos rfl]

/-- The hall, with a manager beside it. -/
def annexed : List (Step Float32) :=
  hall ++ [.add ⟨1, 1⟩ "annex" (.manager .standard)]

/-- The annex is taken away, and another node put in its slot. -/
def rebuilt : List (Step Float32) :=
  [.erase ⟨5, 1⟩, .add ⟨1, 1⟩ "garden" .group]

theorem keys_last_annexed :
    (add ⟨1, 1⟩ "annex" (.manager .standard) (after hall)).result = .ok ⟨5, 1⟩ ∧
      (∀ later, Endures annexed later ⟨5, 1⟩ ⟨1, 1⟩ "annex" .manager) ∧
      (∃ m, ¬Had hall m ∧ ∀ later, Employs annexed later ⟨5, 1⟩ m .standard) ∧
      (after (annexed ++ rebuilt)).node? ⟨5, 1⟩ = none ∧
      ((after (annexed ++ rebuilt)).node? ⟨5, 3⟩).map Node.name = some "garden" := by
  have hadd : (add ⟨1, 1⟩ "annex" (.manager .standard) (after hall)).result = .ok ⟨5, 1⟩ := by
    decide +kernel
  obtain ⟨hendures, hemploys⟩ := (keys_last hall).2 _ _ _ _ hadd
  have hlost : Lost annexed rebuilt ⟨5, 1⟩ :=
    ⟨[], .erase ⟨5, 1⟩, [.add ⟨1, 1⟩ "garden" .group], rfl, by decide +kernel, by decide +kernel⟩
  exact ⟨hadd, hendures, hemploys _ rfl, (hendures rebuilt).gone hlost, by decide +kernel⟩

end SceneLighting.Scene
