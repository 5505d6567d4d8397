import SceneLighting.Proofs.Scene.Enclosure
import SceneLighting.Proofs.Scene.Identity
import SceneLighting.Proofs.Scene.Traversal

/-!
# What a removal leaves

To remove a node takes out a whole subtree and the managers in it. The links to what is still to be
taken out are held by the nodes that are taken out, so nothing of the subtree may be missed on the
way, and nothing beside it may be touched. In the end the parent has one child less, and all else
is as it was, even where a node was to be lit by a manager that is gone.
-/

namespace SceneLighting.Scene

open Worklist (drain)

variable {α : Type} {scene : Scene α} {key : NodeKey} {node : Node α}

/-- The nodes `gone`, which are `top` and all below it, are taken out with the managers they own.
The node `p` has lost its child `top`, and nothing else is different. -/
structure Pruned (before : Scene α) (top p : NodeKey) (gone : List NodeKey) (after : Scene α) :
    Prop where
  nodup : gone.Nodup
  mem_iff : ∀ k, k ∈ gone ↔ before.Within top k
  isSome_iff : ∀ k, (after.node? k).isSome ↔ (before.node? k).isSome ∧ k ∉ gone
  size_add : after.size + gone.length = before.size
  top_parent : (before.node? top).map Node.parent = some (some p)
  /-- The other children stay in their order. -/
  parent : ∃ parent earlier later, before.node? p = some parent ∧
    parent.children = earlier ++ top :: later ∧
    after.node? p = some { parent with children := earlier ++ later }
  node?_eq : ∀ k, k ∉ gone → k ≠ p → after.node? k = before.node? k
  /-- A manager stays if its node does, and then it is what it was. -/
  manager_iff : ∀ m, (after.managers.get? m).isSome ↔
    ∃ k, before.managerKey? k = some m ∧ (after.node? k).isSome
  manager_eq : ∀ m, (after.managers.get? m).isSome →
    after.managers.get? m = before.managers.get? m
  root_eq : after.root = before.root

namespace WellFormed

variable (h : scene.WellFormed) (hnode : scene.node? key = some node)

include h hnode

lemma mem_subtree_iff {k : NodeKey} : k ∈ scene.subtree key ↔ scene.Within key k := by
  have htop := Option.isSome_of_mem hnode
  rw [subtree, (Forest.perm_lastFirst _).mem_iff]
  constructor
  · intro hk
    obtain ⟨⟨_, n⟩, hmem, rfl⟩ := List.mem_map.1 hk
    exact (h.mem_keys_iff_within htop (Option.isSome_of_mem (Forest.get?_of_mem_unfold hmem))).1 hk
  · exact fun hin => (h.mem_keys_iff_within htop (h.within_iff.1 hin).1).2 hin

/-- A child less: what remains stands in the same order. -/
lemma exists_siblings (hroot : key ≠ scene.root) :
    ∃ p parent earlier later, node.parent = some p ∧ scene.node? p = some parent ∧
      parent.children = earlier ++ key :: later ∧
      parent.children.filter (· ≠ key) = earlier ++ later := by
  obtain ⟨p, parent, hp, hparent, hcount, -⟩ := h.exists_parent hnode hroot
  have hmem : key ∈ parent.children := List.count_pos_iff.1 (hcount ▸ Nat.one_pos)
  obtain ⟨earlier, later, hsplit⟩ := List.append_of_mem hmem
  refine ⟨p, parent, earlier, later, hp, hparent, hsplit, ?_⟩
  have hnodup : (earlier ++ key :: later).Nodup :=
    hsplit ▸ h.tree.nodup (Forest.shapes_of_get? hparent)
  obtain ⟨hnot, -⟩ := List.nodup_cons.1 (List.nodup_middle.1 hnodup)
  rw [hsplit, List.filter_append, List.filter_cons_of_neg (by simp), ← List.filter_append,
    List.filter_eq_self]
  intro c hc
  have hne : c ≠ key := fun he => hnot (he ▸ hc)
  simpa using hne

/-- A manager that is left has a node that is left. -/
lemma exists_kept_owner {m : ManagerKey}
    (hm : ((scene.withoutTree key node).managers.get? m).isSome) :
    ∃ k, scene.managerKey? k = some m ∧ ¬scene.Within key k := by
  have hbefore : (scene.managers.get? m).isSome := by
    rw [withoutTree, SlotMap.get?_foldl_erase] at hm
    split at hm
    · simp at hm
    · exact hm
  obtain ⟨k, howner, -⟩ := h.existsUnique_owner hbefore
  have hk := managerKey?_eq_some.2 howner
  refine ⟨k, hk, fun hin => ?_⟩
  rw [h.get?_managers_withoutTree hnode hk, if_pos hin] at hm
  simp at hm

theorem pruned (hroot : key ≠ scene.root) :
    ∃ p, Pruned scene key p (scene.subtree key) (scene.withoutTree key node) := by
  obtain ⟨p, parent, earlier, later, hp, hparent, hsplit, hfilter⟩ := h.exists_siblings hnode hroot
  have hnodes := h.node?_withoutTree hnode
  have hmem : ∀ k, k ∈ scene.subtree key ↔ scene.Within key k := fun k => h.mem_subtree_iff hnode
  have hnodup : (scene.subtree key).Nodup :=
    (h.subtree_perm hnode).nodup_iff.2 (h.nodup_tree hnode)
  have hlive : ∀ k, ((scene.withoutTree key node).node? k).isSome ↔
      (scene.node? k).isSome ∧ k ∉ scene.subtree key := by
    intro k
    rw [hnodes, hmem]
    split <;> simp [*]
  refine ⟨p, ?_⟩
  constructor
  case nodup => exact hnodup
  case mem_iff => exact hmem
  case isSome_iff => exact hlive
  case size_add =>
    refine SlotMap.size_add_length hnodup (fun k hk => ?_) hlive
    exact (h.within_iff.1 ((hmem k).1 hk)).1
  case top_parent => rw [hnode, Option.map_some, hp]
  case parent =>
    have hout : ¬scene.Within key p := by
      rw [← hmem, (h.subtree_perm hnode).mem_iff]
      exact h.parent_not_mem hnode hp
    refine ⟨parent, earlier, later, hparent, hsplit, ?_⟩
    rw [hnodes, if_neg hout, hparent, Option.map_some, if_pos hp.symm, hfilter]
  case node?_eq =>
    intro k hk hne
    rw [hnodes, if_neg (mt (hmem k).2 hk), hp]
    simp [hne]
  case manager_iff =>
    intro m
    constructor
    · intro hm
      obtain ⟨k, hk, hout⟩ := h.exists_kept_owner hnode hm
      obtain ⟨n, hn, -⟩ := managerKey?_eq_some.1 hk
      exact ⟨k, hk, (hlive k).2 ⟨Option.isSome_of_mem hn, mt (hmem k).1 hout⟩⟩
    · rintro ⟨k, hk, hkept⟩
      obtain ⟨n, hn, hkind⟩ := managerKey?_eq_some.1 hk
      rw [h.get?_managers_withoutTree hnode hk, if_neg (mt (hmem k).2 ((hlive k).1 hkept).2)]
      exact h.isSome_of_kind hn hkind
  case manager_eq =>
    intro m hm
    obtain ⟨k, hk, hout⟩ := h.exists_kept_owner hnode hm
    rw [h.get?_managers_withoutTree hnode hk, if_neg hout]
  case root_eq => rfl

end WellFormed

variable [Scalar α]

/-- A node that is not the root can be removed. Then it is gone with all that was below it and with
the managers there, and all else is as it was, but for its place among its parent's children. A
stack of nodes comes to the same: each node of the subtree is taken out once, and none beside. -/
theorem erase_in_full {run : List (Step α)} (hnode : (after run).node? key = some node)
    (hroot : key ≠ (after run).root) :
    ∃ p gone, erase key (after run) = ⟨.ok (), after (run ++ [.erase key]), []⟩ ∧
      Pruned (after run) key p gone (after (run ++ [.erase key])) ∧
      ∀ steps, (after run).size ≤ steps →
        drain takeOut steps [key]
            { after run with nodes := unlink (after run).nodes key node.parent } =
          some (gone, after (run ++ [.erase key])) := by
  have h := wellFormed_after run
  have hafter : after (run ++ [.erase key]) = (after run).withoutTree key node := by
    rw [after_concat, Step.apply, erase_eq hnode hroot]
  obtain ⟨p, hpruned⟩ := h.pruned hnode hroot
  rw [hafter]
  refine ⟨p, (after run).subtree key, erase_eq hnode hroot, hpruned, fun steps hs => ?_⟩
  apply (h.drains_takeOut hnode).drain_eq
  exact Nat.le_trans (Nat.le_add_left _ _) (Nat.le_trans (Nat.le_of_eq hpruned.size_add) hs)

/-- The table of the hall is to be lit by the manager of the niche. -/
def spotlit : List (Step Float32) :=
  niche ++ [.attach ⟨4, 1⟩ ⟨5, 1⟩]

/-- The niche is taken away with its lamp, its bust and its manager, which the table is still to be
lit by. -/
theorem erase_in_full_spotlit : ∃ (node : Node Float32) (p : NodeKey),
    (after spotlit).node? ⟨5, 1⟩ = some node ∧ (⟨5, 1⟩ : NodeKey) ≠ (after spotlit).root ∧
      (erase ⟨5, 1⟩ (after spotlit)).result = .ok () ∧
      Pruned (after spotlit) ⟨5, 1⟩ p [⟨5, 1⟩, ⟨7, 1⟩, ⟨6, 1⟩]
        (after (spotlit ++ [.erase ⟨5, 1⟩])) ∧
      Nodes.selectors (after (spotlit ++ [.erase ⟨5, 1⟩])).nodes ⟨4, 1⟩ = some ⟨2, 1⟩ ∧
      (after (spotlit ++ [.erase ⟨5, 1⟩])).managers.get? ⟨2, 1⟩ = none := by
  have hlive : ((after spotlit).node? ⟨5, 1⟩).isSome := by decide +kernel
  obtain ⟨node, hnode⟩ := Option.isSome_iff_exists.1 hlive
  have hroot : (⟨5, 1⟩ : NodeKey) ≠ (after spotlit).root := by decide +kernel
  obtain ⟨p, gone, herase, hpruned, hdrain⟩ := erase_in_full hnode hroot
  have hgone : ((after spotlit).node? ⟨5, 1⟩).bind (fun node =>
      (drain takeOut (after spotlit).size [⟨5, 1⟩] { after spotlit with
        nodes := unlink (after spotlit).nodes ⟨5, 1⟩ node.parent }).map Prod.fst) =
      some [⟨5, 1⟩, ⟨7, 1⟩, ⟨6, 1⟩] := by
    decide +kernel
  rw [hnode, Option.bind_some, hdrain _ (Nat.le_refl _), Option.map_some,
    Option.some.injEq] at hgone
  subst hgone
  refine ⟨node, p, hnode, hroot, congrArg Outcome.result herase, hpruned, ?_, ?_⟩ <;>
    decide +kernel

end SceneLighting.Scene
