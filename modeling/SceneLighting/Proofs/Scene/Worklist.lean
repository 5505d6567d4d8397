import SceneLighting.Proofs.Scene.Assignment

/-!
# Worklists

A tree can be gone through with a stack of keys, without recursion: the top is taken off and dealt
with, and its children are put on. Nothing asks whether a key was dealt with before. The stack still
runs empty, as a node is put on it for its parent alone, and the nodes are dealt with in an order of
the tree.
-/

namespace SceneLighting

namespace Worklist

variable {σ : Type} {deal : NodeKey → σ → List NodeKey × σ}

/-- Deal with the top of the stack until nothing is left on it, and give up after `steps` keys.
`deal` tells what goes on the stack for a key. Answers the keys that were dealt with. -/
def drain (deal : NodeKey → σ → List NodeKey × σ) :
    (steps : Nat) → List NodeKey → σ → Option (List NodeKey × σ)
  | _, [], s              => some ([], s)
  | 0, _ :: _, _          => none
  | steps + 1, key :: stack, s =>
    let (next, t) := deal key s
    (drain deal steps (next ++ stack) t).map fun (dealt, u) => (key :: dealt, u)

/-- The stack runs empty, and until then the keys `dealt` were on top of it. -/
inductive Drains (deal : NodeKey → σ → List NodeKey × σ) :
    List NodeKey → σ → List NodeKey → σ → Prop where
  | nil (s : σ) : Drains deal [] s [] s
  | cons {key : NodeKey} {stack dealt : List NodeKey} {s t : σ}
      (h : Drains deal ((deal key s).1 ++ stack) (deal key s).2 dealt t) :
      Drains deal (key :: stack) s (key :: dealt) t

variable {stack stack' dealt dealt' : List NodeKey} {s t u : σ}

/-- What lies deeper in the stack waits for what lies above. -/
lemma Drains.append (h : Drains deal stack s dealt t) (h' : Drains deal stack' t dealt' u) :
    Drains deal (stack ++ stack') s (dealt ++ dealt') u := by
  induction h with
  | nil => exact h'
  | cons _ ih => exact .cons (List.append_assoc _ _ _ ▸ ih h')

/-- A key that only its children are put on the stack for. -/
lemma Drains.single {key : NodeKey} {next : List NodeKey} (hdeal : deal key s = (next, t))
    (h : Drains deal next t dealt u) : Drains deal [key] s (key :: dealt) u := by
  refine .cons ?_
  rw [hdeal, List.append_nil]
  exact h

/-- A stack that runs empty does so whenever there are steps for all keys that are dealt with. -/
theorem Drains.drain_eq (h : Drains deal stack s dealt t) {steps : Nat}
    (hs : dealt.length ≤ steps) : drain deal steps stack s = some (dealt, t) := by
  induction h generalizing steps with
  | nil => cases steps <;> rfl
  | cons _ ih =>
    obtain ⟨steps, rfl⟩ := Nat.exists_eq_add_of_le' (Nat.le_trans (Nat.le_add_left 1 _) hs)
    show (drain deal steps _ _).map _ = _
    rw [ih (Nat.le_of_succ_le_succ hs), Option.map_some]

end Worklist

open Worklist

variable {α : Type}

/-! ### Removing a tree -/

namespace Scene

/-- The scene without some nodes and the managers that they own. -/
def without (scene : Scene α) (gone : List (NodeKey × Node α)) : Scene α :=
  { scene with
    nodes := (gone.map Prod.fst).foldl SlotMap.erase scene.nodes
    managers := (ownedManagers gone).foldl SlotMap.erase scene.managers }

lemma without_append (scene : Scene α) (gone gone' : List (NodeKey × Node α)) :
    scene.without (gone ++ gone') = (scene.without gone).without gone' := by
  simp [without, ownedManagers, List.filterMap_append]

lemma node?_without (scene : Scene α) (gone : List (NodeKey × Node α)) (key : NodeKey) :
    (scene.without gone).node? key =
      if key ∈ gone.map Prod.fst then none else scene.node? key :=
  SlotMap.get?_foldl_erase _ _ _

/-- Remove one node with its manager. Its children are to be removed next, the last one first. -/
def takeOut (key : NodeKey) (scene : Scene α) : List NodeKey × Scene α :=
  match scene.node? key with
  | none      => ([], scene)
  | some node => (node.children.reverse, scene.without [(key, node)])

end Scene

namespace Forest

variable {nodes : Nodes α} {keys : List NodeKey} {forest : Forest α} {root : NodeKey}

/-- Both orders have the same keys. -/
lemma perm_lastFirst (forest : Forest α) : (forest.lastFirst.map Prod.fst).Perm forest.keys := by
  induction forest with
  | nil => exact .refl _
  | lost _ rest ih => exact ih
  | tree key node children rest ihc ihr =>
    rw [lastFirst, List.map_append, List.map_cons, keys_tree]
    exact List.perm_append_comm.trans ((ihc.append ihr).cons key)

/-- A spanning forest is removed node by node, in the order of `lastFirst`. What else happened to
the scene does not matter, as long as it still has the nodes of the forest. -/
theorem Spans.drains_takeOut (h : Spans nodes keys forest) (hnodup : forest.keys.Nodup)
    {scene : Scene α} (hsame : ∀ key ∈ forest.keys, scene.node? key = nodes.get? key) :
    Drains Scene.takeOut keys.reverse scene (forest.lastFirst.map Prod.fst)
      (scene.without forest.lastFirst) := by
  induction h generalizing scene with
  | nil => exact .nil _
  | @tree key keys node children rest hnode _ _ ihc ihr =>
    rw [keys_tree, List.nodup_cons, List.nodup_append', List.mem_append, not_or] at hnodup
    obtain ⟨⟨hc, hr⟩, hchildren, hrest, hdisjoint⟩ := hnodup
    simp only [keys_tree, List.mem_cons, List.mem_append] at hsame
    rw [List.reverse_cons, lastFirst, List.map_append, Scene.without_append]
    refine (ihr hrest fun k hk => hsame k (by simp [hk])).append ?_
    have hkey : (scene.without rest.lastFirst).node? key = some node := by
      rw [Scene.node?_without, if_neg (rest.perm_lastFirst.mem_iff.not.2 hr), hsame key (by simp),
        hnode]
    have hdeal : Scene.takeOut key (scene.without rest.lastFirst) =
        (node.children.reverse, (scene.without rest.lastFirst).without [(key, node)]) := by
      simp only [Scene.takeOut, hkey]
    have hsplit := Scene.without_append (scene.without rest.lastFirst) [(key, node)]
      children.lastFirst
    rw [List.singleton_append] at hsplit
    rw [hsplit]
    refine .single hdeal (ihc hchildren fun k hk => ?_)
    have hkr : k ∉ rest.keys := fun hkr => hdisjoint hk hkr
    have hkk : k ≠ key := fun he => hc (he ▸ hk)
    rw [Scene.node?_without, if_neg (by simpa using hkk), Scene.node?_without,
      if_neg (rest.perm_lastFirst.mem_iff.not.2 hkr), hsame k (by simp [hk])]

end Forest

namespace Scene

variable {scene : Scene α} {key : NodeKey} {node : Node α}

/-- A node and all below it, in the order in which they are removed. -/
def subtree (scene : Scene α) (top : NodeKey) : List NodeKey :=
  (Forest.ofKeys scene.nodes [top]).lastFirst.map Prod.fst

lemma WellFormed.subtree_perm (h : scene.WellFormed) (hnode : scene.node? key = some node) :
    (scene.subtree key).Perm (key :: (scene.below node).keys) := by
  simpa [subtree, h.ofKeys_eq hnode] using (Forest.ofKeys scene.nodes [key]).perm_lastFirst

/-- The parent of a node is not below it. -/
lemma WellFormed.parent_not_mem (h : scene.WellFormed) (hnode : scene.node? key = some node)
    {p : NodeKey} (hp : node.parent = some p) : p ∉ key :: (scene.below node).keys := by
  intro hmem
  obtain ⟨a, ha, habove⟩ := (h.spans_tree hnode).mem_keys_iff.1 (by simpa using hmem)
  obtain rfl := List.mem_singleton.1 ha
  obtain ⟨t, ht, hc⟩ := h.tree.mem_children_of_parent (Forest.shapes_of_get? hnode) hp
  obtain ⟨level, -, hl, -⟩ := h.tree.levels
  have := habove.level_le hl
  have := hl ht hc
  omega

/-- Removing a node at a time, from one on down, removes its tree. -/
theorem WellFormed.drains_takeOut (h : scene.WellFormed) (hnode : scene.node? key = some node) :
    Drains takeOut [key] { scene with nodes := unlink scene.nodes key node.parent }
      (scene.subtree key) (scene.withoutTree key node) := by
  have hspans := h.spans_tree hnode
  have hnodup := h.nodup_tree hnode
  rw [subtree, withoutTree, h.ofKeys_eq hnode]
  refine hspans.drains_takeOut (by simpa using hnodup) fun k hk => ?_
  rw [node?, get?_unlink]
  have hparent : some k ≠ node.parent :=
    fun hp => h.parent_not_mem hnode hp.symm (by simpa using hk)
  simp [hparent]

end Scene

/-! ### Looking for what is to be lit -/

namespace Scene

/-- Note a node that nothing lights, unless it was noted before. -/
def note (nodes : Nodes α) (key : NodeKey) (found : List NodeKey) : List NodeKey :=
  if (nodes.get? key).any (fun node => node.selector.isNone) && !found.contains key then
    found ++ [key]
  else found

/-- Look at a node on the way down from the manager node `top`. Of a drawable the parent is noted.
What has a manager of its own is left to that. -/
def seek (nodes : Nodes α) (top key : NodeKey) (found : List NodeKey) :
    List NodeKey × List NodeKey :=
  match nodes.get? key with
  | none      => ([], found)
  | some node =>
    if node.isDrawable then
      match node.parent with
      | none        => ([], found)
      | some parent => ([], note nodes parent found)
    else if key ≠ top ∧ node.isManager then ([], found)
    else (node.children, found)

variable {nodes : Nodes α} {key k top : NodeKey} {found : List NodeKey} {node : Node α}

lemma mem_note (hnode : nodes.get? key = some node) :
    k ∈ note nodes key found ↔ k ∈ found ∨ k = key ∧ node.selector = none := by
  rw [note, hnode, Option.any_some]
  by_cases hk : key ∈ found
  case pos =>
    rw [if_neg (by simp [hk]), iff_self_or]
    rintro ⟨rfl, -⟩
    exact hk
  case neg => cases node.selector <;> simp [hk]

lemma nodup_note (h : found.Nodup) : (note nodes key found).Nodup := by
  rw [note]
  split
  next hkey =>
    have hnew : key ∉ found := by simpa using (Bool.and_eq_true_iff.1 hkey).2
    exact List.nodup_append.2 ⟨h, List.nodup_singleton key, by grind⟩
  next => exact h

end Scene

namespace Forest

variable {nodes : Nodes α} {keys : List NodeKey} {forest : Forest α} {root p top : NodeKey}
  {parent : Node α}

/-- Going through trees that stand below a node finds that node, if it carries a drawable and
nothing lights it, and what is to be lit in the trees. -/
theorem Spans.drains_seek (h : Spans nodes keys forest)
    (htree : Shape.IsTree (Nodes.shapes nodes) root) (hp : nodes.get? p = some parent)
    (hparent : ∀ key ∈ keys, ∀ node, nodes.get? key = some node → node.parent = some p)
    (htop : top ∉ forest.keys) {found : List NodeKey} (hfound : found.Nodup) :
    ∃ dealt found', Drains (Scene.seek nodes top) keys found dealt found' ∧
      dealt.Sublist forest.keys ∧ found'.Nodup ∧
      ∀ k, k ∈ found' ↔ k ∈ found ∨ (k = p ∧ parent.selector = none ∧ forest.hasDrawable) ∨
        k ∈ forest.unlit := by
  induction h generalizing p parent found with
  | nil => exact ⟨[], found, .nil _, .slnil, hfound, by simp [hasDrawable, unlit]⟩
  | @tree key keys node children rest hnode hchildren hrest ihc ihr =>
    simp only [keys_tree, List.mem_cons, List.mem_append, not_or] at htop
    have hkey : node.parent = some p := hparent key (by simp) node hnode
    have hbeside : ∀ k ∈ keys, ∀ n, nodes.get? k = some n → n.parent = some p :=
      fun k hk => hparent k (by simp [hk])
    -- what is found of the first tree, the node itself with what is below it
    obtain ⟨dealt, found', hdrains, hsub, hnodup, hmem⟩ : ∃ dealt found',
        Drains (Scene.seek nodes top) [key] found dealt found' ∧
        dealt.Sublist (key :: children.keys) ∧ found'.Nodup ∧
        ∀ k, k ∈ found' ↔ k ∈ found ∨
          (k = p ∧ parent.selector = none ∧ node.isDrawable) ∨
          (node.isManager = false ∧ k ∈ unlitTree key node children children.unlit) := by
      by_cases hdrawable : node.isDrawable
      case pos =>
        have hnone : node.children = [] := htree.drawable (shapes_of_get? hnode) hdrawable
        rw [hnone] at hchildren
        cases hchildren
        refine ⟨[key], Scene.note nodes p found, .single ?_ (.nil _), by simp,
          Scene.nodup_note hfound, fun k => ?_⟩
        · simp [Scene.seek, hnode, hdrawable, hkey]
        · simp [Scene.mem_note hp, hdrawable, unlitTree, hasDrawable, unlit]
      case neg =>
        by_cases hmanager : node.isManager
        case pos =>
          refine ⟨[key], found, .single ?_ (.nil _), by simp, hfound, by simp [*]⟩
          simp [Scene.seek, hnode, hdrawable, hmanager, Ne.symm htop.1]
        case neg =>
          obtain ⟨dealt, found', hdrains, hsub, hnodup, hmem⟩ := ihc hnode
            (fun c hc n hn => parent_of_mem_children htree hnode hc hn) htop.2.1 hfound
          refine ⟨key :: dealt, found', .single ?_ hdrains, hsub.cons_cons key, hnodup,
            fun k => ?_⟩
          · simp [Scene.seek, hnode, hdrawable, hmanager]
          · rw [hmem, unlitTree]
            cases hsel : node.selector <;> cases hc : children.hasDrawable <;>
              simp [hdrawable, hmanager]
    obtain ⟨dealt', found'', hdrains', hsub', hnodup', hmem'⟩ :=
      ihr hp hbeside htop.2.2 hnodup
    refine ⟨dealt ++ dealt', found'', hdrains.append hdrains', ?_, hnodup', fun k => ?_⟩
    · rw [keys_tree]
      exact hsub.append hsub'
    · have hunlit : k ∈ (Forest.tree key node children rest).unlit ↔
          (node.isManager = false ∧ k ∈ unlitTree key node children children.unlit) ∨
            k ∈ rest.unlit := by
        rw [unlit]
        split <;> simp [*]
      rw [hmem', hmem, hunlit, hasDrawable, Bool.or_eq_true]
      grind

end Forest

namespace Scene

variable {scene : Scene α} {key : NodeKey} {node : Node α} {m : ManagerKey}

/-- Going down from a manager node with a stack finds what its manager is to light. -/
theorem WellFormed.drains_seek (h : scene.WellFormed) (hnode : scene.node? key = some node)
    (hkind : node.kind = .manager m) :
    ∃ dealt found, Drains (seek scene.nodes key) [key] [] dealt found ∧
      dealt.Sublist (key :: (scene.below node).keys) ∧ found.Perm (scene.unlitBy key node) := by
  have hget : scene.nodes.get? key = some node := hnode
  have hbelow := h.spans_below hnode
  obtain ⟨dealt, found, hdrains, hsub, hnodup, hmem⟩ := hbelow.drains_seek h.tree hget
    (fun c hc n hn => Forest.parent_of_mem_children h.tree hget hc hn)
    (List.nodup_cons.1 (h.nodup_tree hnode)).1 List.nodup_nil
  refine ⟨key :: dealt, found, .single ?_ hdrains, hsub.cons_cons key, ?_⟩
  · simp [seek, hget, Node.isDrawable, hkind]
  · refine (List.perm_ext_iff_of_nodup hnodup (h.nodup_unlitBy hnode)).2 fun k => ?_
    rw [hmem, unlitBy, Forest.unlitTree]
    cases hsel : node.selector <;> cases hc : (scene.below node).hasDrawable <;> simp

end Scene

end SceneLighting
