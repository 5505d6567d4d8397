import SceneLighting.Proofs.Scene.Attachment
import SceneLighting.Proofs.Scene.Placement
import SceneLighting.Proofs.Scene.Run
import SceneLighting.Proofs.Scene.Tour
import SceneLighting.Proofs.Scene.Worklist

/-!
# How far a scene is gone through

A link leads on from every node but the last, and nothing marks the nodes that were gone through.
That going up and going down come to an end is due to the links alone, which form a tree. So there
is a bound that depends on nothing but the number of nodes: whoever follows links that far has
followed them to the end.
-/

namespace SceneLighting

open SceneLighting.Action Worklist

variable {α : Type}

/-! ### Going down -/

namespace Forest

/-- Follow the links from `keys` on, and give up if they go on after `depth` of them. -/
def follow (nodes : Nodes α) : (depth : Nat) → List NodeKey → Option (Forest α)
  | 0, []     => some .nil
  | 0, _ :: _ => none
  | depth + 1, keys =>
    keys.foldr
      (fun key rest? =>
        match nodes.get? key with
        | none      => rest?.map (.lost key)
        | some node =>
          (follow nodes depth node.children).bind fun children =>
            rest?.map (.tree key node children))
      (some .nil)

variable {nodes : Nodes α} {keys : List NodeKey} {forest : Forest α}

/-- A forest that is no higher than the links may lead is unfolded to the end. -/
theorem Spans.follow_eq (h : Spans nodes keys forest) {depth : Nat}
    (hd : forest.height ≤ depth) : follow nodes depth keys = some forest := by
  induction h generalizing depth with
  | nil => cases depth <;> rfl
  | tree hnode _ _ ihc ihr =>
    simp only [height, Nat.max_le] at hd
    obtain ⟨depth, rfl⟩ := Nat.exists_eq_add_of_le' (Nat.le_trans (Nat.le_add_left 1 _) hd.1)
    have hrest := ihr hd.2
    rw [follow] at hrest ⊢
    rw [List.foldr_cons, hrest, hnode]
    simp only [ihc (Nat.le_of_succ_le_succ hd.1), Option.bind_some, Option.map_some]

lemma follow_lost {key : NodeKey} (hkey : nodes.get? key = none) (depth : Nat) :
    follow nodes (depth + 1) [key] = some (.lost key .nil) := by
  simp [follow, hkey]

end Forest

/-! ### Going up -/

/-- What a path ends at has no parent. -/
lemma Path.Climbs.parent_eq_none {nodes : Nodes α} {path : Path α} (h : path.Climbs nodes)
    {key : NodeKey} {node : Node α} (hlast : path.getLast? = some (key, node)) :
    nodes.get? key = some node ∧ node.parent = none := by
  induction h with
  | nil => simp at hlast
  | @cons k n above hnode hparent _ ih =>
    rcases above with _ | ⟨e, above⟩
    · obtain ⟨rfl, rfl⟩ : k = key ∧ n = node := by simpa using hlast
      exact ⟨hnode, hparent⟩
    · exact ih (by simpa using hlast)

namespace Scene

variable {scene : Scene α} {key : NodeKey} {node : Node α}

namespace WellFormed

variable (h : scene.WellFormed)

include h

/-- Every path ends at the root. -/
lemma getLast?_path {path : Path α}
    (hclimbs : path.Climbs scene.nodes) (hpath : path ≠ []) :
    path.getLast?.map Prod.fst = some scene.root := by
  obtain ⟨⟨last, n⟩, hlast⟩ := Option.ne_none_iff_exists'.1 (List.getLast?_eq_none_iff.not.2 hpath)
  obtain ⟨hn, hnone⟩ := hclimbs.parent_eq_none hlast
  rw [hlast, Option.map_some, Option.some.injEq]
  by_contra hroot
  obtain ⟨p, _, hp, -⟩ := h.tree.up (Forest.shapes_of_get? hn) hroot
  exact absurd (hp.symm.trans hnone) (Option.some_ne_none p)

lemma length_le_size (hnode : scene.node? key = some node) :
    (key :: (scene.below node).keys).length ≤ scene.size := by
  refine SlotMap.length_le_size (h.nodup_tree hnode) fun k hk => ?_
  exact (h.spans_tree hnode).get?_isSome (by simpa using hk)

lemma follow_eq (hnode : scene.node? key = some node) {depth : Nat} (hd : scene.size ≤ depth) :
    Forest.follow scene.nodes depth [key] = some (.ofKeys scene.nodes [key]) ∧
      Forest.follow scene.nodes depth node.children = some (scene.below node) := by
  have hlength := h.length_le_size hnode
  have hheight := (scene.below node).height_le_length
  rw [List.length_cons] at hlength
  rw [h.ofKeys_eq hnode]
  refine ⟨(h.spans_tree hnode).follow_eq ?_, (h.spans_below hnode).follow_eq ?_⟩
  · simp only [Forest.height]
    omega
  · omega

lemma size_pos : 0 < scene.size := by
  obtain ⟨s, hs, -⟩ := h.tree.root_parent
  obtain ⟨node, hnode, -⟩ := Forest.exists_of_shapes hs
  exact Nat.lt_of_lt_of_le (Nat.succ_pos _) (h.length_le_size hnode)

lemma ofKeys_lost (hkey : scene.node? key = none) :
    Forest.ofKeys scene.nodes [key] = .lost key .nil := by
  have hget : scene.nodes.get? key = none := hkey
  obtain ⟨n, hn⟩ := Nat.exists_eq_add_of_le' h.size_pos
  rw [size] at hn
  simp [Forest.ofKeys, Forest.unfold, hn, hget]

end WellFormed

lemma erase_eq (hnode : scene.node? key = some node) (hroot : key ≠ scene.root) :
    erase key scene = ⟨.ok (), scene.withoutTree key node, []⟩ := by
  rw [erase, get_bind_apply, check_bind_apply, checkRemoval_eq_ok.2 ⟨hroot, hnode⟩]
  rfl

/-! ### From one key -/

/-- What is asked of a key that names no node is answered at once. -/
structure Stale [Scalar α] (scene : Scene α) (key : NodeKey) : Prop where
  worldMatrix : Fails (worldMatrix key) scene
  decorate : Fails (decorate key) scene
  erase : Fails (erase key) scene
  bound : scene.bound key = .invalid

/-- The parents of a node lead to the root, and there are fewer of them than nodes. -/
structure Rooted [Scalar α] (scene : Scene α) (key : NodeKey) (node : Node α) (above : Path α) :
    Prop where
  climbs : Path.Climbs scene.nodes ((key, node) :: above)
  root_eq : (((key, node) :: above).getLast?).map Prod.fst = some scene.root
  length_lt : above.length < scene.size
  ancestors_eq : ∀ steps, above.length ≤ steps →
    ancestors scene.nodes steps node = above.map Prod.snd
  worldMatrix_eq : worldMatrix key scene =
    ⟨.ok ((above.map Prod.snd).foldl (fun matrix parent => parent.matrix * matrix) node.matrix),
      scene, []⟩

/-- The bound of a node is measured on one tour of what lies below it. The tour comes to no node
twice, and not to the node itself. -/
structure Measured [Scalar α] (scene : Scene α) (key : NodeKey) (node : Node α) : Prop where
  nodup : (key :: (scene.below node).keys).Nodup
  once : Stop.Once (scene.below node).tour
  bound_eq : ∃ below, (scene.below node).tour.foldl Stop.measure [.invalid] = [below] ∧
    scene.bound key = node.bound below
  follow_eq : ∀ depth, scene.size ≤ depth →
    (Forest.follow scene.nodes depth node.children).map
      (fun children => node.bound children.bound) = some (scene.bound key)

/-- Going through a scene from one key on comes to an end. To follow links as often as there are
nodes is enough, and to follow them more often makes no difference. -/
structure EndsFrom [Scalar α] (scene : Scene α) (key : NodeKey) : Prop where
  stale : scene.node? key = none → Stale scene key
  up : ∀ node, scene.node? key = some node → ∃ above, Rooted scene key node above
  /-- What lies below is unfolded to the end, each node once. -/
  down : ∀ depth, scene.size ≤ depth →
    Forest.follow scene.nodes depth [key] = some (.ofKeys scene.nodes [key])
  nodup : (Forest.ofKeys scene.nodes [key]).keys.Nodup
  bound : ∀ node, scene.node? key = some node → Measured scene key node
  /-- A manager is attached to what a stack of nodes yields, none of them dealt with twice. -/
  decorate : ∀ node m manager, scene.node? key = some node → node.kind = .manager m →
    scene.managers.get? m = some manager → ∃ dealt found, dealt.Nodup ∧
      (∀ steps, scene.size ≤ steps →
        drain (seek scene.nodes key) steps [key] [] = some (dealt, found)) ∧
      decorate key scene =
        if manager.isDecorated then ⟨.ok 0, scene, []⟩
        else ⟨.ok found.length, scene.withDecoration m found,
          [.decorated node.name found.length]⟩
  /-- What is removed is what a stack of nodes takes out, none of them twice. -/
  erase : ∀ node, scene.node? key = some node → key ≠ scene.root → ∃ dealt, dealt.Nodup ∧
    ∀ steps, scene.size ≤ steps →
      drain takeOut steps [key] { scene with nodes := unlink scene.nodes key node.parent } =
        some (dealt, (erase key scene).state)

variable [Scalar α]

lemma stale_of_node?_eq_none (hkey : scene.node? key = none) : Stale scene key where
  worldMatrix := by
    refine ⟨.scene, .nodeNotFound key, ?_⟩
    rw [Scene.worldMatrix, get_bind_apply, check_bind_apply, findNode, hkey]
  decorate := by
    refine ⟨.scene, .notManager key, ?_⟩
    rw [Scene.decorate, get_bind_apply, check_bind_apply, findManagerNode, hkey]
  erase := by
    obtain hf | ⟨node, -, hnode, -⟩ := erase_cases key scene
    · exact hf
    · simp [hkey] at hnode
  bound := by rw [Scene.bound, hkey]

namespace WellFormed

variable (h : scene.WellFormed)

include h

lemma exists_rooted (hnode : scene.node? key = some node) :
    ∃ above, Rooted scene key node above := by
  obtain ⟨above, hmem, hpath⟩ := h.exists_path hnode
  have hclimbs := h.climbs hmem
  have hlength := length_climb_le scene.nodes scene.size (some key)
  rw [← path, hpath, List.length_cons] at hlength
  refine ⟨above, ?_⟩
  constructor
  case climbs => exact hclimbs
  case root_eq => exact h.getLast?_path hclimbs (List.cons_ne_nil _ _)
  case length_lt => exact hlength
  case ancestors_eq => exact fun steps hs => hclimbs.ancestors_eq hs
  case worldMatrix_eq =>
    rw [worldMatrix, get_bind_apply, check_bind_apply, findNode_eq_ok.2 hnode]
    simp only [pure_apply, hclimbs.ancestors_eq (Nat.le_of_succ_le hlength)]

omit [Scalar α] in
/-- A stack of nodes finds what a manager is to light, in an order of its own. -/
lemma exists_found {m : ManagerKey} {manager : Manager α} (hnode : scene.node? key = some node)
    (hkind : node.kind = .manager m) (hm : scene.managers.get? m = some manager) :
    ∃ dealt found, dealt.Nodup ∧
      (∀ steps, scene.size ≤ steps →
        drain (seek scene.nodes key) steps [key] [] = some (dealt, found)) ∧
      found.Perm (scene.unlitBy key node) ∧
      Scene.decorate key scene =
        if manager.isDecorated then ⟨.ok 0, scene, []⟩
        else ⟨.ok found.length, scene.withDecoration m found,
          [.decorated node.name found.length]⟩ := by
  obtain ⟨dealt, found, hdrains, hsub, hperm⟩ := h.drains_seek hnode hkind
  refine ⟨dealt, found, (h.nodup_tree hnode).sublist hsub, fun steps hs => ?_, hperm, ?_⟩
  · exact hdrains.drain_eq (Nat.le_trans hsub.length_le (Nat.le_trans (h.length_le_size hnode) hs))
  · rw [decorate_eq hnode hkind hm, hperm.length_eq,
      withDecoration_congr scene m fun k => hperm.mem_iff]

theorem measured (hnode : scene.node? key = some node) : Measured scene key node := by
  have hnodup := h.nodup_tree hnode
  have hbound : scene.bound key = node.bound (scene.below node).bound := by rw [bound, hnode]
  constructor
  case nodup => exact hnodup
  case once => exact Forest.once_tour (List.nodup_cons.1 hnodup).2
  case bound_eq => exact ⟨_, Forest.foldl_measure_tour _ _ [], hbound⟩
  case follow_eq =>
    intro depth hd
    rw [(h.follow_eq hnode hd).2, Option.map_some, hbound]

theorem endsFrom (key : NodeKey) : EndsFrom scene key := by
  constructor
  case stale => exact stale_of_node?_eq_none
  case up => exact fun node hnode => h.exists_rooted hnode
  case down =>
    intro depth hd
    cases hkey : scene.node? key with
    | some node => exact (h.follow_eq hkey hd).1
    | none =>
      obtain ⟨depth, rfl⟩ := Nat.exists_eq_add_of_le' (Nat.le_trans h.size_pos hd)
      rw [Forest.follow_lost hkey, h.ofKeys_lost hkey]
  case nodup =>
    cases hkey : scene.node? key with
    | some node =>
      rw [h.ofKeys_eq hkey]
      simpa using h.nodup_tree hkey
    | none => simp [h.ofKeys_lost hkey, Forest.keys, Forest.preorder]
  case bound => exact fun node hnode => h.measured hnode
  case decorate =>
    intro node m manager hnode hkind hm
    obtain ⟨dealt, found, hnodup, hdrain, -, ho⟩ := h.exists_found hnode hkind hm
    exact ⟨dealt, found, hnodup, hdrain, ho⟩
  case erase =>
    intro node hnode hroot
    have hperm := h.subtree_perm hnode
    refine ⟨_, hperm.nodup_iff.2 (h.nodup_tree hnode), fun steps hs => ?_⟩
    rw [erase_eq hnode hroot]
    apply (h.drains_takeOut hnode).drain_eq
    rw [hperm.length_eq]
    exact Nat.le_trans (h.length_le_size hnode) hs

end WellFormed

/-- All that goes through the scene comes to an end, from whatever key it begins. -/
structure Ends (scene : Scene α) : Prop where
  endsFrom : ∀ key, EndsFrom scene key
  /-- The tree that lights are collected from and that is drawn has each node once. -/
  nodup_keys : scene.tree.keys.Nodup
  keys_perm : scene.tree.keys.Perm scene.nodes.keys
  collect : ∀ depth, scene.size ≤ depth →
    (Forest.follow scene.nodes depth [scene.root]).map (fun tree => tree.collect 1 none) =
      some (scene.tree.collect 1 none)
  /-- To collect lights is to visit the nodes along their paths, and no node has two of them. -/
  visits : Visits scene.paths (scene.tree.collect 1 none)
  /-- To draw the scene is to go on one tour of it, which comes to no node twice. -/
  once : Stop.Once scene.tree.tour
  draws_eq : ∀ camera : Camera α, scene.tree.draws camera =
    Drawing.draws <$> scene.tree.tour.foldlM (scene.drawAt camera) ⟨[], []⟩
  draws : ∀ depth, scene.size ≤ depth → ∀ camera : Camera α,
    (Forest.follow scene.nodes depth [scene.root]).map
      (fun tree => tree.draws camera) = some (scene.tree.draws camera)

/-- Every run leaves a scene that can be gone through. -/
theorem traversals_end (run : List (Step α)) : Ends (after run) := by
  have h := wellFormed_after run
  have htree := fun depth hd => (h.endsFrom (after run).root).down depth hd
  constructor
  case endsFrom => exact h.endsFrom
  case nodup_keys => exact h.nodup_keys
  case keys_perm => exact h.keys_perm
  case collect =>
    intro depth hd
    rw [htree depth hd]
    rfl
  case visits => exact Forest.visits_collect _ []
  case once => exact Forest.once_tour h.nodup_keys
  case draws_eq => exact fun camera => h.draws_eq camera
  case draws =>
    intro depth hd camera
    rw [htree depth hd]
    rfl

end Scene

end SceneLighting
