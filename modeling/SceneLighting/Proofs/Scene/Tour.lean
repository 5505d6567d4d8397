import SceneLighting.Proofs.Scene.Culling

/-!
# Tours

A tour goes round a forest like the pencil that draws it: it enters a node before those below it and
leaves it after them. To recurse on a forest is to do one thing at each stop of its tour, with a
stack for what is held between a node's two stops. So the recursion comes to each node once.
-/

namespace SceneLighting

variable {α : Type}

/-- A stop of a tour. -/
inductive Stop (α : Type) where
  /-- A node is come to from above. -/
  | enter (key : NodeKey) (node : Node α)
  /-- All that is below a node was gone through. -/
  | leave (key : NodeKey) (node : Node α)

namespace Stop

def entered? : Stop α → Option (NodeKey × Node α)
  | .enter key node => some (key, node)
  | .leave _ _      => none

def left? : Stop α → Option (NodeKey × Node α)
  | .enter _ _      => none
  | .leave key node => some (key, node)

/-- No node is entered twice, and none is left twice. -/
structure Once (stops : List (Stop α)) : Prop where
  entered : ((stops.filterMap entered?).map Prod.fst).Nodup
  left : ((stops.filterMap left?).map Prod.fst).Nodup

/-- What a stop does to the bounds of the nodes that were entered and not left, the innermost first,
each about the children that were left. The last bound is that of the trees. -/
def measure [Scalar α] : List (Sphere α) → Stop α → List (Sphere α)
  | bounds, .enter _ _                      => .invalid :: bounds
  | below :: above :: bounds, .leave _ node =>
    above.enclose (node.outward (node.bound below)) :: bounds
  | bounds, .leave _ _                      => bounds

end Stop

/-- A draw list that is made: the draws so far, and what the nodes that were entered and not left
put in force, the innermost first. -/
structure Drawing (α : Type) where
  draws : List (Draw α)
  held : List (Option (Lighting α))

/-- What is done at a stop to draw a scene. -/
def Scene.drawAt [Scalar α] (scene : Scene α) (camera : Camera α) (drawing : Drawing α) :
    Stop α → Action (Culling α) (Drawing α)
  | .enter key node => do
    Action.modify fun c => c.enter node
    let lighting ← Forest.selectNode camera key node (scene.below node)
    let own ← Forest.drawNode key node
    return ⟨drawing.draws ++ own, lighting :: drawing.held⟩
  | .leave _ node => do
    Action.modify fun c => (c.release drawing.held.head?.join).leave node
    return { drawing with held := drawing.held.tail }

namespace Forest

/-- The stops of a tour round the trees. -/
def tour : Forest α → List (Stop α)
  | .nil                         => []
  | .lost _ rest                 => rest.tour
  | .tree key node children rest =>
    .enter key node :: (children.tour ++ .leave key node :: rest.tour)

variable {forest : Forest α}

/-- Nodes are entered in the order in which traversals meet them. -/
lemma filterMap_entered?_tour (forest : Forest α) :
    forest.tour.filterMap Stop.entered? = forest.preorder := by
  induction forest with
  | nil => rfl
  | lost _ rest ih => exact ih
  | tree key node children rest ihc ihr =>
    simp [tour, preorder, List.filterMap_cons, Stop.entered?, ihc, ihr]

/-- The nodes that are left are those that are entered. -/
lemma filterMap_left?_tour_perm (forest : Forest α) :
    (forest.tour.filterMap Stop.left?).Perm forest.preorder := by
  induction forest with
  | nil => exact .nil
  | lost _ rest ih => exact ih
  | tree key node children rest ihc ihr =>
    simp only [tour, preorder, List.filterMap_cons, List.filterMap_append, Stop.left?]
    exact List.perm_middle.trans ((ihc.append ihr).cons _)

/-- A tour round trees that share no node comes to each once from above and once from below. -/
theorem once_tour (h : forest.keys.Nodup) : Stop.Once forest.tour where
  entered := by
    rw [filterMap_entered?_tour]
    exact h
  left := (forest.filterMap_left?_tour_perm.map Prod.fst).nodup_iff.2 h

variable [Scalar α]

/-- To compute a bound is to measure at each stop of the tour. -/
theorem foldl_measure_tour (forest : Forest α) (start : Sphere α) (bounds : List (Sphere α)) :
    forest.tour.foldl Stop.measure (start :: bounds) = forest.boundFrom start :: bounds := by
  induction forest generalizing start bounds with
  | nil => rfl
  | lost _ rest ih => exact ih start bounds
  | tree key node children rest ihc ihr =>
    rw [tour, List.foldl_cons, List.foldl_append, Stop.measure, ihc, List.foldl_cons, Stop.measure,
      ihr, boundFrom]

/-- To draw a forest is to draw at each stop of its tour. -/
theorem Spans.foldlM_drawAt {scene : Scene α} (hw : scene.WellFormed) {keys : List NodeKey}
    (h : Spans scene.nodes keys forest) (camera : Camera α) (drawing : Drawing α) :
    forest.tour.foldlM (scene.drawAt camera) drawing =
      forest.draws camera >>= fun draws => pure ⟨drawing.draws ++ draws, drawing.held⟩ := by
  induction h generalizing drawing with
  | nil => simp [tour, Forest.draws]
  | @tree key keys node children rest hnode hchildren _ ihc ihr =>
    obtain rfl := hw.eq_below hnode hchildren
    -- both do the same things in the same order, and only nest them in different ways
    simp only [tour, List.foldlM_cons, List.foldlM_append, Scene.drawAt, Forest.draws, ihc, ihr,
      bind_assoc, pure_bind, List.head?_cons, Option.join_some, List.tail_cons, List.append_assoc]

end Forest

namespace Scene

variable [Scalar α] {scene : Scene α}

/-- A scene is drawn in one tour. -/
lemma WellFormed.draws_eq (h : scene.WellFormed) (camera : Camera α) :
    scene.tree.draws camera =
      Drawing.draws <$> scene.tree.tour.foldlM (scene.drawAt camera) ⟨[], []⟩ := by
  rw [h.spans.foldlM_drawAt h, map_bind]
  simp

end Scene

end SceneLighting
