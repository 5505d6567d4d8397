import SceneLighting.Proofs.Geometry.Enclosing
import SceneLighting.Proofs.Geometry.Stretch
import SceneLighting.Proofs.Scene.Identity

/-!
# Bounds of nodes

The bound of a node is put together from those of its children, one after another. Each may move the
centre, but what was held before is held afterwards. A bound is only valid where something takes up
space, whatever the numbers are; with exact ones it is valid wherever something does.
-/

namespace SceneLighting

/-! ### What takes up space -/

namespace Node

variable {α : Type} [Scalar α] {node : Node α} {s : Sphere α}

/-- The node is drawn, and its bound is valid. -/
def Occupies (node : Node α) : Prop :=
  ∃ bound, node.kind = .drawable bound ∧ bound.IsValid

lemma occupies_or_isValid (h : (node.bound s).IsValid) : node.Occupies ∨ s.IsValid := by
  rw [bound] at h
  split at h
  next drawn hkind => exact Or.inl ⟨drawn, hkind, h⟩
  next => exact Or.inr h

lemma Occupies.isValid_bound (h : node.Occupies) (s : Sphere α) : (node.bound s).IsValid := by
  obtain ⟨drawn, hkind, hdrawn⟩ := h
  rwa [bound, hkind]

omit [Scalar α] in
lemma bound_of_not_isDrawable (h : ¬node.isDrawable) (s : Sphere α) : node.bound s = s := by
  rw [bound]
  split
  next hkind => exact absurd (by rw [isDrawable, hkind]) h
  next => rfl

lemma isValid_of_outward (h : (node.outward s).IsValid) : s.IsValid := by
  rw [outward] at h
  split at h
  · exact Sphere.isValid_of_map h
  · exact h

lemma isValid_outward {node : Node ℝ} {s : Sphere ℝ} (h : s.IsValid) :
    (node.outward s).IsValid := by
  rw [outward]
  split
  · exact Sphere.isValid_map_iff.2 h
  · exact h

end Node

namespace Forest

variable {α : Type} [Scalar α]

/-- A valid bound comes from something that takes up space. -/
theorem exists_of_isValid_boundFrom [Scalar.Signed α] {forest : Forest α} {start : Sphere α}
    (h : (forest.boundFrom start).IsValid) :
    start.IsValid ∨ ∃ e ∈ forest.preorder, e.2.Occupies := by
  induction forest generalizing start with
  | nil => exact Or.inl h
  | lost _ rest ih => exact ih h
  | tree key node children rest ihc ihr =>
    obtain hfirst | ⟨e, he, ho⟩ := ihr h
    · obtain hstart | hown := Sphere.isValid_of_enclose hfirst
      · exact Or.inl hstart
      · right
        obtain hnode | hchildren := Node.occupies_or_isValid (Node.isValid_of_outward hown)
        · exact ⟨(key, node), by simp [preorder], hnode⟩
        · obtain ⟨e, he, ho⟩ := (ihc hchildren).resolve_left Sphere.not_isValid_invalid
          exact ⟨e, by simp [preorder, he], ho⟩
    · exact Or.inr ⟨e, by simp [preorder, he], ho⟩

end Forest

namespace Scene

variable {α : Type} [Scalar α] {scene : Scene α} {key : NodeKey} {node : Node α}

/-- Something takes up space at a node or below it. -/
def Occupied (scene : Scene α) (key : NodeKey) : Prop :=
  ∃ k node, scene.Within key k ∧ scene.node? k = some node ∧ node.Occupies

omit [Scalar α] in
/-- The nodes of the tree below a node. -/
lemma WellFormed.mem_preorder_iff_within (h : scene.WellFormed)
    (hkey : (scene.node? key).isSome) {k : NodeKey} {n : Node α} :
    (k, n) ∈ (Forest.ofKeys scene.nodes [key]).preorder ↔
      scene.Within key k ∧ scene.node? k = some n := by
  obtain ⟨node, hnode⟩ := Option.isSome_iff_exists.1 hkey
  have hspans := h.spans_tree hnode
  rw [← h.ofKeys_eq hnode] at hspans
  constructor
  · intro hk
    have hn : scene.node? k = some n := hspans.get?_of_mem hk
    have hmem := List.mem_map_of_mem (f := Prod.fst) hk
    exact ⟨(h.mem_keys_iff_within hkey (Option.isSome_of_mem hn)).1 hmem, hn⟩
  · rintro ⟨hin, hn⟩
    exact hspans.mem_preorder ((h.mem_keys_iff_within hkey (Option.isSome_of_mem hn)).2 hin) hn

lemma WellFormed.occupied_iff (h : scene.WellFormed) (hnode : scene.node? key = some node) :
    scene.Occupied key ↔
      ∃ e ∈ (Forest.tree key node (scene.below node) .nil).preorder, e.2.Occupies := by
  have hmem := fun k n =>
    h.mem_preorder_iff_within (Option.isSome_of_mem hnode) (k := k) (n := n)
  simp only [h.ofKeys_eq hnode] at hmem
  constructor
  · rintro ⟨k, n, hin, hn, ho⟩
    exact ⟨(k, n), (hmem k n).2 ⟨hin, hn⟩, ho⟩
  · rintro ⟨⟨k, n⟩, hk, ho⟩
    obtain ⟨hin, hn⟩ := (hmem k n).1 hk
    exact ⟨k, n, hin, hn, ho⟩

lemma bound_eq (hnode : scene.node? key = some node) :
    scene.bound key = node.bound (scene.below node).bound := by
  rw [bound, hnode]

/-- Where nothing takes up space there is no valid bound. -/
theorem WellFormed.occupied_of_isValid_bound [Scalar.Signed α] (h : scene.WellFormed)
    (hvalid : (scene.bound key).IsValid) : scene.Occupied key := by
  cases hnode : scene.node? key with
  | none =>
    rw [bound, hnode] at hvalid
    exact absurd hvalid Sphere.not_isValid_invalid
  | some node =>
    rw [bound_eq hnode] at hvalid
    rw [h.occupied_iff hnode]
    obtain ho | hbelow := Node.occupies_or_isValid hvalid
    · exact ⟨(key, node), by simp [Forest.preorder], ho⟩
    · obtain ⟨e, he, ho⟩ :=
        (Forest.exists_of_isValid_boundFrom hbelow).resolve_left Sphere.not_isValid_invalid
      exact ⟨e, by simp [Forest.preorder, he], ho⟩

omit [Scalar α] in
lemma WellFormed.not_isDrawable (h : scene.WellFormed) (hnode : scene.node? key = some node)
    (hchildren : node.children ≠ []) : ¬node.isDrawable :=
  fun hd => hchildren (h.tree.drawable (Forest.shapes_of_get? hnode) hd)

end Scene

/-! ### Exact bounds -/

namespace Forest

variable {forest : Forest ℝ} {start : Sphere ℝ}

lemma isValid_boundFrom_of_start (h : start.IsValid) : (forest.boundFrom start).IsValid := by
  induction forest generalizing start with
  | nil => exact h
  | lost _ rest ih => exact ih h
  | tree _ _ _ rest _ ihr => exact ihr (Sphere.isValid_enclose_iff.2 (Or.inl h))

/-- What is held before a forest is held after it. -/
lemma holds_boundFrom_of_start {p : Vec3 ℝ} (hp : start.Holds p) :
    (forest.boundFrom start).Holds p := by
  induction forest generalizing start with
  | nil => exact hp
  | lost _ rest ih => exact ih hp
  | tree _ _ _ rest _ ihr => exact ihr (Sphere.holds_enclose_left hp)

variable {scene : Scene ℝ} {keys : List NodeKey}

/-- Something that takes up space makes a bound valid. -/
theorem Spans.isValid_boundFrom (hw : scene.WellFormed) (h : Spans scene.nodes keys forest)
    (start : Sphere ℝ) {e : NodeKey × Node ℝ} (he : e ∈ forest.preorder) (ho : e.2.Occupies) :
    (forest.boundFrom start).IsValid := by
  induction h generalizing start with
  | nil => simp [preorder] at he
  | @tree key keys node children rest hnode hchildren _ ihc ihr =>
    simp only [preorder, List.mem_cons, List.mem_append] at he
    rw [boundFrom]
    -- a valid bound of the node itself is enough
    have hown : (node.bound children.bound).IsValid →
        (rest.boundFrom (start.enclose (node.outward (node.bound children.bound)))).IsValid :=
      fun hbound => isValid_boundFrom_of_start
        (Sphere.isValid_enclose_iff.2 (Or.inr (Node.isValid_outward hbound)))
    rcases he with rfl | he | he
    · exact hown (ho.isValid_bound _)
    · apply hown
      rw [Node.bound_of_not_isDrawable (hw.not_isDrawable hnode (hchildren.ne_nil he))]
      exact ihc _ he
    · exact ihr _ he

/-- The bound about a forest holds all that the bounds of its trees hold, as they are seen from
above. -/
theorem Spans.holds_boundFrom (hw : scene.WellFormed) (h : Spans scene.nodes keys forest)
    {c : NodeKey} (hc : c ∈ keys) : ∃ child, scene.node? c = some child ∧
      ∀ p, (child.outward (scene.bound c)).Holds p → (forest.boundFrom start).Holds p := by
  induction h generalizing start with
  | nil => simp at hc
  | @tree key keys node children rest hnode hchildren _ _ ihr =>
    rcases List.mem_cons.1 hc with rfl | hc
    · refine ⟨node, hnode, fun p hp => ?_⟩
      rw [Scene.bound_eq hnode, ← hw.eq_below hnode hchildren] at hp
      rw [boundFrom]
      exact holds_boundFrom_of_start (Sphere.holds_enclose_right hp)
    · exact ihr hc

end Forest

namespace Scene

variable {key : NodeKey} {node : Node ℝ}

/-- The bound of a node is valid when something takes up space there, and it holds the bounds of
all children, as they are seen from the node. -/
structure Covered (scene : Scene ℝ) (key : NodeKey) (node : Node ℝ) : Prop where
  isValid_iff : (scene.bound key).IsValid ↔ scene.Occupied key
  /-- The bound of a child is in its own space, which a transform moves. One that is not valid has
  no points. -/
  children : ∀ c ∈ node.children, ∃ child, scene.node? c = some child ∧ ∀ p,
    (match child.kind with
      | .transform matrix => (scene.bound c).map matrix
      | _                 => scene.bound c).Holds p → (scene.bound key).Holds p

lemma WellFormed.covered {scene : Scene ℝ} (h : scene.WellFormed)
    (hnode : scene.node? key = some node) : scene.Covered key node where
  isValid_iff := by
    refine ⟨h.occupied_of_isValid_bound, fun ho => ?_⟩
    obtain ⟨e, he, ho⟩ := (h.occupied_iff hnode).1 ho
    have htree := (h.spans_tree hnode).isValid_boundFrom h .invalid he ho
    have houtward := (Sphere.isValid_of_enclose htree).resolve_left Sphere.not_isValid_invalid
    rw [bound_eq hnode]
    exact Node.isValid_of_outward houtward
  children c hc := by
    have hd := h.not_isDrawable hnode (List.ne_nil_of_mem hc)
    rw [bound_eq hnode, Node.bound_of_not_isDrawable hd]
    obtain ⟨child, hchild, hholds⟩ := (h.spans_below hnode).holds_boundFrom h hc
    refine ⟨child, hchild, fun p hp => hholds p ?_⟩
    cases hkind : child.kind <;> simpa only [Node.outward, hkind] using hp

/-- With exact numbers, all nodes have bounds that cover their children, after any run. -/
theorem bounds_cover (run : List (Step ℝ)) (hnode : (after run).node? key = some node) :
    (after run).Covered key node :=
  (wellFormed_after run).covered hnode

/-- A hall with a table turned left to right, a chair and an empty corner. -/
noncomputable def furnished : List (Step ℝ) :=
  [.add ⟨1, 1⟩ "hall" .group, .add ⟨2, 1⟩ "place" (.transform (Mat4.scaling ⟨-1, 1, 1⟩)),
    .add ⟨3, 1⟩ "table" (.drawable ⟨⟨1, 0, 0⟩, 1⟩), .add ⟨2, 1⟩ "corner" .group,
    .add ⟨2, 1⟩ "chair" (.drawable ⟨⟨0, 1, 0⟩, 1⟩)]

lemma bound_furnished : (after furnished).bound ⟨3, 1⟩ = ⟨⟨1, 0, 0⟩, 1⟩ := by
  have h : (after furnished).bound ⟨3, 1⟩ = Sphere.invalid.enclose ⟨⟨1, 0, 0⟩, 1⟩ := rfl
  rw [h, Sphere.enclose_of_left_invalid Sphere.not_isValid_invalid zero_le_one]

/-- A point of the table, where the place takes it. -/
lemma holds_map_furnished :
    (((after furnished).bound ⟨3, 1⟩).map (Mat4.scaling ⟨-1, 1, 1⟩)).Holds ⟨-2, 0, 0⟩ := by
  have hvalid : (⟨⟨1, 0, 0⟩, 1⟩ : Sphere ℝ).IsValid := zero_le_one
  have hp : (⟨⟨1, 0, 0⟩, 1⟩ : Sphere ℝ).Holds ⟨2, 0, 0⟩ := by
    norm_num [Sphere.Holds, Vec3.distance, Vec3.length, Vec3.dot, Vec3.sub_def]
    exact Real.sqrt_one.le
  have hmap : (Mat4.scaling ⟨-1, 1, 1⟩).mapPoint ⟨2, 0, 0⟩ = (⟨-2, 0, 0⟩ : Vec3 ℝ) := by
    norm_num [Mat4.scaling, Mat4.mapPoint]
  rw [bound_furnished, ← hmap]
  have hmost := (Mat4.hasOrthogonalAxes_scaling ⟨-1, 1, 1⟩).stretchesAxesMost
  exact (Sphere.holds_map_iff hvalid).2 (Or.inr hmost) _ hp

/-- The hall is seen to hold the table where its place takes it, and not where it stands in its own
space. -/
theorem bounds_cover_furnished : ∃ node,
    (after furnished).node? ⟨2, 1⟩ = some node ∧ node.children = [⟨3, 1⟩, ⟨5, 1⟩, ⟨6, 1⟩] ∧
      (after furnished).Covered ⟨2, 1⟩ node ∧
      ((after furnished).bound ⟨2, 1⟩).Holds ⟨-2, 0, 0⟩ ∧
      ¬((after furnished).bound ⟨3, 1⟩).Holds ⟨-2, 0, 0⟩ := by
  have hchildren : ((after furnished).node? ⟨2, 1⟩).map Node.children =
      some [⟨3, 1⟩, ⟨5, 1⟩, ⟨6, 1⟩] := rfl
  have hkind : ((after furnished).node? ⟨3, 1⟩).map Node.kind =
      some (.transform (Mat4.scaling ⟨-1, 1, 1⟩)) := rfl
  obtain ⟨node, hnode, hc⟩ := Option.map_eq_some_iff.1 hchildren
  have hcovered := bounds_cover furnished hnode
  obtain ⟨place, hplace, hholds⟩ := hcovered.children ⟨3, 1⟩ (by simp [hc])
  rw [hplace, Option.map_some, Option.some.injEq] at hkind
  rw [hkind] at hholds
  refine ⟨node, hnode, hc, hcovered, hholds _ holds_map_furnished, ?_⟩
  rw [bound_furnished]
  norm_num [Sphere.Holds, Vec3.distance, Vec3.length, Vec3.dot, Vec3.sub_def]
  exact (Real.lt_sqrt zero_le_one).2 (by norm_num)

end Scene

end SceneLighting
