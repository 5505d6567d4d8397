import SceneLighting.Proofs.Scene.Path
import SceneLighting.Proofs.Scene.Run

/-!
# What a draw list holds

The matrix and the lighting in force are kept on two stacks while a draw list is made. All that is
read from them can be told without stacks: the matrix is that of the path, and a thing is lit by
what the nearest node of its path selected, among those that selected any lights. The selections
themselves only depend on the paths.
-/

namespace SceneLighting

variable {α : Type}

/-- Whether lights are selected at a node. -/
def Node.selects (node : Node α) : Bool :=
  node.selector.isSome

namespace Path

/-- The nearest lighting on a path, when `pick` tells the lighting at each node. -/
def lit (pick : NodeKey → Option (Lighting α)) (path : Path α) : Option (Lighting α) :=
  path.findSome? fun (key, _) => pick key

@[simp] lemma lit_nil (pick : NodeKey → Option (Lighting α)) : lit pick ([] : Path α) = none :=
  rfl

lemma lit_cons (pick : NodeKey → Option (Lighting α)) (key : NodeKey) (node : Node α)
    (above : Path α) : lit pick ((key, node) :: above) = (pick key).or (above.lit pick) := by
  cases h : pick key <;> simp [lit, h]

/-- The last node of a path as a thing to draw, if it is drawn. -/
def draw? [Scalar α] (pick : NodeKey → Option (Lighting α)) (view : Mat4 α) (path : Path α) :
    Option (Draw α) :=
  match path with
  | []               => none
  | (key, node) :: _ =>
    if node.isDrawable then some ⟨key, path.modelView view, path.lit pick⟩ else none

end Path

/-- The manager of a light set, and which of its lights are in the set. -/
def Lighting.chosen (lighting : Lighting α) : ManagerKey × List Nat :=
  (lighting.manager, lighting.set.indices)

/-- What is to be seen of a draw: its node, where it is, and which lights fall on it. -/
structure Draw.Outline (α : Type) where
  node : NodeKey
  modelView : List α
  chosen : Option (ManagerKey × List Nat)
  deriving DecidableEq

def Draw.outline (draw : Draw α) : Draw.Outline α :=
  ⟨draw.node, draw.modelView.toList, draw.lighting.map Lighting.chosen⟩

/-- How often a list of selections puts lights in force. -/
def litCount (selections : List (Selection α)) : Nat :=
  selections.countP fun selection => selection.lighting.isSome

@[simp] lemma litCount_append (l₁ l₂ : List (Selection α)) :
    litCount (l₁ ++ l₂) = litCount l₁ + litCount l₂ :=
  List.countP_append

namespace Scene

variable [Scalar α]

/-- What the last node of a path selects of the lights of its manager, if it has one. -/
def selectAt (scene : Scene α) (camera : Camera α) (path : Path α) :
    Action (Managers α) (List (Selection α)) :=
  match path with
  | []               => return []
  | (key, node) :: _ =>
    match node.selector with
    | none         => return []
    | some manager => do
      let set? ← onManagerKey manager .culling (.selectedManagerNotFound manager node.name)
        (Manager.select camera (scene.bound key) (path.modelView camera.view))
      return [⟨key, set?.map fun set => ⟨manager, set⟩⟩]

/-- What the last nodes of the paths select, one after another. -/
def selectAll (scene : Scene α) (camera : Camera α) (paths : List (Path α)) :
    Action (Managers α) (List (Selection α)) :=
  List.flatten <$> paths.mapM (scene.selectAt camera)

lemma selectAll_nil (scene : Scene α) (camera : Camera α) :
    scene.selectAll camera [] = pure [] := by
  simp [selectAll]

lemma answers_selectAll_cons {scene : Scene α} {camera : Camera α} {path : Path α}
    {paths : List (Path α)} {managers after : Managers α} {l : List (Selection α)} :
    (scene.selectAll camera (path :: paths)).Answers managers l after ↔ ∃ l₁ between l₂,
      (scene.selectAt camera path).Answers managers l₁ between ∧
      (scene.selectAll camera paths).Answers between l₂ after ∧ l₁ ++ l₂ = l := by
  simp only [selectAll, Action.answers_map, Action.answers_mapM_cons]
  constructor
  · rintro ⟨_, ⟨l₁, between, ls, h₁, h₂, rfl⟩, rfl⟩
    exact ⟨l₁, between, ls.flatten, h₁, ⟨ls, h₂, rfl⟩, rfl⟩
  · rintro ⟨l₁, between, _, h₁, ⟨ls, h₂, rfl⟩, rfl⟩
    exact ⟨l₁ :: ls, ⟨l₁, between, ls, h₁, h₂, rfl⟩, rfl⟩

lemma answers_selectAll_append {scene : Scene α} {camera : Camera α} {ps qs : List (Path α)}
    {managers after : Managers α} {l : List (Selection α)} :
    (scene.selectAll camera (ps ++ qs)).Answers managers l after ↔ ∃ l₁ between l₂,
      (scene.selectAll camera ps).Answers managers l₁ between ∧
      (scene.selectAll camera qs).Answers between l₂ after ∧ l₁ ++ l₂ = l := by
  simp only [selectAll, Action.answers_map, Action.answers_mapM_append]
  constructor
  · rintro ⟨_, ⟨ls₁, between, ls₂, h₁, h₂, rfl⟩, rfl⟩
    exact ⟨ls₁.flatten, between, ls₂.flatten, ⟨ls₁, h₁, rfl⟩, ⟨ls₂, h₂, rfl⟩,
      List.flatten_append.symm⟩
  · rintro ⟨_, between, _, ⟨ls₁, h₁, rfl⟩, ⟨ls₂, h₂, rfl⟩, rfl⟩
    exact ⟨ls₁ ++ ls₂, ⟨ls₁, between, ls₂, h₁, h₂, rfl⟩, List.flatten_append⟩

end Scene

/-! ### The stacks do not show -/

/-- `pick` tells for all nodes of a forest what they selected. -/
structure Picks (pick : NodeKey → Option (Lighting α)) (nodes : List (NodeKey × Node α))
    (selections : List (Selection α)) : Prop where
  selected : ∀ selection ∈ selections, pick selection.node = selection.lighting
  unselected : ∀ key node, (key, node) ∈ nodes → node.selector = none → pick key = none

lemma Picks.mono {pick : NodeKey → Option (Lighting α)} {nodes nodes' : List (NodeKey × Node α)}
    {l l' : List (Selection α)} (h : Picks pick nodes l) (hn : nodes' ⊆ nodes) (hl : l' ⊆ l) :
    Picks pick nodes' l' where
  selected selection hs := h.selected selection (hl hs)
  unselected key node hk := h.unselected key node (hn hk)

namespace Culling

/-- From the space of a node to that of the camera, transforms alone multiply. -/
lemma modelView_enter [Scalar α] (c : Culling α) (node : Node α) :
    (c.enter node).modelView = node.transform?.elim c.modelView (c.modelView * ·) := by
  cases h : node.kind <;> simp [enter, modelView, Node.transform?, h]

@[simp] lemma lighting_enter [Scalar α] (c : Culling α) (node : Node α) :
    (c.enter node).lighting = c.lighting := by
  cases h : node.kind <;> simp [enter, h]

/-- What is different after a node was to select: the `selections` that it made are noted, and
`lighting` is on top of what was in force. -/
structure Selected (before after : Culling α) (lighting : Option (Lighting α))
    (selections : List (Selection α)) : Prop where
  selections_eq : after.selections = before.selections ++ selections
  modelViews_eq : after.modelViews = before.modelViews
  lighting_eq : after.lighting = ⟨lighting.toList ++ before.lighting.items,
    before.lighting.pushes + litCount selections, before.lighting.pops⟩
  litCount_eq : litCount selections = lighting.toList.length

/-- What is different after a part of a draw list was made: `selections` were made in it. Both
stacks are as they were, and lights were pushed and popped once for each selection that has any. -/
structure Passed (before after : Culling α) (selections : List (Selection α)) : Prop where
  selections_eq : after.selections = before.selections ++ selections
  modelViews_eq : after.modelViews = before.modelViews
  items_eq : after.lighting.items = before.lighting.items
  pushes_eq : after.lighting.pushes = before.lighting.pushes + litCount selections
  pops_eq : after.lighting.pops = before.lighting.pops + litCount selections

lemma Selected.modelView_eq [Scalar α] {c c' : Culling α} {lighting : Option (Lighting α)}
    {l : List (Selection α)} (h : c.Selected c' lighting l) : c'.modelView = c.modelView := by
  rw [modelView, h.modelViews_eq, modelView]

lemma Selected.top?_eq {c c' : Culling α} {lighting : Option (Lighting α)}
    {l : List (Selection α)} (h : c.Selected c' lighting l) :
    c'.lighting.top? = lighting.or c.lighting.top? := by
  rw [h.lighting_eq]
  cases lighting <;> rfl

lemma Passed.modelView_eq [Scalar α] {c c' : Culling α} {l : List (Selection α)}
    (h : c.Passed c' l) : c'.modelView = c.modelView := by
  rw [modelView, h.modelViews_eq, modelView]

lemma Passed.top?_eq {c c' : Culling α} {l : List (Selection α)} (h : c.Passed c' l) :
    c'.lighting.top? = c.lighting.top? := by
  rw [CountedStack.top?, h.items_eq, CountedStack.top?]

lemma Passed.refl (c : Culling α) : c.Passed c [] where
  selections_eq := (List.append_nil _).symm
  modelViews_eq := rfl
  items_eq := rfl
  pushes_eq := rfl
  pops_eq := rfl

lemma Passed.trans {a b c : Culling α} {l l' : List (Selection α)} (h : a.Passed b l)
    (h' : b.Passed c l') : a.Passed c (l ++ l') where
  selections_eq := by rw [h'.selections_eq, h.selections_eq, List.append_assoc]
  modelViews_eq := h'.modelViews_eq.trans h.modelViews_eq
  items_eq := h'.items_eq.trans h.items_eq
  pushes_eq := by rw [h'.pushes_eq, h.pushes_eq, litCount_append, Nat.add_assoc]
  pops_eq := by rw [h'.pops_eq, h.pops_eq, litCount_append, Nat.add_assoc]

/-- When what a node put on the stack is taken off, its selection and all below it have passed. -/
lemma Selected.release {c c₁ c₂ : Culling α} {lighting : Option (Lighting α)}
    {l l' : List (Selection α)} (hs : c.Selected c₁ lighting l) (h : c₁.Passed c₂ l') :
    c.Passed (c₂.release lighting) (l ++ l') := by
  have hitems := h.items_eq
  have hpushes := h.pushes_eq
  have hpops := h.pops_eq
  have hn := hs.litCount_eq
  have hviews := h.modelViews_eq.trans hs.modelViews_eq
  have hselections : c₂.selections = c.selections ++ (l ++ l') := by
    rw [h.selections_eq, hs.selections_eq, List.append_assoc]
  rw [hs.lighting_eq] at hitems hpushes hpops
  cases lighting with
  | none =>
    simp only [Option.toList_none, List.length_nil, List.nil_append] at hn hitems
    constructor
    case selections_eq => exact hselections
    case modelViews_eq => exact hviews
    case items_eq => exact hitems
    case pushes_eq => rw [Culling.release, hpushes, litCount_append, Nat.add_assoc]
    case pops_eq => simp [Culling.release, hpops, hn]
  | some top =>
    simp only [Option.toList_some, List.length_singleton, List.singleton_append] at hn hitems
    constructor
    case selections_eq => exact hselections
    case modelViews_eq => exact hviews
    case items_eq => simp [Culling.release, CountedStack.pop, hitems]
    case pushes_eq =>
      simp [Culling.release, CountedStack.pop, hitems, hpushes, Nat.add_assoc]
    case pops_eq =>
      simp only [Culling.release, CountedStack.pop, hitems, hpops, litCount_append, hn]
      omega

/-- What has passed inside a node has passed when the node is left. -/
lemma Passed.leave [Scalar α] {c c' : Culling α} {node : Node α} {l : List (Selection α)}
    (h : (c.enter node).Passed c' l) : c.Passed (c'.leave node) l := by
  cases hkind : node.kind <;> simp only [Culling.enter, Culling.leave, hkind] at h ⊢
  case transform matrix =>
    have hviews : c'.modelViews.tail = c.modelViews := by rw [h.modelViews_eq, List.tail_cons]
    exact ⟨h.selections_eq, hviews, h.items_eq, h.pushes_eq, h.pops_eq⟩
  all_goals exact h

end Culling

namespace Forest

variable [Scalar α] {scene : Scene α} {camera : Camera α}

/-- A node selects what the last node of its path selects, and what it selected is on top. -/
lemma selectNode_answers {key : NodeKey} {node : Node α} {children : Forest α} {above : Path α}
    (hbound : node.bound children.bound = scene.bound key) {c c' : Culling α}
    (hview : c.modelView = Path.modelView ((key, node) :: above) camera.view)
    {lighting : Option (Lighting α)}
    (h : (selectNode camera key node children).Answers c lighting c') :
    ∃ l, (scene.selectAt camera ((key, node) :: above)).Answers c.managers l c'.managers ∧
      c.Selected c' lighting l ∧ ∀ pick, Picks pick [(key, node)] l → pick key = lighting := by
  unfold selectNode at h
  cases hsel : node.selector with
  | none =>
    simp only [hsel, Action.answers_pure] at h
    obtain ⟨rfl, rfl⟩ := h
    refine ⟨[], by simp [Scene.selectAt, hsel], ⟨by simp, rfl, by simp [litCount], rfl⟩, ?_⟩
    exact fun pick hpick => hpick.unselected key node (by simp) hsel
  | some manager =>
    simp only [hsel, Action.answers_bind, Action.answers_pure, Action.answers_modify,
      Action.answers_get, Culling.onManagers, Action.answers_on, hbound] at h
    obtain ⟨_, _, ⟨rfl, rfl⟩, set?, _, ⟨managers, hs, rfl⟩, -, _, rfl, rfl, rfl⟩ := h
    rw [hview] at hs
    refine ⟨[⟨key, set?.map fun set => ⟨manager, set⟩⟩], ?_, ⟨rfl, rfl, ?_, ?_⟩, ?_⟩
    · simp only [Scene.selectAt, hsel, Action.answers_bind, Action.answers_pure]
      exact ⟨set?, managers, hs, rfl, rfl⟩
    · cases set? <;> simp [Culling.select, CountedStack.push, litCount]
    · cases set? <;> simp [litCount]
    · exact fun pick hpick => hpick.selected _ (List.mem_singleton_self _)

/-- The draws of a forest are read off the paths, and its selections are those of the paths. -/
theorem Spans.draws_answers (hw : scene.WellFormed) {keys : List NodeKey} {forest : Forest α}
    (h : Spans scene.nodes keys forest) {above : Path α} {c c' : Culling α} {draws : List (Draw α)}
    (hview : c.modelView = above.modelView camera.view)
    (hok : (forest.draws camera).Answers c draws c') :
    ∃ l, (scene.selectAll camera (forest.paths above)).Answers c.managers l c'.managers ∧
      c.Passed c' l ∧ ∀ pick, Picks pick forest.preorder l → c.lighting.top? = above.lit pick →
        draws = (forest.paths above).filterMap (Path.draw? pick camera.view) := by
  induction h generalizing above c c' draws with
  | nil =>
    simp only [Forest.draws, Action.answers_pure] at hok
    obtain ⟨rfl, rfl⟩ := hok
    exact ⟨[], by simp [paths, Scene.selectAll_nil], .refl c, fun _ _ _ => rfl⟩
  | @tree key keys node children rest hnode hchildren _ ihc ihr =>
    simp only [Forest.draws, drawNode, Action.answers_bind, Action.answers_pure,
      Action.answers_modify, Action.answers_get] at hok
    obtain ⟨-, _, rfl, lighting, c₁, hselect, own, _, ⟨_, _, ⟨rfl, rfl⟩, rfl, rfl⟩, below, c₂,
      hbelow, -, _, rfl, after, _, hafter, rfl, rfl⟩ := hok
    have hbound : node.bound children.bound = scene.bound key := by
      rw [Scene.bound, Scene.node?, hnode, hw.eq_below hnode hchildren]
    have hinner : (c.enter node).modelView = Path.modelView ((key, node) :: above) camera.view := by
      rw [Culling.modelView_enter, hview, Path.modelView_cons]
    obtain ⟨l₁, ha₁, hs₁, hp₁⟩ := selectNode_answers hbound hinner hselect
    have hview₁ := hs₁.modelView_eq.trans hinner
    obtain ⟨l₂, ha₂, hc₂, hp₂⟩ := ihc hview₁ hbelow
    -- the node is left with both stacks as they were found, so its siblings start from `above` again
    have hpassed := (hs₁.release hc₂).leave
    obtain ⟨l₃, ha₃, hc₃, hp₃⟩ := ihr (hpassed.modelView_eq.trans hview) hafter
    rw [Culling.managers_enter] at ha₁
    rw [Culling.managers_leave, Culling.managers_release] at ha₃
    refine ⟨l₁ ++ (l₂ ++ l₃), ?_, ?_, fun pick hpick htop => ?_⟩
    · refine Scene.answers_selectAll_cons.2 ⟨l₁, _, _, ha₁, ?_, rfl⟩
      exact Scene.answers_selectAll_append.2 ⟨l₂, _, l₃, ha₂, ha₃, rfl⟩
    · rw [← List.append_assoc]
      exact hpassed.trans hc₃
    · have hkey : pick key = lighting :=
        hp₁ pick (hpick.mono (by simp [preorder]) (by simp))
      have htop₁ : c₁.lighting.top? = Path.lit pick ((key, node) :: above) := by
        rw [Path.lit_cons, hkey, ← htop, hs₁.top?_eq, Culling.lighting_enter]
      rw [hp₂ pick (hpick.mono (by simp [preorder]) (by simp)) htop₁,
        hp₃ pick (hpick.mono (by simp [preorder]) (by simp)) (hpassed.top?_eq.trans htop), htop₁,
        hview₁]
      cases hd : node.isDrawable <;> simp [paths, Path.draw?, hd]

end Forest

/-! ### Draw lists -/

namespace DrawList

/-- The lighting that a node selected, if it selected any lights. -/
def selected (list : DrawList α) (key : NodeKey) : Option (Lighting α) :=
  (list.selections.find? fun selection => selection.node = key).bind Selection.lighting

variable [Scalar α]

/-- The list is what a camera is to draw of a scene, where `managers` are left behind. -/
structure Depicts (list : DrawList α) (scene : Scene α) (camera : Camera α)
    (managers : Managers α) : Prop where
  /-- The drawables, each node before those below it and children in their order. -/
  draws_eq : list.draws.map Draw.node = scene.nodesWhere Node.isDrawable
  nodup_draws : (list.draws.map Draw.node).Nodup
  mem_draws : ∀ key, key ∈ list.draws.map Draw.node ↔
    ∃ node, scene.node? key = some node ∧ node.isDrawable
  modelView_eq : ∀ draw ∈ list.draws,
    draw.modelView = (scene.path draw.node).modelView camera.view
  /-- Things are lit by the nearest selection that has lights. -/
  lighting_eq : ∀ draw ∈ list.draws, draw.lighting = (scene.path draw.node).lit list.selected
  /-- The selections were made one after another, each once. -/
  selections_made :
    (scene.selectAll camera scene.paths).Answers scene.managers list.selections managers
  selections_eq : list.selections.map Selection.node = scene.nodesWhere Node.selects
  nodup_selections : (list.selections.map Selection.node).Nodup
  mem_selections : ∀ key, key ∈ list.selections.map Selection.node ↔
    ∃ node, scene.node? key = some node ∧ node.selects
  stats_eq : list.stats =
    { drawables := list.draws.length
      selections :=
        (scene.nodes.keys.filter fun key => (scene.node? key).any Node.selects).length
      pushes := litCount list.selections
      pops := litCount list.selections }

end DrawList

namespace Scene

variable [Scalar α] {scene : Scene α} {camera : Camera α}

lemma nodes_of_selectAt {key : NodeKey} {node : Node α} {above : Path α}
    {managers after : Managers α} {l : List (Selection α)}
    (h : (scene.selectAt camera ((key, node) :: above)).Answers managers l after) :
    l.map Selection.node = if node.selects then [key] else [] := by
  cases hsel : node.selector <;> simp only [selectAt, hsel, Action.answers_bind,
    Action.answers_pure] at h
  · obtain ⟨rfl, -⟩ := h
    simp [Node.selects, hsel]
  · obtain ⟨_, _, -, rfl, -⟩ := h
    simp [Node.selects, hsel]

/-- The nodes with a manager select, and no others. -/
lemma nodes_of_selectAll {paths : List (Path α)} {managers after : Managers α}
    {l : List (Selection α)} (h : (scene.selectAll camera paths).Answers managers l after) :
    l.map Selection.node =
      ((paths.filterMap List.head?).filter fun e => e.2.selects).map Prod.fst := by
  induction paths generalizing managers l with
  | nil =>
    rw [selectAll_nil, Action.answers_pure] at h
    obtain ⟨rfl, -⟩ := h
    rfl
  | cons path paths ih =>
    obtain ⟨l₁, between, l₂, h₁, h₂, rfl⟩ := answers_selectAll_cons.1 h
    rw [List.map_append, ih h₂]
    rcases path with _ | ⟨⟨key, node⟩, above⟩
    · obtain ⟨rfl, -⟩ : [] = l₁ ∧ _ := by simpa [selectAt] using h₁
      rfl
    · rw [nodes_of_selectAt h₁]
      cases hsel : node.selects <;> simp [hsel]

lemma nodes_of_draw? {pick : NodeKey → Option (Lighting α)} {view : Mat4 α}
    (paths : List (Path α)) :
    (paths.filterMap (Path.draw? pick view)).map Draw.node =
      ((paths.filterMap List.head?).filter fun e => e.2.isDrawable).map Prod.fst := by
  induction paths with
  | nil => rfl
  | cons path paths ih =>
    rcases path with _ | ⟨⟨key, node⟩, above⟩
    · exact ih
    · cases hd : node.isDrawable <;> simp [Path.draw?, hd, ih]

/-- A draw list is made by one pass through the tree. -/
lemma drawList_answers {list : DrawList α} {after : Scene α}
    (h : (drawList camera).Answers scene list after) :
    ∃ c, (scene.tree.draws camera).Answers (.start camera scene.managers) list.draws c ∧
      list.selections = c.selections ∧ list.pushes = c.lighting.pushes ∧
      list.pops = c.lighting.pops ∧ after.managers = c.managers := by
  simp only [drawList, Action.answers_bind, Action.answers_get, Action.answers_on,
    Action.answers_pure] at h
  obtain ⟨_, _, ⟨rfl, rfl⟩, _, ⟨draws, c, hc, _, _, ⟨rfl, rfl⟩, rfl, rfl⟩, rfl⟩ := h
  exact ⟨c, hc, rfl, rfl, rfl, rfl⟩

omit [Scalar α] in
/-- What was recorded for a node is what `selected` finds. -/
lemma picks_selected (hw : scene.WellFormed) {list : DrawList α}
    (hnodes : list.selections.map Selection.node = scene.nodesWhere Node.selects) :
    Picks list.selected scene.tree.preorder list.selections where
  selected selection hs := by
    have hnodup : (list.selections.map Selection.node).Nodup :=
      hnodes ▸ hw.nodup_nodesWhere _
    obtain ⟨s, hfind⟩ : ∃ s, list.selections.find? (·.node = selection.node) = some s :=
      Option.isSome_iff_exists.1 (List.find?_isSome.2 ⟨selection, hs, by simp⟩)
    have heq : s = selection :=
      List.inj_on_of_nodup_map hnodup (List.mem_of_find?_eq_some hfind) hs
        (by simpa using List.find?_some hfind)
    rw [DrawList.selected, hfind, Option.bind_some, heq]
  unselected key node hk hsel := by
    have hnone : list.selections.find? (·.node = key) = none := by
      refine List.find?_eq_none.2 fun s hs => ?_
      obtain ⟨node', hnode', hselects⟩ := hw.mem_nodesWhere.1 (hnodes ▸ List.mem_map_of_mem hs)
      rintro hkey
      have hkey : s.node = key := by simpa using hkey
      rw [hkey, hw.mem_preorder.1 hk, Option.some.injEq] at hnode'
      subst hnode'
      simp [Node.selects, hsel] at hselects
    rw [DrawList.selected, hnone, Option.bind_none]

theorem depicts_of_answers (hw : scene.WellFormed) {list : DrawList α} {after : Scene α}
    (h : (Scene.drawList camera).Answers scene list after) :
    list.Depicts scene camera after.managers := by
  obtain ⟨c, hc, hselections, hpushes, hpops, hafter⟩ := drawList_answers h
  have hview : (Culling.start camera scene.managers).modelView =
      Path.modelView [] camera.view := rfl
  obtain ⟨l, hl, hpassed, hdraws⟩ := Forest.Spans.draws_answers hw hw.spans hview hc
  obtain rfl : list.selections = l := hselections.trans hpassed.selections_eq
  have hnodes := nodes_of_selectAll hl
  rw [← paths, filterMap_head?_paths, ← nodesWhere] at hnodes
  have hpicks := picks_selected hw hnodes
  have heq := hdraws _ hpicks rfl
  rw [← paths] at hl heq
  have hdrawn : ∀ draw ∈ list.draws, draw.modelView = (scene.path draw.node).modelView camera.view ∧
      draw.lighting = (scene.path draw.node).lit list.selected := by
    intro draw hd
    rw [heq, List.mem_filterMap] at hd
    obtain ⟨_ | ⟨⟨key, node⟩, above⟩, hp, hd⟩ := hd
    · simp [Path.draw?] at hd
    · simp only [Path.draw?, Option.ite_none_right_eq_some, Option.some.injEq] at hd
      obtain ⟨-, rfl⟩ := hd
      rw [hw.path_eq hp]
      exact ⟨rfl, rfl⟩
  have hdraws_eq : list.draws.map Draw.node = scene.nodesWhere Node.isDrawable := by
    rw [heq, nodes_of_draw?, filterMap_head?_paths, nodesWhere]
  constructor
  case draws_eq => exact hdraws_eq
  case nodup_draws => exact hdraws_eq ▸ hw.nodup_nodesWhere _
  case mem_draws => exact fun key => hdraws_eq ▸ hw.mem_nodesWhere
  case modelView_eq => exact fun draw hd => (hdrawn draw hd).1
  case lighting_eq => exact fun draw hd => (hdrawn draw hd).2
  case selections_made => exact hafter ▸ hl
  case selections_eq => exact hnodes
  case nodup_selections => exact hnodes ▸ hw.nodup_nodesWhere _
  case mem_selections => exact fun key => hnodes ▸ hw.mem_nodesWhere
  case stats_eq =>
    have hcount := hw.length_nodesWhere Node.selects
    rw [← hnodes, List.length_map] at hcount
    rw [DrawList.stats, DrawStats.mk.injEq]
    refine ⟨rfl, hcount, ?_, ?_⟩
    · exact hpushes.trans (hpassed.pushes_eq.trans (Nat.zero_add _))
    · exact hpops.trans (hpassed.pops_eq.trans (Nat.zero_add _))

/-- After any run, what a camera draws is what is to be drawn. -/
theorem drawList_depicts (run : List (Step α)) (camera : Camera α) {list : DrawList α}
    (h : (Scene.drawList camera (after run)).result = .ok list) :
    list.Depicts (after run) camera (Scene.drawList camera (after run)).state.managers :=
  depicts_of_answers (wellFormed_after run) (Action.answers_of_result h)

/-- The house as it is drawn: what is on the stand is moved with it and the bench after it is not,
the statue is lit by the niche, and the chest, whose loft selects nothing, by the hall. -/
theorem drawList_depicts_house :
    ∃ list, (Scene.drawList .identity (after house)).result = .ok list ∧
      (list.stats, list.draws.map Draw.outline) =
        (⟨4, 4, 3, 3⟩,
          [⟨⟨7, 1⟩, (Mat4.translation ⟨4, 0, 0⟩).toList, some (⟨2, 1⟩, [0])⟩,
            ⟨⟨8, 1⟩, (Mat4.translation ⟨4, 0, 0⟩).toList, some (⟨1, 1⟩, [0])⟩,
            ⟨⟨10, 1⟩, Mat4.toList 1, some (⟨1, 1⟩, [0, 1])⟩,
            ⟨⟨12, 1⟩, (Mat4.translation ⟨0, 9, 0⟩).toList, some (⟨1, 1⟩, [0, 1])⟩]) ∧
      list.Depicts (after house) .identity
        (Scene.drawList .identity (after house)).state.managers :=
  Action.exists_ok_of_map (by decide +kernel) fun _ h => drawList_depicts house .identity h

end Scene

end SceneLighting
