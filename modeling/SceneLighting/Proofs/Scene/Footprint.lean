import SceneLighting.Proofs.Manager.Selection
import SceneLighting.Proofs.Scene.Run

/-!
# What drawing leaves as it is

To make a draw list is to ask managers for light sets. A manager that is asked keeps its lights and
all sets that it made before, and counts upwards. One that no node is attached to is not asked, and
nodes stay as they are. All this holds also of a draw list that is given up half-way.
-/

namespace SceneLighting

variable {α : Type} [Scalar α]

/-! ### Frames -/

/-- The frame of the same lights, after some more requests. -/
structure Frame.Extends (frame frame' : Frame α) : Prop where
  number_eq : frame'.number = frame.number
  lights : SameLights frame.lights frame'.lights
  cache : frame.cache <:+ frame'.cache
  cached : ∀ fingerprint set, frame.cached? fingerprint = some set →
    frame'.cached? fingerprint = some set
  registered_eq : frame'.stats.registered = frame.stats.registered
  preparations_le : frame.stats.preparations ≤ frame'.stats.preparations
  hits_le : frame.stats.hits ≤ frame'.stats.hits
  misses_le : frame.stats.misses ≤ frame'.stats.misses
  truncations_le : frame.stats.truncations ≤ frame'.stats.truncations

namespace Frame.Extends

lemma refl (frame : Frame α) : Extends frame frame where
  number_eq := rfl
  lights := rfl
  cache := List.suffix_rfl
  cached _ _ := id
  registered_eq := rfl
  preparations_le := Nat.le_refl _
  hits_le := Nat.le_refl _
  misses_le := Nat.le_refl _
  truncations_le := Nat.le_refl _

lemma trans {a b c : Frame α} (hab : Extends a b) (hbc : Extends b c) : Extends a c where
  number_eq := hbc.number_eq.trans hab.number_eq
  lights := Eq.trans hab.lights hbc.lights
  cache := hab.cache.trans hbc.cache
  cached fingerprint set h := hbc.cached fingerprint set (hab.cached fingerprint set h)
  registered_eq := hbc.registered_eq.trans hab.registered_eq
  preparations_le := Nat.le_trans hab.preparations_le hbc.preparations_le
  hits_le := Nat.le_trans hab.hits_le hbc.hits_le
  misses_le := Nat.le_trans hab.misses_le hbc.misses_le
  truncations_le := Nat.le_trans hab.truncations_le hbc.truncations_le

lemma prepare (frame : Frame α) (camera : Camera α) : Extends frame (frame.prepare camera) := by
  have hlights := frame.sameLights_prepare camera
  by_cases h : frame.isPreparedFor camera
  · rw [Frame.prepare, if_pos h]
    exact refl frame
  · rw [Frame.prepare, if_neg h] at hlights ⊢
    exact { refl frame with lights := hlights, preparations_le := Nat.le_succ _ }

lemma countHit (frame : Frame α) : Extends frame frame.countHit :=
  { refl frame with hits_le := Nat.le_succ _ }

lemma countMiss (frame : Frame α) : Extends frame frame.countMiss :=
  { refl frame with misses_le := Nat.le_succ _ }

lemma countTruncation (frame : Frame α) : Extends frame frame.countTruncation :=
  { refl frame with truncations_le := Nat.le_succ _ }

/-- A set is kept only where there was none of its fingerprint. -/
lemma keep {frame : Frame α} {set : LightSet α} (h : frame.cached? set.fingerprint = none) :
    Extends frame { frame with cache := set :: frame.cache } where
  __ := refl frame
  cache := List.suffix_cons set frame.cache
  cached fingerprint kept hkept := by
    have hne : set.fingerprint ≠ fingerprint := by
      rintro rfl
      cases h.symm.trans hkept
    rw [cached?, List.find?_cons, decide_eq_false hne]
    exact hkept

lemma answer {mode : Fingerprint.Mode} {indices : List Nat} {frame frame' : Frame α}
    {set : LightSet α} (h : (Frame.answer mode indices).Answers frame set frame') :
    Extends frame frame' := by
  obtain ⟨-, -, rfl⟩ | ⟨hnone, rfl, rfl⟩ | ⟨_, -, -, -, rfl⟩ := cases_of_answer h
  · exact countHit frame
  · exact (countMiss frame).trans (keep hnone)
  · exact countMiss frame

end Frame.Extends

/-! ### Managers -/

/-- The manager with the frame of the same lights, after some more requests. -/
structure Manager.Extends (m m' : Manager α) : Prop where
  settings_eq : m'.settings = m.settings
  isDecorated_eq : m'.isDecorated = m.isDecorated
  frame : m.frame.Extends m'.frame

namespace Manager.Extends

lemma refl (m : Manager α) : Extends m m :=
  ⟨rfl, rfl, .refl _⟩

lemma trans (a b c : Manager α) (hab : Extends a b) (hbc : Extends b c) : Extends a c :=
  ⟨hbc.settings_eq.trans hab.settings_eq, hbc.isDecorated_eq.trans hab.isDecorated_eq,
    hab.frame.trans hbc.frame⟩

lemma select (camera : Camera α) (bound : Sphere α) (modelView : Mat4 α) :
    Action.Keeps Extends (Manager.select camera bound modelView) := by
  intro m
  have hprepare : m.frame.Extends (m.prepare camera).frame := .prepare m.frame camera
  obtain ⟨-, -, hstate⟩ | ⟨-, frame, hframe, set, frame', hanswer, -, hstate⟩ :=
    select_cases camera bound modelView m
  · rw [hstate]
    exact ⟨rfl, rfl, hprepare⟩
  · have hbetween : m.frame.Extends frame := by
      rcases hframe with rfl | rfl
      · exact hprepare
      · exact hprepare.trans (.countTruncation _)
    rw [hstate]
    exact ⟨rfl, rfl, hbetween.trans (.answer hanswer)⟩

end Manager.Extends

/-! ### Scenes -/

namespace Scene

/-- What a scene is like after something was drawn of it, or was to be drawn. -/
structure Drawn (before after : Scene α) : Prop where
  nodes_eq : after.nodes = before.nodes
  root_eq : after.root = before.root
  isSome_eq : ∀ m, (after.managers.get? m).isSome = (before.managers.get? m).isSome
  managers : ∀ m manager manager', before.managers.get? m = some manager →
    after.managers.get? m = some manager' → manager.Extends manager'
  /-- A manager that no node is attached to is not touched. -/
  idle : ∀ m, (∀ key node, before.node? key = some node → node.selector ≠ some m) →
    after.managers.get? m = before.managers.get? m

/-- Whatever a camera is to draw, and whether it is drawn or not, only the managers are touched that
nodes are attached to, and they only get ahead in their frames. -/
theorem drawList_leaves (camera : Camera α) (scene : Scene α) :
    Drawn scene (drawList camera scene).state := by
  obtain ⟨managers, hstate, hevolve⟩ :=
    exists_drawList_state Manager.Extends.refl Manager.Extends.trans (.select camera) scene
  constructor
  case nodes_eq => rw [hstate]
  case root_eq => rw [hstate]
  case isSome_eq =>
    rw [hstate]
    exact hevolve.isSome_eq
  case managers =>
    intro m manager manager' hm hm'
    rw [hstate] at hm'
    obtain ⟨old, hold, hextends⟩ := hevolve.exists_before hm'
    obtain rfl : old = manager := by simpa [hm] using hold.symm
    exact hextends
  case idle =>
    intro m hidle
    obtain ⟨managers', hstate', hget⟩ := exists_drawList_state_of_keyed
      (Q := fun s t : Managers α => t.get? m = s.get? m) (P := fun key => m ≠ key)
      (fun _ => rfl) (fun _ _ _ hst htu => htu.trans hst)
      (fun _ hne _ _ _ _ _ => get?_onManagerKey hne _ _ _ _) scene
      (fun key node m' hnode hm' heq => hidle key node hnode (heq ▸ hm'))
    rw [hstate']
    exact hget

end Scene

end SceneLighting
