import SceneLighting.Proofs.Manager.Frame
import Mathlib.Data.Option.Basic

/-!
# What a selection chooses

A selection reads bounds that were computed for some camera before, and may be answered with a set
made for another camera or another part of the scene. In a frame that only selections change, the
bounds are those for the view that the frame is prepared for, and a set holds the lights that it was
made for as they are registered. So a selection chooses the first lights that reach the bound.
-/

namespace SceneLighting

variable {α : Type} [Scalar α]

/-- The registry places of the lights that reach `bound`, both as a camera sees them. -/
def reaching (lights : Array (Registered α)) (camera : Camera α) (bound : Sphere α) : List Nat :=
  (List.range lights.size).filter fun index => lights[index]?.any fun entry =>
    (Sphere.map (camera.view * entry.world) ⟨0, entry.source.radius⟩).Touches bound

lemma reaching_eq_nil_iff {lights : Array (Registered α)} {camera : Camera α} {bound : Sphere α} :
    reaching lights camera bound = [] ↔ ∀ (index : Nat) (entry : Registered α),
      lights[index]? = some entry →
        ¬(Sphere.map (camera.view * entry.world) ⟨0, entry.source.radius⟩).Touches bound := by
  rw [reaching, List.filter_eq_nil_iff]
  constructor
  · intro h index entry hentry
    have := h index (List.mem_range.2 (Array.getElem?_eq_some_iff.1 hentry).1)
    simpa [hentry] using this
  · intro h index _
    cases hentry : lights[index]? with
    | none => simp
    | some entry => simpa using h index entry hentry

lemma lt_size_of_mem_reaching {lights : Array (Registered α)} {camera : Camera α}
    {bound : Sphere α} {index : Nat} (h : index ∈ reaching lights camera bound) :
    index < lights.size :=
  List.mem_range.1 (List.mem_filter.1 h).1

/-! ### Lights without their bounds -/

/-- The light as it was registered. -/
def Registered.unseen (entry : Registered α) : Registered α :=
  { entry with bound := .invalid }

/-- The same lights are registered, however they are seen. -/
def SameLights (lights lights' : Array (Registered α)) : Prop :=
  lights.map Registered.unseen = lights'.map Registered.unseen

namespace SameLights

variable {lights lights' : Array (Registered α)}

lemma size_eq (h : SameLights lights lights') : lights.size = lights'.size := by
  have := congrArg Array.size h
  simpa using this

/-- What is computed without the bounds is the same. -/
lemma map_eq (h : SameLights lights lights') {β : Type} {f : Registered α → β}
    (hf : ∀ entry, f entry = f entry.unseen) (index : Nat) :
    lights[index]?.map f = lights'[index]?.map f := by
  have hunseen : lights[index]?.map Registered.unseen = lights'[index]?.map Registered.unseen := by
    rw [← Array.getElem?_map, ← Array.getElem?_map, h]
  have hmap := congrArg (Option.map f) hunseen
  simp only [Option.map_map] at hmap
  have hcomp : f ∘ Registered.unseen = f := funext fun entry => (hf entry).symm
  rwa [hcomp] at hmap

lemma holds_iff (h : SameLights lights lights') {set : LightSet α} {indices : List Nat} :
    set.Holds lights indices ↔ set.Holds lights' indices := by
  have hplaced : ∀ index j : Nat, (lights[index]?.map fun entry => entry.placed index j) =
      lights'[index]?.map fun entry => entry.placed index j := fun index j =>
    h.map_eq (fun _ => rfl) index
  simp only [LightSet.Holds, hplaced]

lemma reaching_eq (h : SameLights lights lights') (camera : Camera α) (bound : Sphere α) :
    reaching lights camera bound = reaching lights' camera bound := by
  let touches (entry : Registered α) : Bool :=
    (Sphere.map (camera.view * entry.world) ⟨0, entry.source.radius⟩).Touches bound
  have htouches : ∀ index : Nat, lights[index]?.any touches = lights'[index]?.any touches := by
    intro index
    have hmap := h.map_eq (f := touches) (fun _ => rfl) index
    cases hl : lights[index]? <;> cases hl' : lights'[index]? <;> simp_all
  rw [reaching, reaching, h.size_eq]
  exact List.filter_congr fun index _ => htouches index

end SameLights

/-! ### Sound frames -/

/-- What the cache holds is as it is registered, and bounds are those for the prepared view. -/
structure Frame.Sound (frame : Frame α) : Prop where
  kept : ∀ set ∈ frame.cache, ∃ indices, indices.Pairwise (· < ·) ∧
    (∀ index ∈ indices, index < frame.lights.size) ∧ set.Holds frame.lights indices
  prepared : ∀ view, frame.preparedView = some view → ∀ entry ∈ frame.lights,
    entry.bound = Sphere.map (view * entry.world) ⟨0, entry.source.radius⟩

/-- A frame that takes a camera to be the one it is prepared for is prepared for its view. Equal
numbers can be different, as zeros of different sign are. -/
def Frame.Recognizes (frame : Frame α) (camera : Camera α) : Prop :=
  ∀ view, frame.preparedView = some view → view == camera.view → view = camera.view

namespace Frame

variable {frame : Frame α} {camera : Camera α}

/-- A frame that no selection was made in is sound. -/
lemma sound_of_unused (hcache : frame.cache = []) (hview : frame.preparedView = none) :
    frame.Sound where
  kept := by simp [hcache]
  prepared := by simp [hview]

lemma sameLights_prepare (frame : Frame α) (camera : Camera α) :
    SameLights frame.lights (frame.prepare camera).lights := by
  rw [prepare]
  split
  · rfl
  · rw [SameLights, Array.map_map]
    rfl

lemma preparedView_prepare (frame : Frame α) (camera : Camera α) :
    (frame.prepare camera).preparedView = frame.preparedView ∨
      (frame.prepare camera).preparedView = some camera.view := by
  rw [prepare]
  split
  · exact Or.inl rfl
  · exact Or.inr rfl

lemma Sound.prepare (h : frame.Sound) (camera : Camera α) : (frame.prepare camera).Sound where
  kept := by
    have hsame := frame.sameLights_prepare camera
    intro set hset
    rw [cache_prepare] at hset
    obtain ⟨indices, hsorted, hlt, hholds⟩ := h.kept set hset
    exact ⟨indices, hsorted, hsame.size_eq ▸ hlt, hsame.holds_iff.1 hholds⟩
  prepared := by
    rw [Frame.prepare]
    split
    · exact h.prepared
    · intro view hview entry hentry
      obtain rfl := Option.some.inj hview
      obtain ⟨entry, -, rfl⟩ := Array.mem_map.1 hentry
      rfl

/-- When a camera was prepared for, lights are seen as it sees them. -/
lemma Sound.bound_prepare (h : frame.Sound) (hcamera : frame.Recognizes camera) :
    ∀ entry ∈ (frame.prepare camera).lights,
      entry.bound = Sphere.map (camera.view * entry.world) ⟨0, entry.source.radius⟩ := by
  intro entry hentry
  have hview : (frame.prepare camera).preparedView = some camera.view := by
    rw [Frame.prepare]
    split
    next hprepared =>
      cases hp : frame.preparedView with
      | none => simp [isPreparedFor, hp] at hprepared
      | some view =>
        rw [isPreparedFor, hp] at hprepared
        rw [hcamera view hp hprepared]
    next => rfl
  exact (h.prepare camera).prepared _ hview entry hentry

lemma Sound.touching_prepare (h : frame.Sound) (hcamera : frame.Recognizes camera)
    (bound : Sphere α) :
    touching (frame.prepare camera).lights bound = reaching frame.lights camera bound := by
  rw [(frame.sameLights_prepare camera).reaching_eq, touching_eq, reaching]
  apply List.filter_congr
  intro index _
  cases hentry : (frame.prepare camera).lights[index]? with
  | none => rfl
  | some entry =>
    rw [Option.any_some, Option.any_some,
      h.bound_prepare hcamera entry (Array.mem_of_getElem? hentry)]

lemma Sound.congr {frame' : Frame α} (h : frame.Sound) (hlights : frame'.lights = frame.lights)
    (hcache : frame'.cache = frame.cache) (hview : frame'.preparedView = frame.preparedView) :
    frame'.Sound where
  kept := by
    rw [hcache, hlights]
    exact h.kept
  prepared := by
    rw [hview, hlights]
    exact h.prepared

/-- A kept set that serves an increasing list holds the lights of that list. -/
lemma Sound.holds_of_same (h : frame.Sound) {set : LightSet α} (hset : set ∈ frame.cache)
    {mode : Fingerprint.Mode} {indices : List Nat} (hsorted : indices.Pairwise (· < ·))
    (hsame : mode.Same set.indices indices) : set.Holds frame.lights indices := by
  obtain ⟨kept, hkept, hlt, hholds⟩ := h.kept set hset
  rw [hholds.indices_eq hlt] at hsame
  have heq : kept = indices := by
    cases mode with
    | ordered => exact hsame
    | sorted =>
      refine List.Perm.eq_of_pairwise (fun a b _ _ hab hba => ?_) hkept hsorted hsame
      exact absurd hab (Nat.lt_asymm hba)
  exact heq ▸ hholds

/-- An answer changes the cache and the counts alone. -/
lemma eq_of_answer {mode : Fingerprint.Mode} {indices : List Nat} {set : LightSet α}
    {frame' : Frame α} (hset : (Frame.answer mode indices).Answers frame set frame') :
    frame'.lights = frame.lights ∧ frame'.number = frame.number ∧
      frame'.preparedView = frame.preparedView := by
  obtain ⟨-, -, rfl⟩ | ⟨-, -, rfl⟩ | ⟨_, -, -, -, rfl⟩ := cases_of_answer hset
  all_goals exact ⟨rfl, rfl, rfl⟩

/-- The answer to a request for an increasing list holds the lights of the list, and the frame stays
sound. -/
theorem Sound.answer (h : frame.Sound) {mode : Fingerprint.Mode} {indices : List Nat}
    (hsorted : indices.Pairwise (· < ·)) (hlt : ∀ index ∈ indices, index < frame.lights.size)
    {set : LightSet α} {frame' : Frame α}
    (hset : (Frame.answer mode indices).Answers frame set frame') :
    set.Holds frame.lights indices ∧ frame'.Sound := by
  have hbuilt : (frame.build (.ofIndices mode indices) indices).Holds frame.lights indices :=
    frame.holds_build _ hlt
  obtain ⟨hkept, hsame, rfl⟩ | ⟨-, rfl, rfl⟩ | ⟨_, -, -, rfl, rfl⟩ := cases_of_answer hset
  · have hmem : set ∈ frame.cache := List.mem_of_find?_eq_some hkept
    exact ⟨h.holds_of_same hmem hsorted hsame, h.congr rfl rfl rfl⟩
  · refine ⟨hbuilt, ⟨fun set hmem => ?_, h.prepared⟩⟩
    rcases List.mem_cons.1 hmem with rfl | hmem
    · exact ⟨indices, hsorted, hlt, hbuilt⟩
    · exact h.kept set hmem
  · exact ⟨hbuilt, h.congr rfl rfl rfl⟩

end Frame

/-! ### Selections -/

namespace Manager

/-- What a selection for a camera leaves as it was. -/
structure Selects (camera : Camera α) (m m' : Manager α) : Prop where
  settings_eq : m'.settings = m.settings
  number_eq : m'.frame.number = m.frame.number
  lights : SameLights m.frame.lights m'.frame.lights
  sound : m.frame.Sound → m'.frame.Sound
  preparedView : m'.frame.preparedView = m.frame.preparedView ∨
    m'.frame.preparedView = some camera.view

namespace Selects

variable {camera : Camera α}

lemma refl (m : Manager α) : Selects camera m m :=
  ⟨rfl, rfl, rfl, id, Or.inl rfl⟩

lemma trans (a b c : Manager α) (hab : Selects camera a b) (hbc : Selects camera b c) :
    Selects camera a c where
  settings_eq := hbc.settings_eq.trans hab.settings_eq
  number_eq := hbc.number_eq.trans hab.number_eq
  lights := Eq.trans hab.lights hbc.lights
  sound := hbc.sound ∘ hab.sound
  preparedView := by
    rcases hbc.preparedView with h | h
    · rw [h]
      exact hab.preparedView
    · exact Or.inr h

lemma recognizes {m m' : Manager α} (h : Selects camera m m')
    (hm : m.frame.Recognizes camera) : m'.frame.Recognizes camera := by
  intro view hview heq
  rcases h.preparedView with hp | hp
  · exact hm view (hp.symm.trans hview) heq
  · rw [hp] at hview
    exact (Option.some.inj hview).symm

end Selects

/-- What a selection wants is in increasing order. -/
lemma pairwise_wanted (m : Manager α) (camera : Camera α) (bound : Sphere α)
    (modelView : Mat4 α) : (m.wanted camera bound modelView).Pairwise (· < ·) := by
  rw [wanted, touching_eq]
  exact (List.pairwise_lt_range.filter _).sublist (List.take_sublist _ _)

variable (camera : Camera α) (bound : Sphere α) (modelView : Mat4 α)

lemma selects_prepare (m : Manager α) : Selects camera m (m.prepare camera) where
  settings_eq := rfl
  number_eq := m.frame.number_prepare camera
  lights := m.frame.sameLights_prepare camera
  sound h := h.prepare camera
  preparedView := m.frame.preparedView_prepare camera

lemma selects_answer {m : Manager α} {frame : Frame α}
    (hframe : frame = (m.prepare camera).frame ∨
      frame = (m.prepare camera).frame.countTruncation)
    {set : LightSet α} {frame' : Frame α}
    (hset : (Frame.answer m.settings.mode (m.wanted camera bound modelView)).Answers
      frame set frame') :
    Selects camera m { m with frame := frame' } ∧
      (m.frame.Sound → set.Holds m.frame.lights (m.wanted camera bound modelView)) := by
  have hprepare := selects_prepare camera m
  obtain ⟨hlights, hnumber, hview⟩ := Frame.eq_of_answer hset
  have hlights₀ := Frame.lights_of_counted hframe
  have hsound : m.frame.Sound → set.Holds frame.lights (m.wanted camera bound modelView) ∧
      frame'.Sound := by
    intro h
    have hframe : frame.Sound := by
      rcases hframe with rfl | rfl
      · exact hprepare.sound h
      · exact (hprepare.sound h).congr rfl rfl rfl
    refine hframe.answer (pairwise_wanted m camera bound modelView) (fun index hi => ?_) hset
    rw [hlights₀]
    exact lt_size_of_mem_wanted camera bound modelView hi
  constructor
  · constructor
    case settings_eq => rfl
    case number_eq =>
      rw [hnumber, ← hprepare.number_eq]
      rcases hframe with rfl | rfl <;> rfl
    case lights =>
      rw [hlights, hlights₀]
      exact hprepare.lights
    case sound => exact fun h => (hsound h).2
    case preparedView =>
      rw [hview]
      have := hprepare.preparedView
      rcases hframe with rfl | rfl <;> exact this
  · intro h
    have hholds := (hsound h).1
    rw [hlights₀] at hholds
    exact hprepare.lights.holds_iff.2 hholds

/-- Of a manager a selection changes the cache, the counts and how lights are seen. -/
theorem keeps_select : Action.Keeps (Selects camera) (select camera bound modelView) := by
  intro m
  obtain ⟨-, -, hstate⟩ | ⟨-, frame, hframe, set, frame', hset, -, hstate⟩ :=
    select_cases camera bound modelView m
  · rw [hstate]
    exact selects_prepare camera m
  · rw [hstate]
    exact (selects_answer camera bound modelView hframe hset).1

variable {camera bound modelView}

/-- A selection answers with none if no light reaches the bound, and else with the first that do. -/
theorem answer_of_select {m m' : Manager α} (h : m.frame.Sound)
    (hcamera : m.frame.Recognizes camera)
    {set? : Option (LightSet α)} (hset : (select camera bound modelView).Answers m set? m') :
    (set? = none ↔ reaching m.frame.lights camera (bound.map modelView) = []) ∧
      ∀ set, set? = some set → set.Holds m.frame.lights
        ((reaching m.frame.lights camera (bound.map modelView)).take m.settings.cap) := by
  have htouching : touching (m.prepare camera).frame.lights (bound.map modelView) =
      reaching m.frame.lights camera (bound.map modelView) := h.touching_prepare hcamera _
  rw [← htouching]
  obtain ⟨hnil, hselect⟩ | ⟨hne, frame, hframe, set, frame', hanswer, hselect⟩ :=
    select_cases camera bound modelView m
  · obtain rfl : none = set? := by simpa [hselect.1] using hset.1
    simp [hnil]
  · obtain rfl : some set = set? := by simpa [hselect.1] using hset.1
    refine ⟨by simp [hne], ?_⟩
    rintro _ ⟨⟩
    exact (selects_answer camera bound modelView hframe hanswer).2 h

end Manager

end SceneLighting
