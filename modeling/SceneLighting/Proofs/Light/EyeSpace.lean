import SceneLighting.Proofs.Geometry.Stretch
import SceneLighting.Proofs.Manager.Coherence

/-!
# Lights as the camera sees them

A light is placed in two steps: in the world when a set is made, and before the camera when the set
is packed. Its position takes both steps. The axis of its cone takes the second alone, so it turns
with the camera, but not with the node of the light.
-/

namespace SceneLighting

/-! ### One light -/

namespace PackedLight

variable (view : Mat4 ℝ) (entry : Registered ℝ) (index slot : Nat)

/-- All but the axis is seen as through one matrix. -/
lemma ofLight_placed : ofLight view (entry.placed index slot).light =
    { ofLight (view * entry.world) entry.source.light with
      spotDirection := view.mapDirection entry.source.light.direction } := by
  simp [ofLight, Registered.placed, Mat4.mulVec_mul]

lemma ofLight_placed_of_world_eq_one {entry : Registered ℝ} (h : entry.world = 1) :
    ofLight view (entry.placed index slot).light = ofLight view entry.source.light := by
  simp [ofLight, Registered.placed, h, Mat4.one_mulVec]

end PackedLight

/-! ### Sets -/

/-- The record at a slot is that of the light that is registered at its place. -/
lemma LightSet.Current.packed_eq {set : LightSet ℝ} {mode : Fingerprint.Mode} {frame : Frame ℝ}
    (h : set.Current mode frame) {slot : Nat} {placed : PlacedLight ℝ}
    (hslot : set.slots[slot]? = some placed) {entry : Registered ℝ}
    (hentry : frame.lights[placed.index]? = some entry) (view : Mat4 ℝ) :
    (set.packed view)[slot]? =
      some (PackedLight.ofLight view (entry.placed placed.index slot).light) := by
  obtain ⟨entry', hentry', hplaced⟩ := h.placed slot placed hslot
  obtain rfl : entry = entry' := Option.some.inj (hentry.symm.trans hentry')
  rw [LightSet.packed, List.getElem?_map, hslot, Option.map_some, ← hplaced]

namespace Session

/-- Two managers are asked for sets with the same light in one slot, which one of them has placed in
the world. Packed for a camera, and for a camera that is as far off, the records are the same but
for the axis of the cone, which was not turned with the light. -/
theorem packed_placed {settings settings' : Settings} {uses uses' : List (Step ℝ)}
    {indices indices' : List Nat} {set set' : LightSet ℝ} {m m' : Manager ℝ}
    (hset : (Manager.request indices).Answers (after settings uses).manager set m)
    (hset' : (Manager.request indices').Answers (after settings' uses').manager set' m')
    {slot : Nat} {placed placed' : PlacedLight ℝ} (hslot : set.slots[slot]? = some placed)
    (hslot' : set'.slots[slot]? = some placed') {entry entry' : Registered ℝ}
    (hentry : m.frame.lights[placed.index]? = some entry)
    (hentry' : m'.frame.lights[placed'.index]? = some entry')
    (hlight : entry'.source.light = entry.source.light) (haffine : entry.world.IsAffine)
    (hone : entry'.world = 1) (view : Mat4 ℝ) :
    ∃ record record', (set.packed view)[slot]? = some record ∧
      (set'.packed (view * entry.world))[slot]? = some record' ∧
      record = { record' with
        spotDirection := view.mapDirection entry.source.light.direction } ∧
      record'.spotDirection =
        view.mapDirection (entry.world.mapDirection entry.source.light.direction) ∧
      (record = record' ↔
        view.mapDirection (entry.world.mapDirection entry.source.light.direction) =
          view.mapDirection entry.source.light.direction) := by
  have hmade : (after settings uses).manager.IsMade := ⟨settings, uses, rfl⟩
  have hmade' : (after settings' uses').manager.IsMade := ⟨settings', uses', rfl⟩
  have hpacked := (hmade.current_of_request hset).packed_eq hslot hentry view
  have hpacked' := (hmade'.current_of_request hset').packed_eq hslot' hentry' (view * entry.world)
  rw [PackedLight.ofLight_placed] at hpacked
  rw [PackedLight.ofLight_placed_of_world_eq_one _ _ _ hone, hlight] at hpacked'
  have hdirection : (PackedLight.ofLight (view * entry.world) entry.source.light).spotDirection =
      view.mapDirection (entry.world.mapDirection entry.source.light.direction) :=
    Mat4.mapDirection_mul haffine _
  refine ⟨_, _, hpacked, hpacked', rfl, hdirection, ?_⟩
  rw [← hdirection]
  constructor
  · intro h
    exact (congrArg PackedLight.spotDirection h).symm
  · intro h
    rw [← h]

/-! ### One light alone -/

def alone (source : LightSource ℝ) (world : Mat4 ℝ) : List (Step ℝ) :=
  [.register ⟨2, 1⟩ source world]

/-- The light as it is registered. -/
noncomputable def loneLight (source : LightSource ℝ) (world : Mat4 ℝ) : Registered ℝ :=
  ⟨⟨2, 1⟩, source, world, .invalid⟩

noncomputable def loneSet (source : LightSource ℝ) (world : Mat4 ℝ) : LightSet ℝ :=
  ⟨⟨0, 0⟩, .ofIndices .ordered [0], [(loneLight source world).placed 0 0]⟩

section Alone

variable (source : LightSource ℝ) (world : Mat4 ℝ)

lemma answers_alone :
    (Manager.request [0]).Answers (after .standard (alone source world)).manager
      (loneSet source world)
      (Manager.request [0] (after .standard (alone source world)).manager).state :=
  ⟨rfl, rfl⟩

lemma lights_alone :
    (Manager.request [0] (after .standard (alone source world)).manager).state.frame.lights[0]? =
      some (loneLight source world) :=
  rfl

lemma slots_loneSet :
    (loneSet source world).slots[0]? = some ((loneLight source world).placed 0 0) :=
  rfl

end Alone

/-- A light that shines along the first axis from the origin. -/
noncomputable def beam : LightSource ℝ :=
  ⟨(Light.point 0).withSpot ⟨1, 0, 0⟩ 45 0, 1⟩

lemma mapDirection_turn_beam :
    (Mat4.turn 0 1).mapDirection beam.light.direction = ⟨0, 1, 0⟩ := by
  simp [Mat4.turn, Mat4.mapDirection, beam, Light.withSpot]

/-- The node of the light has made a quarter turn, but its cone still has the axis it had. -/
theorem packed_placed_beam : ∃ set set' m m' record record',
    (Manager.request [0]).Answers (after .standard (alone beam (Mat4.turn 0 1))).manager set m ∧
      (Manager.request [0]).Answers (after .standard (alone beam 1)).manager set' m' ∧
      (set.packed 1)[0]? = some record ∧
      (set'.packed (1 * Mat4.turn 0 1))[0]? = some record' ∧
      record = { record' with spotDirection := ⟨1, 0, 0⟩ } ∧
      record'.spotDirection = ⟨0, 1, 0⟩ := by
  have haffine : (Mat4.turn 0 1).IsAffine := (Mat4.isSimilarity_turn (by norm_num)).toIsAffine
  obtain ⟨record, record', hrecord, hrecord', hsame, hturned, -⟩ :=
    packed_placed (answers_alone beam (Mat4.turn 0 1)) (answers_alone beam 1)
      (slots_loneSet _ _) (slots_loneSet _ _) (lights_alone _ _) (lights_alone _ _) rfl haffine
      rfl 1
  rw [Mat4.mapDirection_one] at hturned hsame
  exact ⟨_, _, _, _, record, record', answers_alone _ _, answers_alone _ _, hrecord, hrecord',
    hsame, hturned.trans mapDirection_turn_beam⟩

/-- The records are not those of a light that is placed by the two matrices together. -/
theorem not_always_packed_eq :
    ¬∀ (source : LightSource ℝ) (world view : Mat4 ℝ), world.IsAffine →
      ∀ set set' m m',
        (Manager.request [0]).Answers (after .standard (alone source world)).manager set m →
        (Manager.request [0]).Answers (after .standard (alone source 1)).manager set' m' →
        set.packed view = set'.packed (view * world) := by
  intro h
  have haffine : (Mat4.turn 0 1).IsAffine := (Mat4.isSimilarity_turn (by norm_num)).toIsAffine
  have heq := h beam (Mat4.turn 0 1) 1 haffine _ _ _ _ (answers_alone _ _) (answers_alone _ _)
  have hdirection := congrArg (List.map PackedLight.spotDirection) heq
  simp only [LightSet.packed, loneSet, loneLight, List.map_cons, List.map_nil, PackedLight.ofLight,
    Registered.placed, Mat4.mapDirection_mul haffine, mapDirection_turn_beam,
    Mat4.mapDirection_one] at hdirection
  simp [beam, Light.withSpot] at hdirection

end Session

end SceneLighting
