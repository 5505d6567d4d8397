import SceneLighting.Proofs.Manager.Cache
import SceneLighting.Proofs.Manager.Selection

/-!
# Sets agree with the registry

Sets are kept for a frame, and the registry grows while they are kept. It only grows at its end, so
what a set holds stays as it is registered until the frame is over, and all sets go with the frame.
-/

namespace SceneLighting

variable {α : Type} [Scalar α]

/-! ### Frames that grow -/

/-- The frame is the same one, and its lights are still where they were. -/
structure Frame.Grows (frame frame' : Frame α) : Prop where
  number_eq : frame'.number = frame.number
  lights : ∀ (index : Nat) (entry : Registered α), frame.lights[index]? = some entry →
    ∃ entry', frame'.lights[index]? = some entry' ∧ entry'.unseen = entry.unseen

namespace Frame.Grows

variable {frame frame' : Frame α}

lemma of_sameLights (hnumber : frame'.number = frame.number)
    (h : SameLights frame.lights frame'.lights) : Grows frame frame' where
  number_eq := hnumber
  lights index entry hentry := by
    have hmap := h.map_eq (f := Registered.unseen) (fun _ => rfl) index
    rw [hentry, Option.map_some] at hmap
    exact Option.map_eq_some_iff.1 hmap.symm

lemma of_lights_eq (hnumber : frame'.number = frame.number)
    (h : frame'.lights = frame.lights) : Grows frame frame' :=
  of_sameLights hnumber (by rw [h]; rfl)

lemma register (frame : Frame α) (node : NodeKey) (source : LightSource α) (world : Mat4 α) :
    Grows frame (frame.register node source world) where
  number_eq := rfl
  lights index entry hentry := by
    have hlt := (Array.getElem?_eq_some_iff.1 hentry).1
    refine ⟨entry, ?_, rfl⟩
    rw [Frame.register, Array.getElem?_push_lt hlt, ← Array.getElem?_eq_getElem hlt, hentry]

lemma prepare (frame : Frame α) (camera : Camera α) : Grows frame (frame.prepare camera) :=
  of_sameLights (frame.number_prepare camera) (frame.sameLights_prepare camera)

end Frame.Grows

/-! ### Sets -/

/-- A set of this frame that holds lights as they are registered, under the fingerprint of their
places. -/
structure LightSet.Current (set : LightSet α) (mode : Fingerprint.Mode) (frame : Frame α) :
    Prop where
  frame_eq : set.stamp.frame = frame.number
  fingerprint_eq : set.fingerprint = .ofIndices mode set.indices
  placed : ∀ (j : Nat) (placed : PlacedLight α), set.slots[j]? = some placed →
    ∃ entry, frame.lights[placed.index]? = some entry ∧ placed = entry.placed placed.index j

namespace LightSet.Current

variable {mode : Fingerprint.Mode} {frame frame' : Frame α}

lemma grows {set : LightSet α} (h : set.Current mode frame) (hgrows : frame.Grows frame') :
    set.Current mode frame' where
  frame_eq := h.frame_eq.trans hgrows.number_eq.symm
  fingerprint_eq := h.fingerprint_eq
  placed j placed hj := by
    obtain ⟨entry, hentry, hplaced⟩ := h.placed j placed hj
    obtain ⟨entry', hentry', hunseen⟩ := hgrows.lights _ _ hentry
    refine ⟨entry', hentry', ?_⟩
    -- what a set holds does not depend on how lights are seen
    calc placed = entry.unseen.placed placed.index j := hplaced
      _ = entry'.unseen.placed placed.index j := by rw [hunseen]

lemma build (frame : Frame α) (mode : Fingerprint.Mode) {indices : List Nat}
    (hlt : ∀ index ∈ indices, index < frame.lights.size) :
    (frame.build (.ofIndices mode indices) indices).Current mode frame where
  frame_eq := rfl
  fingerprint_eq := by
    rw [frame.indices_build _ hlt]
    rfl
  placed j placed hj := by
    rw [frame.holds_build _ hlt j, Option.bind_eq_some_iff] at hj
    obtain ⟨index, -, hplaced⟩ := hj
    obtain ⟨entry, hentry, rfl⟩ := Option.map_eq_some_iff.1 hplaced
    exact ⟨entry, hentry, rfl⟩

end LightSet.Current

/-- The sets that requests are answered from are of this frame. -/
def Frame.Coherent (mode : Fingerprint.Mode) (frame : Frame α) : Prop :=
  ∀ set ∈ frame.cache, set.Current mode frame

namespace Frame.Coherent

variable {mode : Fingerprint.Mode} {frame frame' : Frame α}

lemma grows (h : frame.Coherent mode) (hgrows : frame.Grows frame')
    (hcache : frame'.cache = frame.cache) : frame'.Coherent mode := by
  intro set hset
  rw [hcache] at hset
  exact (h set hset).grows hgrows

lemma prepare (h : frame.Coherent mode) (camera : Camera α) :
    (frame.prepare camera).Coherent mode :=
  h.grows (.prepare frame camera) (frame.cache_prepare camera)

lemma counted (h : frame.Coherent mode)
    (hframe : frame' = frame ∨ frame' = frame.countTruncation) :
    frame.Grows frame' ∧ frame'.Coherent mode := by
  have hgrows : frame.Grows frame' := by
    rcases hframe with rfl | rfl <;> exact .of_lights_eq rfl rfl
  refine ⟨hgrows, h.grows hgrows ?_⟩
  rcases hframe with rfl | rfl <;> rfl

/-- The answer to a request for registered lights is a set of this frame, which stays as it is but
for the sets that it keeps. -/
theorem answer (h : frame.Coherent mode) {indices : List Nat}
    (hlt : ∀ index ∈ indices, index < frame.lights.size) {set : LightSet α}
    (hset : (Frame.answer mode indices).Answers frame set frame') :
    set.Current mode frame' ∧ frame.Grows frame' ∧ frame'.Coherent mode := by
  obtain ⟨hlights, hnumber, -⟩ := eq_of_answer hset
  have hgrows : frame.Grows frame' := .of_lights_eq hnumber hlights
  have hbuilt := LightSet.Current.build frame mode hlt
  obtain ⟨hkept, -, rfl⟩ | ⟨-, rfl, rfl⟩ | ⟨_, -, -, rfl, rfl⟩ := cases_of_answer hset
  · have hmem : set ∈ frame.cache := List.mem_of_find?_eq_some hkept
    exact ⟨(h set hmem).grows hgrows, hgrows, h.grows hgrows rfl⟩
  · refine ⟨hbuilt.grows hgrows, hgrows, fun kept hmem => ?_⟩
    rcases List.mem_cons.1 hmem with rfl | hmem
    · exact hbuilt.grows hgrows
    · exact (h kept hmem).grows hgrows
  · exact ⟨hbuilt.grows hgrows, hgrows, h.grows hgrows rfl⟩

end Frame.Coherent

/-! ### Sessions -/

namespace Session

/-- All sets of a session are of its frame, and were asked for within the cap. -/
structure Coherent (settings : Settings) (s : Session α) : Prop where
  kept : s.manager.frame.Coherent settings.mode
  answered : ∀ a ∈ s.answered, a.set.Current settings.mode s.manager.frame
  within : ∀ a ∈ s.answered, a.indices.length ≤ settings.cap

variable {settings : Settings} {s : Session α}

namespace Coherent

lemma grows (h : s.Coherent settings) {frame : Frame α} (hgrows : s.manager.frame.Grows frame)
    (hkept : frame.Coherent settings.mode) :
    Coherent settings ⟨{ s.manager with frame }, s.answered⟩ where
  kept := hkept
  answered a ha := (h.answered a ha).grows hgrows
  within := h.within

/-- One more request. -/
lemma concat (h : s.Coherent settings) {frame : Frame α} (hgrows : s.manager.frame.Grows frame)
    (hkept : frame.Coherent settings.mode) {a : Answered α}
    (hset : a.set.Current settings.mode frame) (hwithin : a.indices.length ≤ settings.cap) :
    Coherent settings ⟨{ s.manager with frame }, s.answered ++ [a]⟩ where
  kept := hkept
  answered b hb := by
    rcases List.mem_append.1 hb with hb | hb
    · exact (h.answered b hb).grows hgrows
    · rwa [List.mem_singleton.1 hb]
  within b hb := by
    rcases List.mem_append.1 hb with hb | hb
    · exact h.within b hb
    · rwa [List.mem_singleton.1 hb]

lemma request (h : s.Coherent settings) (hs : s.manager.settings = settings)
    (indices : List Nat) : (s.step (.request indices)).Coherent settings := by
  obtain hstep | ⟨set, frame, hcap, hlt, hanswer, hstep⟩ := s.request_cases indices
  · rwa [hstep]
  · obtain ⟨hset, hgrows, hkept⟩ := h.kept.answer hlt (hs ▸ hanswer)
    rw [hstep]
    exact h.concat hgrows hkept hset (hs ▸ hcap)

lemma prepare (h : s.Coherent settings) (camera : Camera α) :
    (s.step (.prepare camera)).Coherent settings :=
  h.grows (.prepare _ camera) (h.kept.prepare camera)

lemma select (h : s.Coherent settings) (hs : s.manager.settings = settings) (camera : Camera α)
    (bound : Sphere α) (modelView : Mat4 α) :
    (s.step (.select camera bound modelView)).Coherent settings := by
  have hprepare := h.prepare camera
  obtain hstep | ⟨frame, set, frame', hframe, hcap, hlt, hanswer, hstep⟩ :=
    s.select_cases camera bound modelView
  · rwa [hstep]
  · obtain ⟨hgrows, hcoherent⟩ := hprepare.kept.counted hframe
    obtain ⟨hset, hgrows', hkept⟩ := hcoherent.answer hlt (hs ▸ hanswer)
    rw [hstep]
    exact (hprepare.grows hgrows hcoherent).concat hgrows' hkept hset (hs ▸ hcap)

lemma step (h : s.Coherent settings) (hs : s.manager.settings = settings) (step : Step α) :
    (s.step step).Coherent settings := by
  cases step with
  | beginFrame => exact ⟨nofun, nofun, nofun⟩
  | decorate => exact ⟨h.kept, h.answered, h.within⟩
  | register node source world =>
    have hgrows : s.manager.frame.Grows (s.manager.frame.register node source world) :=
      .register _ node source world
    exact h.grows hgrows (h.kept.grows hgrows rfl)
  | prepare camera => exact h.prepare camera
  | request indices => exact h.request hs indices
  | select camera bound modelView => exact h.select hs camera bound modelView

end Coherent

/-- Every run is coherent. -/
theorem coherent_after (settings : Settings) (run : List (Step α)) :
    (after settings run).Coherent settings := by
  induction run using List.reverseRecOn with
  | nil => exact ⟨nofun, nofun, nofun⟩
  | append_singleton run step ih =>
    rw [after_concat]
    exact ih.step (sound_after settings run).settings_eq step

end Session

/-! ### Managers that were made -/

namespace Manager

variable {m m' : Manager α}

/-- A manager is a new one after some uses. -/
def IsMade (m : Manager α) : Prop :=
  ∃ settings uses, (Session.after settings uses).manager = m

lemma IsMade.coherent (h : m.IsMade) : m.frame.Coherent m.settings.mode := by
  obtain ⟨settings, uses, rfl⟩ := h
  rw [(Session.sound_after settings uses).settings_eq]
  exact (Session.coherent_after settings uses).kept

/-- A request is answered with a set of lights as they are registered. -/
lemma IsMade.current_of_request (h : m.IsMade) {indices : List Nat} {set : LightSet α}
    (hset : (request indices).Answers m set m') : set.Current m.settings.mode m'.frame := by
  obtain ⟨part, fault, hf⟩ | ⟨-, hlt, ho⟩ := request_cases indices m
  · rw [Action.Answers, hf] at hset
    cases hset.1
  · rw [Action.Answers, ho] at hset
    obtain ⟨frame, hanswer, rfl⟩ := Action.answers_on.1 hset
    exact (h.coherent.answer hlt hanswer).1

end Manager

/-! ### Answers -/

/-- The set that a request was answered with is what was asked for, as it is registered now. -/
structure Answered.Current (a : Answered α) (settings : Settings) (frame : Frame α) : Prop where
  /-- The set was made in this frame. -/
  frame_eq : a.set.stamp.frame = frame.number
  length_eq : a.set.slots.length = a.indices.length
  length_le : a.set.slots.length ≤ settings.cap
  same : settings.mode.Same a.set.indices a.indices
  fingerprint_eq : a.set.fingerprint = .ofIndices settings.mode a.indices
  /-- Slots are numbered, and hold lights as they are registered, each placed in the world. -/
  slots : ∀ (slot : Nat) (placed : PlacedLight α), a.set.slots[slot]? = some placed →
    ∃ entry : Registered α, frame.lights[placed.index]? = some entry ∧
      placed =
        { slot := slot
          index := placed.index
          source := entry.node
          light :=
            { entry.source.light with
              number := slot
              position := entry.world.mulVec entry.source.light.position } }

lemma Settings.cap_le_of_check {settings : Settings} (h : settings.check = .ok ()) :
    settings.cap ≤ 8 := by
  rw [check] at h
  split at h
  next => cases h
  next hcap => exact Nat.not_lt.1 fun hlt => hcap (Or.inr hlt)

namespace Session

variable {settings : Settings}

lemma current_of_mem_answered {run : List (Step α)} {a : Answered α}
    (ha : a ∈ (after settings run).answered) :
    a.Current settings (after settings run).manager.frame := by
  have hcoherent := coherent_after settings run
  have hset := hcoherent.answered a ha
  have hsame := (sound_after settings run).records.same a ha
  have hlength : a.set.slots.length = a.indices.length := by
    rw [← hsame.length_eq, LightSet.indices, List.length_map]
  constructor
  case frame_eq => exact hset.frame_eq
  case length_eq => exact hlength
  case length_le =>
    rw [hlength]
    exact hcoherent.within a ha
  case same => exact hsame
  case fingerprint_eq => rw [hset.fingerprint_eq, hsame.ofIndices_eq]
  case slots => exact hset.placed

/-- With settings that are accepted, the requests of a frame, also those made by selections, were
answered with sets made in the frame that hold what was asked for, as it is registered now. So are
the next ones. -/
theorem answered_current (hsettings : settings.check = .ok ()) (run : List (Step α)) :
    settings.cap ≤ 8 ∧
    (∀ a ∈ (after settings run).answered,
      a.Current settings (after settings run).manager.frame) ∧
    ∀ indices set m, (Manager.request indices).Answers (after settings run).manager set m →
      Answered.Current ⟨indices, set⟩ settings m.frame := by
  refine ⟨Settings.cap_le_of_check hsettings, fun _ => current_of_mem_answered, ?_⟩
  rintro indices set m ⟨hset, rfl⟩
  have hnext : after settings (run ++ [.request indices]) =
      ⟨(Manager.request indices (after settings run).manager).state,
        (after settings run).answered ++ [⟨indices, set⟩]⟩ := by
    simp only [after_concat, step, hset]
  have hcurrent : Answered.Current ⟨indices, set⟩ settings
      (after settings (run ++ [.request indices])).manager.frame := by
    apply current_of_mem_answered
    rw [hnext]
    exact List.mem_append_right _ (List.mem_singleton_self _)
  rwa [hnext] at hcurrent

/-- A set is asked for again after a light was registered, and then lights of the same
fingerprint. -/
def growing : List (Step Float32) :=
  .beginFrame :: List.replicate 25 (.register ⟨2, 1⟩ .standard 1) ++
    [.request [6, 24], .register ⟨3, 1⟩ .standard 1, .prepare .identity, .request [6, 24],
      .request [8, 21]]

theorem answered_current_growing :
    ((after .standard growing).answered.map fun a => (a.indices, a.set.stamp)) =
      [([6, 24], ⟨1, 0⟩), ([6, 24], ⟨1, 0⟩), ([8, 21], ⟨1, 1⟩)] ∧
    Settings.standard.cap ≤ 8 ∧
    (∀ a ∈ (after .standard growing).answered,
      a.Current .standard (after .standard growing).manager.frame) ∧
    ∀ indices set m,
      (Manager.request indices).Answers (after .standard growing).manager set m →
      Answered.Current ⟨indices, set⟩ .standard m.frame :=
  ⟨by decide +kernel, answered_current (by decide) growing⟩

end Session

end SceneLighting
