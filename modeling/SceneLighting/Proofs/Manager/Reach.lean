import SceneLighting.Proofs.Geometry.Validity
import SceneLighting.Proofs.Manager.Candidates
import SceneLighting.Proofs.Manager.Coherence
import SceneLighting.Proofs.Manager.Preparation

/-!
# Lights that reach nothing

A light is only selected when its bound is valid, and no matrix makes the bound of a light valid
that reaches nothing. Other sets may hold such a light, and they may be in the cache; but a kept set
is only given to requests for its own lights. Where the bound of a node is not valid, no light is
selected.
-/

namespace SceneLighting

variable {α : Type} [Scalar α]

/-- The sphere that the light reaches is valid. -/
def LightSource.Reaches (source : LightSource α) : Prop :=
  (⟨0, source.radius⟩ : Sphere α).IsValid

/-- In single precision a light reaches nothing when its radius is negative or no number. -/
lemma LightSource.not_reaches_iff {source : LightSource Float32} :
    ¬source.Reaches ↔ source.radius < 0 ∨ source.radius.isNaN :=
  Sphere.not_isValid_iff

namespace Frame

variable {frame frame' : Frame α}

/-- Only lights that reach something have valid bounds. -/
def Grounded (frame : Frame α) : Prop :=
  ∀ entry ∈ frame.lights, entry.bound.IsValid → entry.source.Reaches

lemma grounded_blank (number : Nat) : (blank number : Frame α).Grounded :=
  fun _ h => absurd h (Array.not_mem_empty _)

lemma Grounded.congr (h : frame.Grounded) (hlights : frame'.lights = frame.lights) :
    frame'.Grounded := by
  rwa [Grounded, hlights]

lemma Grounded.register [Scalar.Signed α] (h : frame.Grounded) (node : NodeKey)
    (source : LightSource α) (world : Mat4 α) : (frame.register node source world).Grounded := by
  intro entry hentry hvalid
  rcases Array.mem_push.1 hentry with hentry | rfl
  · exact h entry hentry hvalid
  · exact absurd hvalid Sphere.not_isValid_invalid

lemma Grounded.prepare (h : frame.Grounded) (camera : Camera α) :
    (frame.prepare camera).Grounded := by
  rw [Frame.prepare]
  split
  · exact h
  · intro entry hentry hvalid
    obtain ⟨old, -, rfl⟩ := Array.mem_map.1 hentry
    exact Sphere.isValid_of_map hvalid

end Frame

/-! ### Managers that were made -/

namespace Session

variable [Scalar.Signed α]

lemma grounded_after (settings : Settings) (uses : List (Step α)) :
    (after settings uses).manager.frame.Grounded := by
  induction uses using List.reverseRecOn with
  | nil => exact Frame.grounded_blank 0
  | append_singleton uses step ih =>
    rw [after_concat]
    cases step with
    | beginFrame => exact Frame.grounded_blank _
    | decorate => exact ih
    | register => exact ih.register _ _ _
    | prepare camera => exact ih.prepare camera
    | request indices => exact ih.congr (request_bounds _ indices).1
    | select camera bound modelView =>
      exact (ih.prepare camera).congr (select_bounds _ camera bound modelView).1

end Session

lemma Manager.IsMade.grounded [Scalar.Signed α] {m : Manager α} (h : m.IsMade) :
    m.frame.Grounded := by
  obtain ⟨settings, uses, rfl⟩ := h
  exact Session.grounded_after settings uses

/-! ### Selections -/

/-- All lights of a set are as they are registered, and reach something. -/
def LightSet.Reaching (set : LightSet α) (frame : Frame α) : Prop :=
  ∀ (slot : Nat) (placed : PlacedLight α), set.slots[slot]? = some placed →
    ∃ entry, frame.lights[placed.index]? = some entry ∧
      placed = entry.placed placed.index slot ∧ entry.source.Reaches

lemma LightSet.Reaching.grows {set : LightSet α} {frame frame' : Frame α}
    (h : set.Reaching frame) (hgrows : frame.Grows frame') : set.Reaching frame' := by
  intro slot placed hslot
  obtain ⟨entry, hentry, hplaced, hreaches⟩ := h slot placed hslot
  obtain ⟨entry', hentry', hunseen⟩ := hgrows.lights _ _ hentry
  refine ⟨entry', hentry', ?_, ?_⟩
  · calc placed = entry.unseen.placed placed.index slot := hplaced
      _ = entry'.unseen.placed placed.index slot := by rw [hunseen]
  · have hsource : entry'.unseen.source = entry.unseen.source := by rw [hunseen]
    rwa [show entry'.source = entry.source from hsource]

lemma touching_of_not_isValid {lights : Array (Registered α)} {bound : Sphere α}
    (h : ¬bound.IsValid) : touching lights bound = [] := by
  refine List.eq_nil_iff_forall_not_mem.2 fun index hindex => ?_
  obtain ⟨_, -, -, hvalid, -⟩ := mem_touching.1 hindex
  exact h hvalid

namespace Manager

variable {m m' : Manager α} {camera : Camera α} {bound : Sphere α} {modelView : Mat4 α}

/-- Where there is no valid bound, no light is selected. -/
lemma select_of_not_isValid (m : Manager α) (camera : Camera α) (modelView : Mat4 α)
    (h : ¬bound.IsValid) :
    select camera bound modelView m = ⟨.ok none, m.prepare camera, []⟩ := by
  refine select_of_touching_eq_nil camera bound modelView (touching_of_not_isValid ?_)
  rwa [Sphere.map_of_not_isValid h]

/-- A selection asks for lights that reach something. -/
lemma IsMade.reaches_of_mem_wanted [Scalar.Signed α] (h : m.IsMade) {index : Nat}
    (hindex : index ∈ m.wanted camera bound modelView) :
    ∃ entry, (m.prepare camera).frame.lights[index]? = some entry ∧ entry.source.Reaches := by
  obtain ⟨entry, hentry, hvalid, -⟩ := mem_touching.1 (List.mem_of_mem_take hindex)
  have hgrounded := h.grounded.prepare camera
  exact ⟨entry, hentry, hgrounded entry (Array.mem_of_getElem? hentry) hvalid⟩

/-- A light that is selected reaches something, whatever is in the cache. -/
theorem IsMade.reaching_of_select [Scalar.Signed α] (h : m.IsMade) {set : LightSet α}
    (hset : (select camera bound modelView).Answers m (some set) m') :
    set.Reaching m'.frame := by
  obtain ⟨-, hnone⟩ | ⟨-, frame, hframe, set', frame', hanswer, hsome⟩ :=
    select_cases camera bound modelView m
  · cases hset.1.symm.trans hnone.1
  obtain rfl : set = set' := Option.some.inj (Except.ok.inj (hset.1.symm.trans hsome.1))
  obtain rfl : m' = { m with frame := frame' } := hset.2.symm.trans hsome.2
  have hlights := Frame.lights_of_counted hframe
  obtain ⟨-, hcoherent⟩ := (h.coherent.prepare camera).counted hframe
  have hlt : ∀ index ∈ m.wanted camera bound modelView, index < frame.lights.size := by
    rw [hlights]
    exact fun _ => lt_size_of_mem_wanted camera bound modelView
  have hsame := Frame.same_of_answer hlt hanswer
  intro slot placed hslot
  have hindex : placed.index ∈ m.wanted camera bound modelView :=
    hsame.mem_iff.1 (List.mem_map_of_mem (List.mem_of_getElem? hslot))
  obtain ⟨entry, hentry, hreaches⟩ := h.reaches_of_mem_wanted hindex
  obtain ⟨entry', hentry', hplaced⟩ := (hcoherent.answer hlt hanswer).1.placed slot placed hslot
  obtain rfl : entry' = entry := by
    rw [(Frame.eq_of_answer hanswer).1, hlights] at hentry'
    exact Option.some.inj (hentry'.symm.trans hentry)
  exact ⟨entry', hentry', hplaced, hreaches⟩

end Manager

end SceneLighting
