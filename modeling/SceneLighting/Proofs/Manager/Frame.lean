import SceneLighting.Manager.Selection
import SceneLighting.Proofs.Action

/-!
# Requests and selections

What a request or a selection does to a manager, case by case. A selection only asks for lights that
are registered and for no more of them than the cap allows, so it does not fail.
-/

namespace SceneLighting

variable {α : Type}

/-! ### Lists that are the same request -/

namespace Fingerprint.Mode

/-- Whether two lists are the same request. -/
def Same : Mode → List Nat → List Nat → Prop
  | .ordered, l, l' => l = l'
  | .sorted, l, l'  => l.Perm l'

lemma representative_eq_iff {mode : Mode} {l l' : List Nat} :
    mode.representative l = mode.representative l' ↔ mode.Same l l' := by
  cases mode with
  | ordered => exact Iff.rfl
  | sorted =>
    constructor
    · intro h
      have h : l.mergeSort = l'.mergeSort := h
      have hl : l.Perm l.mergeSort := (List.mergeSort_perm l _).symm
      rw [h] at hl
      exact hl.trans (List.mergeSort_perm l' _)
    · intro h
      have hsorted : ∀ l : List Nat, l.mergeSort.Pairwise fun a b => decide (a ≤ b) :=
        List.pairwise_mergeSort (by simp; omega) (by simp; omega)
      refine List.Perm.eq_of_pairwise ?_ (hsorted l) (hsorted l') ?_
      · intro a b _ _ hab hba
        exact Nat.le_antisymm (by simpa using hab) (by simpa using hba)
      · exact (List.mergeSort_perm l _).trans (h.trans (List.mergeSort_perm l' _).symm)

lemma Same.refl (mode : Mode) (l : List Nat) : mode.Same l l :=
  representative_eq_iff.1 rfl

lemma Same.symm {mode : Mode} {l l' : List Nat} (h : mode.Same l l') : mode.Same l' l :=
  representative_eq_iff.1 (representative_eq_iff.2 h).symm

lemma Same.trans {mode : Mode} {l₁ l₂ l₃ : List Nat} (h : mode.Same l₁ l₂) (h' : mode.Same l₂ l₃) :
    mode.Same l₁ l₃ :=
  representative_eq_iff.1 ((representative_eq_iff.2 h).trans (representative_eq_iff.2 h'))

lemma Same.ofIndices_eq {mode : Mode} {l l' : List Nat} (h : mode.Same l l') :
    ofIndices mode l = ofIndices mode l' := by
  rw [ofIndices, ofIndices, representative_eq_iff.2 h]

lemma Same.mem_iff {mode : Mode} {l l' : List Nat} (h : mode.Same l l') {index : Nat} :
    index ∈ l ↔ index ∈ l' := by
  cases mode with
  | ordered => rw [show l = l' from h]
  | sorted => exact List.Perm.mem_iff h

lemma Same.length_eq {mode : Mode} {l l' : List Nat} (h : mode.Same l l') :
    l.length = l'.length := by
  cases mode with
  | ordered => exact congrArg List.length h
  | sorted => exact List.Perm.length_eq h

end Fingerprint.Mode

/-- A set serves the requests that are the same as for its own lights. -/
lemma LightSet.serves_iff {set : LightSet α} {mode : Fingerprint.Mode} {indices : List Nat} :
    set.Serves mode indices ↔ mode.Same set.indices indices := by
  rw [Serves, Fingerprint.Mode.representative_eq_iff, and_iff_right_iff_imp]
  intro h
  rw [← h.length_eq, LightSet.indices, List.length_map]

/-- A set holds the lights at `indices`, in that order, each placed in the world. -/
def LightSet.Holds [Scalar α] (set : LightSet α) (lights : Array (Registered α))
    (indices : List Nat) : Prop :=
  ∀ j : Nat, set.slots[j]? = indices[j]?.bind fun index =>
    lights[index]?.map fun entry => entry.placed index j

lemma LightSet.Holds.indices_eq [Scalar α] {set : LightSet α} {lights : Array (Registered α)}
    {indices : List Nat} (h : set.Holds lights indices)
    (hlt : ∀ index ∈ indices, index < lights.size) : set.indices = indices := by
  apply List.ext_getElem?
  intro j
  rw [LightSet.indices, List.getElem?_map, h j]
  cases hj : indices[j]? with
  | none => rfl
  | some index =>
    have hentry := Array.getElem?_eq_getElem (hlt index (List.mem_of_getElem? hj))
    simp [hentry, Registered.placed]

namespace Frame

variable [Scalar α]

/-! ### What preparing leaves as it is -/

@[simp] lemma number_prepare (frame : Frame α) (camera : Camera α) :
    (frame.prepare camera).number = frame.number := by
  rw [prepare]
  split <;> rfl

@[simp] lemma cache_prepare (frame : Frame α) (camera : Camera α) :
    (frame.prepare camera).cache = frame.cache := by
  rw [prepare]
  split <;> rfl

@[simp] lemma misses_prepare (frame : Frame α) (camera : Camera α) :
    (frame.prepare camera).stats.misses = frame.stats.misses := by
  rw [prepare]
  split <;> rfl

@[simp] lemma hits_prepare (frame : Frame α) (camera : Camera α) :
    (frame.prepare camera).stats.hits = frame.stats.hits := by
  rw [prepare]
  split <;> rfl

@[simp] lemma truncations_prepare (frame : Frame α) (camera : Camera α) :
    (frame.prepare camera).stats.truncations = frame.stats.truncations := by
  rw [prepare]
  split <;> rfl

/-! ### Requests -/

/-- A new set holds the lights that were asked for. -/
theorem holds_build (frame : Frame α) (fingerprint : Fingerprint) {indices : List Nat}
    (h : ∀ index ∈ indices, index < frame.lights.size) :
    (frame.build fingerprint indices).Holds frame.lights indices := by
  have hfrom : ∀ (k j : Nat), ((indices.zipIdx k).filterMap fun p =>
      frame.lights[p.1]?.map fun entry => entry.placed p.1 p.2)[j]? =
        indices[j]?.bind fun index =>
          frame.lights[index]?.map fun entry => entry.placed index (k + j) := by
    induction indices with
    | nil => simp
    | cons index indices ih =>
      intro k j
      have hentry := Array.getElem?_eq_getElem (h index (by simp))
      simp only [List.zipIdx_cons, List.filterMap_cons, hentry, Option.map_some]
      cases j with
      | zero => simp [hentry]
      | succ j =>
        simp only [List.getElem?_cons_succ]
        rw [ih (fun i hi => h i (by simp [hi])), Nat.add_assoc, Nat.add_comm 1 j]
  intro j
  have hslots := hfrom 0 j
  rw [Nat.zero_add] at hslots
  exact hslots

lemma indices_build (frame : Frame α) (fingerprint : Fingerprint) {indices : List Nat}
    (h : ∀ index ∈ indices, index < frame.lights.size) :
    (frame.build fingerprint indices).indices = indices :=
  (holds_build frame fingerprint h).indices_eq h

/-- How a frame answers a request: from the set of its fingerprint if there is one and it serves,
and else with a new set, which is kept if there was none. -/
theorem answer_cases (mode : Fingerprint.Mode) (indices : List Nat) (frame : Frame α) :
    (∃ set, frame.cached? (.ofIndices mode indices) = some set ∧ mode.Same set.indices indices ∧
      answer mode indices frame = ⟨.ok set, frame.countHit, []⟩) ∨
    (frame.cached? (.ofIndices mode indices) = none ∧
      answer mode indices frame = ⟨.ok (frame.build (.ofIndices mode indices) indices),
        { frame.countMiss with
          cache := frame.build (.ofIndices mode indices) indices :: frame.cache }, []⟩) ∨
    ∃ set, frame.cached? (.ofIndices mode indices) = some set ∧ ¬mode.Same set.indices indices ∧
      answer mode indices frame = ⟨.ok (frame.build (.ofIndices mode indices) indices),
        frame.countMiss, [.collided (.ofIndices mode indices) indices]⟩ := by
  cases hc : frame.cached? (.ofIndices mode indices) with
  | none => exact Or.inr (Or.inl ⟨rfl, by simp only [answer, hc]⟩)
  | some set =>
    by_cases hs : set.Serves mode indices
    · exact Or.inl ⟨set, rfl, LightSet.serves_iff.1 hs, by simp only [answer, hc, if_pos hs]⟩
    · refine Or.inr (Or.inr ⟨set, rfl, fun h => hs (LightSet.serves_iff.2 h), ?_⟩)
      simp only [answer, hc, if_neg hs]

/-- Where the set of an answer comes from, and what is left behind. -/
theorem cases_of_answer {mode : Fingerprint.Mode} {indices : List Nat} {frame frame' : Frame α}
    {set : LightSet α} (h : (answer mode indices).Answers frame set frame') :
    (frame.cached? (.ofIndices mode indices) = some set ∧ mode.Same set.indices indices ∧
      frame' = frame.countHit) ∨
    (frame.cached? (.ofIndices mode indices) = none ∧
      set = frame.build (.ofIndices mode indices) indices ∧
      frame' = { frame.countMiss with cache := set :: frame.cache }) ∨
    ∃ kept, frame.cached? (.ofIndices mode indices) = some kept ∧ ¬mode.Same kept.indices indices ∧
      set = frame.build (.ofIndices mode indices) indices ∧ frame' = frame.countMiss := by
  obtain ⟨kept, hkept, hsame, ho⟩ | ⟨hnone, ho⟩ | ⟨kept, hkept, hdiffers, ho⟩ :=
    answer_cases mode indices frame
  all_goals
    rw [Action.Answers, ho] at h
    obtain ⟨hset, rfl⟩ := h
    obtain rfl := Except.ok.inj hset
  · exact Or.inl ⟨hkept, hsame, rfl⟩
  · exact Or.inr (Or.inl ⟨hnone, rfl, rfl⟩)
  · exact Or.inr (Or.inr ⟨kept, hkept, hdiffers, rfl, rfl⟩)

/-- An answer is a set for the lights that were asked for. -/
lemma same_of_answer {mode : Fingerprint.Mode} {indices : List Nat} {frame frame' : Frame α}
    {set : LightSet α} (hlt : ∀ index ∈ indices, index < frame.lights.size)
    (h : (answer mode indices).Answers frame set frame') : mode.Same set.indices indices := by
  have hbuilt : mode.Same (frame.build (.ofIndices mode indices) indices).indices indices := by
    rw [indices_build frame _ hlt]
    exact .refl mode indices
  obtain ⟨-, hsame, -⟩ | ⟨-, rfl, -⟩ | ⟨_, -, -, rfl, -⟩ := cases_of_answer h
  · exact hsame
  · exact hbuilt
  · exact hbuilt

/-- A frame always answers. -/
lemma exists_answer (mode : Fingerprint.Mode) (indices : List Nat) (frame : Frame α) :
    ∃ set frame' log, answer mode indices frame = ⟨.ok set, frame', log⟩ := by
  obtain ⟨_, -, -, ho⟩ | ⟨-, ho⟩ | ⟨_, -, -, ho⟩ := answer_cases mode indices frame
  all_goals exact ⟨_, _, _, ho⟩

lemma exists_answers (mode : Fingerprint.Mode) (indices : List Nat) (frame : Frame α) :
    ∃ set frame', (answer mode indices).Answers frame set frame' := by
  obtain ⟨set, frame', log, h⟩ := exists_answer mode indices frame
  exact ⟨set, frame', Action.answers_of_eq h⟩

end Frame

namespace Manager

lemma checkIndices_eq_ok {m : Manager α} {indices : List Nat} :
    m.checkIndices indices = .ok () ↔ indices.length ≤ m.settings.cap ∧
      ∀ index ∈ indices, index < m.frame.lights.size := by
  rw [checkIndices]
  split
  next hcap => simp [Nat.not_le.2 hcap]
  next hcap =>
    rw [and_iff_right (Nat.not_lt.1 hcap)]
    cases hfind : indices.find? fun index => m.frame.lights.size ≤ index with
    | none => simpa using hfind
    | some index =>
      have hmem := List.mem_of_find?_eq_some hfind
      have hle : m.frame.lights.size ≤ index := by simpa using List.find?_some hfind
      exact iff_of_false (by simp) fun h => Nat.not_lt.2 hle (h index hmem)

variable [Scalar α]

theorem request_cases (indices : List Nat) (m : Manager α) :
    Action.Fails (request indices) m ∨
      indices.length ≤ m.settings.cap ∧ (∀ index ∈ indices, index < m.frame.lights.size) ∧
      request indices m = onFrame (Frame.answer m.settings.mode indices) m := by
  rw [Action.Fails, request, Action.get_bind_apply, Action.check_bind_apply]
  rcases hc : m.checkIndices indices with fault | ⟨⟩
  · exact Or.inl ⟨_, fault, rfl⟩
  · obtain ⟨hcap, hlt⟩ := checkIndices_eq_ok.1 hc
    exact Or.inr ⟨hcap, hlt, rfl⟩

lemma request_of_error {indices : List Nat} {m : Manager α} {fault : Fault}
    (h : m.checkIndices indices = .error fault) :
    request indices m = ⟨.error fault, m, [.failed .manager fault]⟩ := by
  rw [request, Action.get_bind_apply, Action.check_bind_apply, h]

lemma request_eq {indices : List Nat} {m : Manager α} (hcap : indices.length ≤ m.settings.cap)
    (hlt : ∀ index ∈ indices, index < m.frame.lights.size) :
    request indices m = onFrame (Frame.answer m.settings.mode indices) m := by
  rw [request, Action.get_bind_apply, Action.check_bind_apply, checkIndices_eq_ok.2 ⟨hcap, hlt⟩]

/-- A request within the cap for registered lights is answered by the frame. -/
lemma exists_request {indices : List Nat} {m : Manager α} (hcap : indices.length ≤ m.settings.cap)
    (hlt : ∀ index ∈ indices, index < m.frame.lights.size) :
    ∃ set frame log, Frame.answer m.settings.mode indices m.frame = ⟨.ok set, frame, log⟩ ∧
      request indices m = ⟨.ok set, { m with frame }, log⟩ := by
  obtain ⟨set, frame, log, hanswer⟩ := Frame.exists_answer m.settings.mode indices m.frame
  refine ⟨set, frame, log, hanswer, ?_⟩
  rw [request_eq hcap hlt, onFrame, Action.on_apply]
  simp only [hanswer]

end Manager

/-! ### Lights left out -/

/-- The frame when `count` more selections have left lights out. -/
def Frame.withTruncations (frame : Frame α) (count : Nat) : Frame α :=
  { frame with stats := { frame.stats with truncations := frame.stats.truncations + count } }

/-- What is reported when `count` lights touch. -/
def Manager.truncationLog (m : Manager α) (count : Nat) : List Event :=
  if m.settings.cap < count ∧ m.settings.logsTruncation then [.truncated count m.settings.cap]
  else []

lemma Manager.noteTruncation_eq (count : Nat) (m : Manager α) :
    noteTruncation count m =
      ⟨.ok (),
        { m with frame := m.frame.withTruncations (if m.settings.cap < count then 1 else 0) },
        m.truncationLog count⟩ := by
  rw [noteTruncation, truncationLog]
  by_cases hcap : m.settings.cap < count
  · cases hlogs : m.settings.logsTruncation <;>
      simp [hcap, Frame.withTruncations, Frame.countTruncation]
  · simp [hcap, Frame.withTruncations]

lemma Frame.lights_of_counted {frame frame' : Frame α}
    (h : frame' = frame ∨ frame' = frame.countTruncation) : frame'.lights = frame.lights := by
  rcases h with rfl | rfl <;> rfl

/-! ### Selections -/

variable [Scalar α]

/-- The lights that touch a bound are found in the order of the registry. -/
theorem touching_eq (lights : Array (Registered α)) (bound : Sphere α) :
    touching lights bound = (List.range lights.size).filter fun index =>
      lights[index]?.any fun entry => entry.bound.Touches bound := by
  have hfrom : ∀ (l : List (Registered α)) (k : Nat),
      ((l.zipIdx k).filter fun p => p.1.bound.Touches bound).map Prod.snd =
        (List.range' k l.length).filter fun index =>
          l[index - k]?.any fun entry => entry.bound.Touches bound := by
    intro l
    induction l with
    | nil => simp
    | cons entry l ih =>
      intro k
      have hrest : (List.range' (k + 1) l.length).filter (fun index =>
          (entry :: l)[index - k]?.any fun entry => entry.bound.Touches bound) =
          (List.range' (k + 1) l.length).filter fun index =>
            l[index - (k + 1)]?.any fun entry => entry.bound.Touches bound := by
        apply List.filter_congr
        intro index hi
        obtain ⟨i, rfl⟩ := Nat.exists_eq_add_of_le (List.mem_range'_1.1 hi).1
        have h₁ : k + 1 + i - k = i + 1 := by omega
        have h₂ : k + 1 + i - (k + 1) = i := by omega
        rw [h₁, h₂, List.getElem?_cons_succ]
      simp only [List.zipIdx_cons, List.filter_cons, List.length_cons, List.range'_succ,
        Nat.sub_self, List.getElem?_cons_zero, Option.any_some, hrest, ← ih]
      split <;> rfl
  have hplaces := hfrom lights.toList 0
  simp only [Nat.sub_zero, Array.length_toList, Array.getElem?_toList] at hplaces
  rw [List.range_eq_range', ← hplaces]
  rfl

lemma lt_size_of_mem_touching {lights : Array (Registered α)} {bound : Sphere α} {index : Nat}
    (h : index ∈ touching lights bound) : index < lights.size := by
  rw [touching_eq] at h
  exact List.mem_range.1 (List.mem_filter.1 h).1

namespace Manager

/-- The lights that a selection asks for. -/
def wanted (m : Manager α) (camera : Camera α) (bound : Sphere α) (modelView : Mat4 α) : List Nat :=
  (touching (m.prepare camera).frame.lights (bound.map modelView)).take m.settings.cap

section Select

variable (camera : Camera α) (bound : Sphere α) (modelView : Mat4 α)

lemma lt_size_of_mem_wanted {m : Manager α} {index : Nat}
    (h : index ∈ m.wanted camera bound modelView) :
    index < (m.prepare camera).frame.lights.size :=
  lt_size_of_mem_touching (List.mem_of_mem_take h)

lemma select_of_touching_eq_nil {m : Manager α}
    (h : touching (m.prepare camera).frame.lights (bound.map modelView) = []) :
    select camera bound modelView m = ⟨.ok none, m.prepare camera, []⟩ := by
  rw [select, Action.modify_bind_apply, Action.get_bind_apply, h]
  rfl

/-- A selection for lights that touch notes how many there are and asks for the first of them. -/
theorem exists_select {m : Manager α} {touched : List Nat}
    (h : touching (m.prepare camera).frame.lights (bound.map modelView) = touched)
    (hne : touched ≠ []) :
    ∃ set frame log,
      Frame.answer m.settings.mode (m.wanted camera bound modelView)
        ((m.prepare camera).frame.withTruncations
          (if m.settings.cap < touched.length then 1 else 0)) = ⟨.ok set, frame, log⟩ ∧
      select camera bound modelView m =
        ⟨.ok (some set), { m with frame }, m.truncationLog touched.length ++ log⟩ := by
  have hwanted : m.wanted camera bound modelView = touched.take m.settings.cap := by rw [wanted, h]
  have hlt : ∀ index ∈ touched.take m.settings.cap, index < (m.prepare camera).frame.lights.size :=
    fun _ hi => lt_size_of_mem_wanted camera bound modelView (hwanted ▸ hi)
  have hnote := noteTruncation_eq touched.length (m.prepare camera)
  rw [hwanted]
  generalize hnoted : (m.prepare camera).frame.withTruncations
    (if m.settings.cap < touched.length then 1 else 0) = noted
  have hnote : noteTruncation touched.length (m.prepare camera) =
      ⟨.ok (), { m with frame := noted }, m.truncationLog touched.length⟩ := hnoted ▸ hnote
  have hlights : noted.lights = (m.prepare camera).frame.lights := hnoted ▸ rfl
  obtain ⟨set, frame, log, hanswer, hrequest⟩ :=
    exists_request (m := { m with frame := noted }) (List.length_take_le _ _) (hlights ▸ hlt)
  refine ⟨set, frame, log, hanswer, ?_⟩
  obtain ⟨first, others, rfl⟩ := List.exists_cons_of_ne_nil hne
  rw [select, Action.modify_bind_apply, Action.get_bind_apply, h]
  show (noteTruncation _ >>= fun _ =>
    request ((first :: others).take m.settings.cap) >>= fun set => pure (some set)) _ = _
  rw [Action.bind_apply, hnote]
  dsimp only
  rw [Action.bind_apply, hrequest]
  simp only [Action.pure_apply, List.append_nil]

/-- A selection prepares for the camera. If a light touches, it makes a request that is answered. -/
theorem select_cases (m : Manager α) :
    (touching (m.prepare camera).frame.lights (bound.map modelView) = [] ∧
      (select camera bound modelView).Answers m none (m.prepare camera)) ∨
    touching (m.prepare camera).frame.lights (bound.map modelView) ≠ [] ∧
      ∃ frame, (frame = (m.prepare camera).frame ∨
        frame = (m.prepare camera).frame.countTruncation) ∧
      ∃ set frame', (Frame.answer m.settings.mode (m.wanted camera bound modelView)).Answers
        frame set frame' ∧
        (select camera bound modelView).Answers m (some set) { m with frame := frame' } := by
  by_cases htouching : touching (m.prepare camera).frame.lights (bound.map modelView) = []
  case pos =>
    have ho := select_of_touching_eq_nil camera bound modelView htouching
    exact Or.inl ⟨htouching, Action.answers_of_eq ho⟩
  case neg =>
    obtain ⟨set, frame', log, hanswer, ho⟩ :=
      exists_select camera bound modelView rfl htouching
    refine Or.inr ⟨htouching, _, ?_, set, frame', Action.answers_of_eq hanswer,
      Action.answers_of_eq ho⟩
    split
    · exact Or.inr rfl
    · exact Or.inl rfl

end Select

end Manager

end SceneLighting
