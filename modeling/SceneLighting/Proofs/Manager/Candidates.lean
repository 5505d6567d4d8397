import SceneLighting.Proofs.Manager.Frame

/-!
# Selections in full

A selection is told entirely by the lights that touch the bound after it has prepared for the
camera. It asks for the first of them, as many as the cap allows, and the set that it gets may be an
earlier one. What is in the cache does not matter for this: a kept set is only given to requests
that it serves.
-/

namespace SceneLighting

variable {α : Type}

/-- The entries of one severity that events leave in the log. -/
def Log.entriesOf (severity : Severity) (log : List Event) : List Entry :=
  (log.map Event.entry).filter fun entry => entry.severity = severity

lemma Log.entriesOf_append (severity : Severity) (log log' : List Event) :
    entriesOf severity (log ++ log') = entriesOf severity log ++ entriesOf severity log' := by
  simp [entriesOf]

/-- Only of collisions there are warnings. -/
lemma Log.exists_of_mem_entriesOf_warn {log : List Event} {entry : Entry}
    (h : entry ∈ entriesOf .warn log) :
    ∃ fingerprint indices, .collided fingerprint indices ∈ log ∧
      entry = (Event.collided fingerprint indices).entry := by
  simp only [entriesOf, List.mem_filter, List.mem_map, decide_eq_true_eq] at h
  obtain ⟨⟨event, hevent, rfl⟩, hwarn⟩ := h
  cases event with
  | collided fingerprint indices => exact ⟨fingerprint, indices, hevent, rfl⟩
  | _ => cases hwarn

variable [Scalar α]

/-! ### Lights that touch -/

lemma mem_touching {lights : Array (Registered α)} {bound : Sphere α} {index : Nat} :
    index ∈ touching lights bound ↔
      ∃ entry, lights[index]? = some entry ∧ entry.bound.Touches bound := by
  rw [touching_eq, List.mem_filter, List.mem_range]
  constructor
  · rintro ⟨-, htouches⟩
    cases hentry : lights[index]? with
    | none => simp [hentry] at htouches
    | some entry => exact ⟨entry, rfl, by simpa [hentry] using htouches⟩
  · rintro ⟨entry, hentry, htouches⟩
    exact ⟨(Array.getElem?_eq_some_iff.1 hentry).1, by simpa [hentry] using htouches⟩

lemma pairwise_touching (lights : Array (Registered α)) (bound : Sphere α) :
    (touching lights bound).Pairwise (· < ·) := by
  rw [touching_eq]
  exact List.pairwise_lt_range.filter _

namespace Frame

/-! ### What an answer leaves -/

/-- An answer is a set for the lights that were asked for. Truncations are not counted here, and
what is reported is no truncation. -/
lemma of_answer_eq {mode : Fingerprint.Mode} {indices : List Nat} {frame frame' : Frame α}
    {set : LightSet α} {log : List Event} (hlt : ∀ index ∈ indices, index < frame.lights.size)
    (h : answer mode indices frame = ⟨.ok set, frame', log⟩) :
    mode.Same set.indices indices ∧ frame'.stats.truncations = frame.stats.truncations ∧
      Log.entriesOf .debug log = [] := by
  refine ⟨same_of_answer hlt (Action.answers_of_eq h), ?_⟩
  obtain ⟨_, -, -, ho⟩ | ⟨-, ho⟩ | ⟨_, -, -, ho⟩ := answer_cases mode indices frame
  all_goals
    rw [ho] at h
    cases h
    exact ⟨rfl, rfl⟩

end Frame

namespace Manager

/-! ### Selections -/

variable (camera : Camera α) (bound : Sphere α) (modelView : Mat4 α)

/-- What a selection comes to when the lights at `touched` touch. -/
structure Selected (m : Manager α) (camera : Camera α) (touched : List Nat)
    (o : Outcome (Manager α) (Option (LightSet α))) : Prop where
  /-- Without a light that touches there is no set, and the manager is prepared, no more. -/
  none : touched = [] → o = ⟨.ok none, m.prepare camera, []⟩ ∧
    o.state.frame.cache = m.frame.cache ∧ o.state.frame.stats.hits = m.frame.stats.hits ∧
    o.state.frame.stats.misses = m.frame.stats.misses
  some : touched ≠ [] → ∃ set, o.result = .ok (some set) ∧
    set.slots.length = min touched.length m.settings.cap ∧
    m.settings.mode.Same set.indices (touched.take m.settings.cap)
  truncations_eq : o.state.frame.stats.truncations =
    m.frame.stats.truncations + if m.settings.cap < touched.length then 1 else 0
  debug_eq : Log.entriesOf .debug o.log =
    if m.settings.cap < touched.length ∧ m.settings.logsTruncation then
      [Event.entry (.truncated touched.length m.settings.cap)]
    else []

lemma selected_of_touching (m : Manager α) :
    Selected m camera (touching (m.prepare camera).frame.lights (bound.map modelView))
      (select camera bound modelView m) := by
  generalize htouching : touching (m.prepare camera).frame.lights (bound.map modelView) = touched
  by_cases hne : touched = []
  case pos =>
    subst hne
    rw [select_of_touching_eq_nil camera bound modelView htouching]
    constructor
    case none =>
      intro _
      exact ⟨rfl, Frame.cache_prepare _ _, Frame.hits_prepare _ _, Frame.misses_prepare _ _⟩
    case some => exact fun h => absurd rfl h
    case truncations_eq => exact Frame.truncations_prepare _ _
    case debug_eq => rfl
  case neg =>
    obtain ⟨set, frame, log, hanswer, ho⟩ :=
      exists_select camera bound modelView htouching hne
    have hlt : ∀ index ∈ m.wanted camera bound modelView,
        index < (m.prepare camera).frame.lights.size :=
      fun _ => lt_size_of_mem_wanted camera bound modelView
    obtain ⟨hsame, htruncations, hdebug⟩ := Frame.of_answer_eq (by exact hlt) hanswer
    rw [wanted, htouching] at hsame
    rw [ho]
    constructor
    case none => exact fun h => absurd h hne
    case some =>
      refine fun _ => ⟨set, rfl, ?_, hsame⟩
      rw [← List.length_map (f := PlacedLight.index), ← LightSet.indices, hsame.length_eq,
        List.length_take, Nat.min_comm]
    case truncations_eq =>
      rw [htruncations]
      exact congrArg (· + _) (Frame.truncations_prepare _ _)
    case debug_eq =>
      rw [Log.entriesOf_append, hdebug, List.append_nil, truncationLog]
      split <;> rfl

/-- A selection never fails, whatever the manager. It chooses the first of the lights that touch, by
their places in the registry, and it counts and reports that there were more. -/
theorem select_in_full (m : Manager α) : ∃ touched : List Nat,
    touched.Pairwise (· < ·) ∧
    (∀ index, index ∈ touched ↔ ∃ entry, (m.prepare camera).frame.lights[index]? = some entry ∧
      entry.bound.Touches (bound.map modelView)) ∧
    Selected m camera touched (select camera bound modelView m) :=
  ⟨_, pairwise_touching _ _, fun _ => mem_touching, selected_of_touching camera bound modelView m⟩

end Manager

end SceneLighting
