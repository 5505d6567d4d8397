import SceneLighting.Proofs.Manager.Frame
import SceneLighting.Scalar.Binary32
import Mathlib.Data.List.Induction

/-!
# The cache of a frame

Requests are answered from a cache that is looked up by fingerprints. The set kept for a fingerprint
is the one that its first request was answered with. A request that is the same as that one gets the
kept set. A different request of the same fingerprint gets a new set, and gets another one when it
is repeated.
-/

namespace SceneLighting

variable {α : Type}

/-- A request that was answered. -/
structure Answered (α : Type) where
  indices : List Nat
  set : LightSet α

namespace Answered

/-- The first of the requests that have the fingerprint of `indices`. -/
def first? (mode : Fingerprint.Mode) (answered : List (Answered α)) (indices : List Nat) :
    Option (Answered α) :=
  answered.find? fun a =>
    Fingerprint.ofIndices mode a.indices = Fingerprint.ofIndices mode indices

variable {mode : Fingerprint.Mode} {answered : List (Answered α)}

lemma exists_first? {a : Answered α} (h : a ∈ answered) :
    ∃ first, first? mode answered a.indices = some first :=
  Option.isSome_iff_exists.1 (List.find?_isSome.2 ⟨a, h, by simp⟩)

lemma first?_of_same {l l' : List Nat} (h : mode.Same l l') :
    first? mode answered l = first? mode answered l' := by
  rw [first?, first?, h.ofIndices_eq]

/-- Later requests do not change which one was the first. -/
lemma first?_append (more : List (Answered α)) {l : List Nat} {first : Answered α}
    (h : first? mode answered l = some first) :
    first? mode (answered ++ more) l = some first := by
  rw [first?, List.find?_append, ← first?, h, Option.some_or]

end Answered

/-- How the cache of a frame comes from the requests that were answered in it. -/
structure Frame.Records (mode : Fingerprint.Mode) (frame : Frame α) (answered : List (Answered α)) :
    Prop where
  serial_lt : ∀ a ∈ answered, a.set.stamp.serial < frame.stats.misses
  same : ∀ a ∈ answered, mode.Same a.set.indices a.indices
  cached?_eq : ∀ l, frame.cached? (.ofIndices mode l) =
    (Answered.first? mode answered l).map Answered.set
  /-- What is the same as the first request of its fingerprint has the set of that. -/
  shared : ∀ a ∈ answered, ∀ first, Answered.first? mode answered a.indices = some first →
    mode.Same first.indices a.indices → a.set = first.set
  /-- All else was made for one request alone. -/
  alone : answered.Pairwise fun a b => a.set.stamp = b.set.stamp →
    ∀ first, Answered.first? mode answered b.indices = some first →
      mode.Same first.indices b.indices

namespace Frame.Records

variable {mode : Fingerprint.Mode} {frame frame' : Frame α} {answered : List (Answered α)}

lemma blank (mode : Fingerprint.Mode) (number : Nat) :
    Records mode (Frame.blank number : Frame α) [] where
  serial_lt := by simp
  same := by simp
  cached?_eq l := rfl
  shared := by simp
  alone := .nil

lemma congr (h : frame.Records mode answered) (hcache : frame'.cache = frame.cache)
    (hmisses : frame'.stats.misses = frame.stats.misses) : frame'.Records mode answered where
  serial_lt := hmisses ▸ h.serial_lt
  same := h.same
  cached?_eq l := by
    rw [← h.cached?_eq, cached?, cached?, hcache]
  shared := h.shared
  alone := h.alone

/-- One more request. -/
lemma concat (h : frame.Records mode answered) {a : Answered α}
    (hmisses : frame.stats.misses ≤ frame'.stats.misses)
    (hserial : a.set.stamp.serial < frame'.stats.misses)
    (hcached : ∀ l, frame'.cached? (.ofIndices mode l) = (frame.cached? (.ofIndices mode l)).or
      (if Fingerprint.ofIndices mode a.indices = .ofIndices mode l then some a.set else none))
    (hsame : mode.Same a.set.indices a.indices)
    (hshared : ∀ first, Answered.first? mode (answered ++ [a]) a.indices = some first →
      mode.Same first.indices a.indices → a.set = first.set)
    (halone : ∀ b ∈ answered, b.set.stamp = a.set.stamp → ∀ first,
      Answered.first? mode (answered ++ [a]) a.indices = some first →
      mode.Same first.indices a.indices) :
    frame'.Records mode (answered ++ [a]) := by
  have hold : ∀ b ∈ answered, ∀ first,
      Answered.first? mode (answered ++ [a]) b.indices = some first →
      Answered.first? mode answered b.indices = some first := by
    intro b hb first hfirst
    obtain ⟨first', hfirst'⟩ : ∃ first', Answered.first? mode answered b.indices = some first' :=
      Answered.exists_first? hb
    rwa [Answered.first?_append [a] hfirst', ← hfirst'] at hfirst
  constructor
  case serial_lt =>
    intro b hb
    rcases List.mem_append.1 hb with hb | hb
    · exact Nat.lt_of_lt_of_le (h.serial_lt b hb) hmisses
    · rwa [List.mem_singleton.1 hb]
  case same =>
    intro b hb
    rcases List.mem_append.1 hb with hb | hb
    · exact h.same b hb
    · rwa [List.mem_singleton.1 hb]
  case cached?_eq =>
    intro l
    rw [hcached, h.cached?_eq, Answered.first?, Answered.first?, List.find?_append]
    cases answered.find? _ with
    | some first => rfl
    | none => by_cases hl : Fingerprint.ofIndices mode a.indices = .ofIndices mode l <;> simp [hl]
  case shared =>
    intro b hb first hfirst
    rcases List.mem_append.1 hb with hb | hb
    · exact h.shared b hb first (hold b hb first hfirst)
    · rw [List.mem_singleton.1 hb] at hfirst ⊢
      exact hshared first hfirst
  case alone =>
    refine List.pairwise_append.2 ⟨?_, List.pairwise_singleton _ _, ?_⟩
    · exact h.alone.imp_of_mem fun _ hc hbc hstamp first hfirst =>
        hbc hstamp first (hold _ hc first hfirst)
    · intro b hb c hc
      rw [List.mem_singleton.1 hc]
      exact halone b hb

variable [Scalar α]

/-- A request for registered lights is recorded. -/
theorem answer (h : frame.Records mode answered) {indices : List Nat}
    (hlt : ∀ index ∈ indices, index < frame.lights.size) {set : LightSet α}
    (hset : (Frame.answer mode indices).Answers frame set frame') :
    frame'.Records mode (answered ++ [⟨indices, set⟩]) := by
  have hfirst : ∀ {kept}, frame.cached? (.ofIndices mode indices) = some kept →
      ∃ first ∈ answered, first.set = kept ∧ ∀ first',
        Answered.first? mode (answered ++ [⟨indices, set⟩]) indices = some first' →
        first' = first := by
    intro kept hkept
    rw [h.cached?_eq] at hkept
    obtain ⟨first, hfirst, rfl⟩ := Option.map_eq_some_iff.1 hkept
    refine ⟨first, List.mem_of_find?_eq_some hfirst, rfl, fun first' hfirst' => ?_⟩
    rw [Answered.first?_append _ hfirst] at hfirst'
    exact (Option.some.inj hfirst').symm
  have hkeep : ∀ {kept}, frame.cached? (.ofIndices mode indices) = some kept → ∀ l,
      frame.cached? (.ofIndices mode l) = (frame.cached? (.ofIndices mode l)).or
        (if Fingerprint.ofIndices mode indices = .ofIndices mode l then some set else none) := by
    intro kept hkept l
    by_cases hl : Fingerprint.ofIndices mode indices = .ofIndices mode l
    · rw [← hl, hkept, Option.some_or]
    · rw [if_neg hl, Option.or_none]
  have hbuilt : (frame.build (.ofIndices mode indices) indices).indices = indices :=
    indices_build frame _ hlt
  obtain ⟨hkept, hsame, rfl⟩ | ⟨hnone, rfl, rfl⟩ | ⟨kept, hkept, hdiffers, rfl, rfl⟩ :=
    cases_of_answer hset
  · -- the kept set serves
    obtain ⟨first, hmem, rfl, hfirst⟩ := hfirst hkept
    have hsame' := (h.same first hmem).symm.trans hsame
    refine h.concat (Nat.le_refl _) (h.serial_lt first hmem) (hkeep hkept) hsame ?_ ?_
    · intro first' hfirst' _
      rw [hfirst first' hfirst']
    · intro b hb _ first' hfirst'
      rwa [hfirst first' hfirst']
  · -- a first request
    have hfirst : ∀ first, Answered.first? mode (answered ++
        [⟨indices, frame.build (.ofIndices mode indices) indices⟩]) indices = some first →
        first = ⟨indices, frame.build (.ofIndices mode indices) indices⟩ := by
      intro first hfirst
      rw [h.cached?_eq, Option.map_eq_none_iff] at hnone
      rw [Answered.first?, List.find?_append, ← Answered.first?, hnone] at hfirst
      simpa using hfirst.symm
    refine h.concat (Nat.le_succ _) (Nat.lt_succ_self _) (fun l => ?_) ?_ ?_ ?_
    · rw [cached?, List.find?_cons]
      by_cases hl : Fingerprint.ofIndices mode indices = .ofIndices mode l
      · rw [← hl, hnone]
        simp [build]
      · simp [build, hl, cached?]
    · rw [hbuilt]
      exact .refl mode indices
    · intro first' hfirst' _
      rw [hfirst first' hfirst']
    · intro b hb _ first' hfirst'
      rw [hfirst first' hfirst']
      exact .refl mode indices
  · -- another request of the same fingerprint
    obtain ⟨first, hmem, rfl, hfirst⟩ := hfirst hkept
    refine h.concat (Nat.le_succ _) (Nat.lt_succ_self _) (hkeep hkept) ?_ ?_ ?_
    · rw [hbuilt]
      exact .refl mode indices
    · intro first' hfirst' hsame
      rw [hfirst first' hfirst'] at hsame
      exact absurd ((h.same first hmem).trans hsame) hdiffers
    · intro b hb hstamp
      have := h.serial_lt b hb
      rw [hstamp] at this
      exact absurd this (Nat.lt_irrefl _)

end Frame.Records

/-! ### Sessions -/

/-- A manager with the requests that were answered in its frame so far, in order. -/
structure Session (α : Type) where
  manager : Manager α
  answered : List (Answered α)

namespace Session

variable [Scalar α]

/-- One use of a manager. -/
inductive Step (α : Type) where
  | beginFrame
  | decorate
  | register (node : NodeKey) (source : LightSource α) (world : Mat4 α)
  | prepare (camera : Camera α)
  | request (indices : List Nat)
  | select (camera : Camera α) (bound : Sphere α) (modelView : Mat4 α)

def step (s : Session α) : Step α → Session α
  | .beginFrame => ⟨(Manager.beginFrame s.manager).state, []⟩
  | .decorate => { s with manager := { s.manager with isDecorated := true } }
  | .register node source world => { s with manager := s.manager.register node source world }
  | .prepare camera => { s with manager := s.manager.prepare camera }
  | .request indices =>
    let o := Manager.request indices s.manager
    match o.result with
    | .ok set  => ⟨o.state, s.answered ++ [⟨indices, set⟩]⟩
    | .error _ => ⟨o.state, s.answered⟩
  | .select camera bound modelView =>
    let o := Manager.select camera bound modelView s.manager
    match o.result with
    | .ok (some set) =>
      ⟨o.state, s.answered ++ [⟨s.manager.wanted camera bound modelView, set⟩]⟩
    | _ => ⟨o.state, s.answered⟩

/-- A new manager after a run. -/
def after (settings : Settings) (run : List (Step α)) : Session α :=
  run.foldl step ⟨.new settings, []⟩

lemma after_concat (settings : Settings) (run : List (Step α)) (step : Step α) :
    after settings (run ++ [step]) = (after settings run).step step := by
  rw [after, List.foldl_append]
  rfl

/-! ### What a step does -/

/-- A request fails, and the session stays as it is, or it is answered and noted. -/
theorem request_cases (s : Session α) (indices : List Nat) :
    s.step (.request indices) = s ∨ ∃ set frame,
      indices.length ≤ s.manager.settings.cap ∧
      (∀ index ∈ indices, index < s.manager.frame.lights.size) ∧
      (Frame.answer s.manager.settings.mode indices).Answers s.manager.frame set frame ∧
      s.step (.request indices) =
        ⟨{ s.manager with frame }, s.answered ++ [⟨indices, set⟩]⟩ := by
  obtain ⟨part, fault, hf⟩ | ⟨hcap, hlt, ho⟩ := Manager.request_cases indices s.manager
  · exact Or.inl (by simp only [step, hf])
  · obtain ⟨set, frame, hanswer⟩ :=
      Frame.exists_answers s.manager.settings.mode indices s.manager.frame
    refine Or.inr ⟨set, frame, hcap, hlt, hanswer, ?_⟩
    simp only [step, ho, Manager.onFrame, Action.on_apply, hanswer.1, hanswer.2]

/-- A selection prepares, and then it makes a request that is answered and noted, if a light
touches. -/
theorem select_cases (s : Session α) (camera : Camera α) (bound : Sphere α) (modelView : Mat4 α) :
    s.step (.select camera bound modelView) = s.step (.prepare camera) ∨ ∃ frame set frame',
      (frame = (s.manager.prepare camera).frame ∨
        frame = (s.manager.prepare camera).frame.countTruncation) ∧
      (s.manager.wanted camera bound modelView).length ≤ s.manager.settings.cap ∧
      (∀ index ∈ s.manager.wanted camera bound modelView, index < frame.lights.size) ∧
      (Frame.answer s.manager.settings.mode (s.manager.wanted camera bound modelView)).Answers
        frame set frame' ∧
      s.step (.select camera bound modelView) = ⟨{ s.manager with frame := frame' },
        s.answered ++ [⟨s.manager.wanted camera bound modelView, set⟩]⟩ := by
  obtain ⟨-, hresult, hstate⟩ | ⟨-, frame, hframe, set, frame', hanswer, hresult, hstate⟩ :=
    Manager.select_cases camera bound modelView s.manager
  · exact Or.inl (by simp only [step, hresult, hstate])
  · have hlights := Frame.lights_of_counted hframe
    refine Or.inr ⟨frame, set, frame', hframe, List.length_take_le _ _, ?_, hanswer, ?_⟩
    · intro index hi
      rw [hlights]
      exact Manager.lt_size_of_mem_wanted camera bound modelView hi
    · simp only [step, hresult, hstate]

/-! ### Sound sessions -/

/-- The settings stay, and the cache comes from the requests that were answered. -/
structure Sound (settings : Settings) (s : Session α) : Prop where
  settings_eq : s.manager.settings = settings
  records : s.manager.frame.Records settings.mode s.answered

variable {settings : Settings} {s : Session α}

lemma Sound.request (h : s.Sound settings) (indices : List Nat) :
    (s.step (.request indices)).Sound settings := by
  obtain hs | ⟨set, frame, -, hlt, hanswer, hs⟩ := s.request_cases indices
  · rwa [hs]
  · rw [hs]
    exact ⟨h.settings_eq, h.records.answer hlt (h.settings_eq ▸ hanswer)⟩

lemma Sound.prepare (h : s.Sound settings) (camera : Camera α) :
    (s.step (.prepare camera)).Sound settings :=
  ⟨h.settings_eq, h.records.congr (Frame.cache_prepare _ _) (Frame.misses_prepare _ _)⟩

lemma Sound.select (h : s.Sound settings) (camera : Camera α) (bound : Sphere α)
    (modelView : Mat4 α) : (s.step (.select camera bound modelView)).Sound settings := by
  obtain hs | ⟨frame, set, frame', hframe, -, hlt, hanswer, hs⟩ :=
    s.select_cases camera bound modelView
  · rw [hs]
    exact h.prepare camera
  · have hrecords : frame.Records settings.mode s.answered := by
      rcases hframe with rfl | rfl
      · exact (h.prepare camera).records
      · exact (h.prepare camera).records.congr rfl rfl
    rw [hs]
    exact ⟨h.settings_eq, hrecords.answer hlt (h.settings_eq ▸ hanswer)⟩

lemma Sound.step (h : s.Sound settings) (step : Step α) : (s.step step).Sound settings := by
  cases step with
  | beginFrame => exact ⟨h.settings_eq, .blank _ _⟩
  | decorate => exact ⟨h.settings_eq, h.records⟩
  | register => exact ⟨h.settings_eq, h.records.congr rfl rfl⟩
  | prepare camera => exact h.prepare camera
  | request indices => exact h.request indices
  | select camera bound modelView => exact h.select camera bound modelView

/-- Every run is sound. -/
theorem sound_after (settings : Settings) (run : List (Step α)) :
    (after settings run).Sound settings := by
  induction run using List.reverseRecOn with
  | nil => exact ⟨rfl, .blank _ _⟩
  | append_singleton run step ih =>
    rw [after_concat]
    exact ih.step step

/-- Two requests of one frame that are the same get the same set if the first request of their
fingerprint was the same, and else two different ones. -/
theorem answered_again (settings : Settings) (run : List (Step α)) {i j : Nat} (hij : i < j)
    {a b : Answered α} (ha : (after settings run).answered[i]? = some a)
    (hb : (after settings run).answered[j]? = some b)
    (hsame : settings.mode.Same a.indices b.indices) :
    ∃ first, Answered.first? settings.mode (after settings run).answered a.indices = some first ∧
      (settings.mode.Same first.indices a.indices → a.set = b.set) ∧
      (¬settings.mode.Same first.indices a.indices → a.set.stamp ≠ b.set.stamp) := by
  have h := (sound_after settings run).records
  have hma := List.mem_of_getElem? ha
  have hmb := List.mem_of_getElem? hb
  obtain ⟨first, hfirst⟩ := Answered.exists_first? hma
  have hfirst' := Answered.first?_of_same hsame ▸ hfirst
  refine ⟨first, hfirst, fun hserved => ?_, fun hdiffers hstamp => hdiffers ?_⟩
  · calc a.set = first.set := h.shared a hma first hfirst hserved
      _ = b.set := (h.shared b hmb first hfirst' (hserved.trans hsame)).symm
  · obtain ⟨hi, rfl⟩ := List.getElem?_eq_some_iff.1 ha
    obtain ⟨hj, rfl⟩ := List.getElem?_eq_some_iff.1 hb
    have halone := List.pairwise_iff_getElem.1 h.alone i j hi hj hij hstamp first hfirst'
    exact halone.trans hsame.symm

/-- Enough lights for two lists that share a fingerprint, and requests for both. -/
def colliding : List (Step Float32) :=
  List.replicate 25 (.register ⟨2, 1⟩ .standard 1) ++
    [.request [6, 24], .request [8, 21], .request [6, 24], .request [8, 21]]

lemma answered_colliding : (after .standard colliding).answered.map
    (fun a => (a.indices, a.set.stamp)) =
      [([6, 24], ⟨0, 0⟩), ([8, 21], ⟨0, 1⟩), ([6, 24], ⟨0, 0⟩), ([8, 21], ⟨0, 2⟩)] := by
  decide +kernel

lemma exists_answered_colliding {i : Nat} {l : List Nat} {stamp : Stamp}
    (h : [([6, 24], ⟨0, 0⟩), ([8, 21], ⟨0, 1⟩), ([6, 24], ⟨0, 0⟩), ([8, 21], ⟨0, 2⟩)][i]? =
      some (l, stamp)) :
    ∃ a, (after .standard colliding).answered[i]? = some a ∧ a.indices = l ∧
      a.set.stamp = stamp := by
  rw [← answered_colliding, List.getElem?_map, Option.map_eq_some_iff] at h
  obtain ⟨a, ha, heq⟩ := h
  exact ⟨a, ha, congrArg Prod.fst heq, congrArg Prod.snd heq⟩

theorem answered_again_colliding : ∃ a b,
    (after .standard colliding).answered[0]? = some a ∧
      (after .standard colliding).answered[2]? = some b ∧ a.indices = [6, 24] ∧
      b.indices = [6, 24] ∧
      ∃ first,
        Answered.first? .ordered (after .standard colliding).answered a.indices = some first ∧
        (first.indices = a.indices → a.set = b.set) ∧
        (first.indices ≠ a.indices → a.set.stamp ≠ b.set.stamp) := by
  obtain ⟨a, ha, hia, -⟩ := exists_answered_colliding (i := 0) rfl
  obtain ⟨b, hb, hib, -⟩ := exists_answered_colliding (i := 2) rfl
  have hsame : Settings.standard.mode.Same a.indices b.indices := hia.trans hib.symm
  exact ⟨a, b, ha, hb, hia, hib, answered_again .standard colliding (by decide) ha hb hsame⟩

/-- A list that shares its fingerprint with an earlier one gets a new set each time. -/
theorem not_always_answered_again :
    ¬∀ (settings : Settings) (run : List (Step Float32)) (i j : Nat) (a b : Answered Float32),
      (after settings run).answered[i]? = some a → (after settings run).answered[j]? = some b →
      settings.mode.Same a.indices b.indices → a.set.stamp = b.set.stamp := by
  intro h
  obtain ⟨a, ha, hia, hsa⟩ := exists_answered_colliding (i := 1) rfl
  obtain ⟨b, hb, hib, hsb⟩ := exists_answered_colliding (i := 3) rfl
  have hstamp := h .standard colliding 1 3 a b ha hb (hia.trans hib.symm)
  rw [hsa, hsb] at hstamp
  exact absurd hstamp (by decide)

end Session

end SceneLighting
