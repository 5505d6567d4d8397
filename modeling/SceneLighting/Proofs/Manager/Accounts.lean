import SceneLighting.Proofs.Manager.Cache
import SceneLighting.Proofs.Manager.Candidates
import Mathlib.Data.List.Dedup

/-!
# The accounts of a frame

What a frame counts and keeps can be checked against a ledger of what happened in it: the requests
that were answered, with their sets, and what was reported. Every answer is counted once, a set is
kept for every fingerprint, and the misses that are not kept are those that were reported as
collisions.
-/

namespace SceneLighting

variable {α : Type}

/-! ### One frame -/

/-- The fingerprints of the requests. -/
def Answered.fingerprints (mode : Fingerprint.Mode) (answered : List (Answered α)) :
    List Fingerprint :=
  answered.map fun a => .ofIndices mode a.indices

lemma Answered.mem_fingerprints_concat {mode : Fingerprint.Mode} {answered : List (Answered α)}
    {a : Answered α} {fingerprint : Fingerprint} :
    fingerprint ∈ fingerprints mode (answered ++ [a]) ↔
      fingerprint ∈ fingerprints mode answered ∨ fingerprint = .ofIndices mode a.indices := by
  simp [fingerprints]

namespace Frame

lemma cached?_isSome_iff {frame : Frame α} {fingerprint : Fingerprint} :
    (frame.cached? fingerprint).isSome ↔
      fingerprint ∈ frame.cache.map LightSet.fingerprint := by
  simp [cached?, List.find?_isSome]

/-- The frame is the same for the accounts: the number, the cache and the counts of requests. -/
structure Alike (frame frame' : Frame α) : Prop where
  number_eq : frame'.number = frame.number
  cache_eq : frame'.cache = frame.cache
  hits_eq : frame'.stats.hits = frame.stats.hits
  misses_eq : frame'.stats.misses = frame.stats.misses

lemma alike_prepare [Scalar α] (frame : Frame α) (camera : Camera α) :
    Alike frame (frame.prepare camera) where
  number_eq := number_prepare _ _
  cache_eq := cache_prepare _ _
  hits_eq := hits_prepare _ _
  misses_eq := misses_prepare _ _

lemma number_eq_of_answer [Scalar α] {mode : Fingerprint.Mode} {indices : List Nat}
    {frame frame' : Frame α} {set : LightSet α} {log : List Event}
    (ho : answer mode indices frame = ⟨.ok set, frame', log⟩) : frame'.number = frame.number := by
  obtain ⟨_, -, -, ho'⟩ | ⟨-, ho'⟩ | ⟨_, -, -, ho'⟩ := answer_cases mode indices frame
  all_goals
    rw [ho'] at ho
    cases ho
    rfl

/-- What is counted and kept fits what was answered and reported. -/
structure Tallies (mode : Fingerprint.Mode) (frame : Frame α) (answered : List (Answered α))
    (log : List Event) : Prop where
  counted : frame.stats.hits + frame.stats.misses = answered.length
  nodup : (frame.cache.map LightSet.fingerprint).Nodup
  kept : ∀ fingerprint, fingerprint ∈ frame.cache.map LightSet.fingerprint ↔
    fingerprint ∈ Answered.fingerprints mode answered
  collided : frame.stats.misses = frame.cache.length + (Log.entriesOf .warn log).length
  frame_eq : ∀ a ∈ answered, a.set.stamp.frame = frame.number

namespace Tallies

variable {mode : Fingerprint.Mode} {frame frame' : Frame α} {answered : List (Answered α)}
  {log log' : List Event}

lemma blank (mode : Fingerprint.Mode) (number : Nat) (hlog : Log.entriesOf .warn log = []) :
    Tallies mode (Frame.blank number : Frame α) [] log where
  counted := rfl
  nodup := .nil
  kept _ := Iff.rfl
  collided := by simp [hlog, Frame.blank]
  frame_eq := by simp

lemma congr (h : frame.Tallies mode answered log) (halike : Alike frame frame')
    (hlog : Log.entriesOf .warn log' = []) : frame'.Tallies mode answered (log ++ log') where
  counted := by rw [halike.hits_eq, halike.misses_eq, h.counted]
  nodup := halike.cache_eq ▸ h.nodup
  kept := halike.cache_eq ▸ h.kept
  collided := by
    rw [halike.misses_eq, halike.cache_eq, Log.entriesOf_append, hlog, List.append_nil, h.collided]
  frame_eq := halike.number_eq ▸ h.frame_eq

/-- Distinct fingerprints were kept, each once. -/
lemma length_cache (h : frame.Tallies mode answered log) :
    frame.cache.length = (Answered.fingerprints mode answered).dedup.length := by
  rw [← List.length_map LightSet.fingerprint]
  apply List.Perm.length_eq
  refine (List.perm_ext_iff_of_nodup h.nodup (List.nodup_dedup _)).2 fun fingerprint => ?_
  rw [List.mem_dedup, h.kept]

variable [Scalar α]

/-- One more request. -/
theorem answer (h : frame.Tallies mode answered log) (hrecords : frame.Records mode answered)
    {indices : List Nat} {set : LightSet α}
    (ho : Frame.answer mode indices frame = ⟨.ok set, frame', log'⟩) :
    frame'.Tallies mode (answered ++ [⟨indices, set⟩]) (log ++ log') := by
  have hkept : ∀ {kept}, frame.cached? (.ofIndices mode indices) = some kept → ∀ fingerprint,
      fingerprint ∈ frame.cache.map LightSet.fingerprint ↔
        fingerprint ∈ Answered.fingerprints mode (answered ++ [⟨indices, set⟩]) := by
    intro kept hkept fingerprint
    have hmem := cached?_isSome_iff.1 (Option.isSome_of_mem hkept)
    rw [Answered.mem_fingerprints_concat, ← h.kept, iff_self_or]
    rintro rfl
    exact hmem
  have hframe : set.stamp.frame = frame.number →
      ∀ a ∈ answered ++ [⟨indices, set⟩], a.set.stamp.frame = frame.number := by
    intro hset a ha
    rcases List.mem_append.1 ha with ha | ha
    · exact h.frame_eq a ha
    · rwa [List.mem_singleton.1 ha]
  have hcounted := h.counted
  have hcollided := h.collided
  obtain ⟨kept, hkept', -, ho'⟩ | ⟨hnone, ho'⟩ | ⟨kept, hkept', -, ho'⟩ :=
    answer_cases mode indices frame
  all_goals
    rw [ho'] at ho
    cases ho
  · -- a hit
    constructor
    case counted =>
      simp only [countHit, List.length_append, List.length_singleton]
      omega
    case nodup => exact h.nodup
    case kept => exact hkept hkept'
    case collided =>
      rw [List.append_nil]
      exact hcollided
    case frame_eq =>
      refine hframe ?_
      rw [hrecords.cached?_eq] at hkept'
      obtain ⟨first, hfirst, rfl⟩ := Option.map_eq_some_iff.1 hkept'
      exact h.frame_eq first (List.mem_of_find?_eq_some hfirst)
  · -- a miss that is kept
    have hnot : Fingerprint.ofIndices mode indices ∉ frame.cache.map LightSet.fingerprint := by
      rw [← cached?_isSome_iff, hnone]
      simp
    constructor
    case counted =>
      simp only [countMiss, List.length_append, List.length_singleton]
      omega
    case nodup => exact List.nodup_cons.2 ⟨hnot, h.nodup⟩
    case kept =>
      intro fingerprint
      rw [Answered.mem_fingerprints_concat, ← h.kept, List.map_cons, List.mem_cons]
      exact or_comm
    case collided =>
      rw [List.append_nil]
      simp only [countMiss, List.length_cons]
      omega
    case frame_eq => exact hframe rfl
  · -- a miss that is not
    constructor
    case counted =>
      simp only [countMiss, List.length_append, List.length_singleton]
      omega
    case nodup => exact h.nodup
    case kept => exact hkept hkept'
    case collided =>
      rw [Log.entriesOf_append]
      simp only [countMiss, List.length_append]
      have : (Log.entriesOf .warn
          [Event.collided (.ofIndices mode indices) indices]).length = 1 := rfl
      omega
    case frame_eq => exact hframe rfl

end Tallies

end Frame

/-! ### Ledgers -/

/-- A session with what happened besides: the sets of earlier frames, and what was reported in this
one. -/
structure Ledger (α : Type) extends Session α where
  past : List (LightSet α)
  log : List Event

namespace Ledger

variable [Scalar α]

/-- What one use of a manager reports. -/
def report (m : Manager α) : Session.Step α → List Event
  | .beginFrame                    => (Manager.beginFrame m).log
  | .request indices               => (Manager.request indices m).log
  | .select camera bound modelView => (Manager.select camera bound modelView m).log
  | _                              => []

def step (l : Ledger α) (step : Session.Step α) : Ledger α :=
  match step with
  | .beginFrame =>
    ⟨l.toSession.step .beginFrame, l.past ++ l.answered.map Answered.set,
      report l.manager .beginFrame⟩
  | step => ⟨l.toSession.step step, l.past, l.log ++ report l.manager step⟩

/-- The ledger of a new manager after a run. -/
def after (settings : Settings) (run : List (Session.Step α)) : Ledger α :=
  run.foldl step ⟨⟨.new settings, []⟩, [], []⟩

lemma after_concat (settings : Settings) (run : List (Session.Step α)) (step : Session.Step α) :
    after settings (run ++ [step]) = (after settings run).step step := by
  rw [after, List.foldl_append]
  rfl

lemma toSession_step (l : Ledger α) (step : Session.Step α) :
    (l.step step).toSession = l.toSession.step step := by
  cases step <;> rfl

/-- A ledger does not change what it is about. -/
lemma toSession_after (settings : Settings) (run : List (Session.Step α)) :
    (after settings run).toSession = Session.after settings run := by
  induction run using List.reverseRecOn with
  | nil => rfl
  | append_singleton run step ih => rw [after_concat, toSession_step, ih, Session.after_concat]

/-- The accounts are right for this frame, and the sets of earlier frames are known by theirs. -/
structure Sound (settings : Settings) (l : Ledger α) : Prop extends
    l.toSession.Sound settings where
  tallies : l.manager.frame.Tallies settings.mode l.answered l.log
  past_lt : ∀ set ∈ l.past, set.stamp.frame < l.manager.frame.number

variable {settings : Settings} {l : Ledger α}

/-! ### One step -/

omit [Scalar α] in
/-- A step that answers nothing and reports no collision. -/
lemma Sound.congr (h : l.Sound settings) {m : Manager α} {log : List Event}
    (hsound : Session.Sound settings ⟨m, l.answered⟩) (halike : l.manager.frame.Alike m.frame)
    (hlog : Log.entriesOf .warn log = []) :
    Sound settings ⟨⟨m, l.answered⟩, l.past, l.log ++ log⟩ where
  toSound := hsound
  tallies := h.tallies.congr halike hlog
  past_lt := halike.number_eq ▸ h.past_lt

/-- A step that makes a request which is answered. -/
lemma Sound.concat (h : l.Sound settings) {indices : List Nat} {frame frame' : Frame α}
    {set : LightSet α} {log log' : List Event}
    (hsound : Session.Sound settings
      ⟨{ l.manager with frame := frame' }, l.answered ++ [⟨indices, set⟩]⟩)
    (halike : l.manager.frame.Alike frame) (hlog : Log.entriesOf .warn log = [])
    (ho : Frame.answer settings.mode indices frame = ⟨.ok set, frame', log'⟩) :
    Sound settings ⟨⟨{ l.manager with frame := frame' }, l.answered ++ [⟨indices, set⟩]⟩, l.past,
      l.log ++ (log ++ log')⟩ where
  toSound := hsound
  tallies := by
    rw [← List.append_assoc]
    exact (h.tallies.congr halike hlog).answer
      (h.records.congr halike.cache_eq halike.misses_eq) ho
  past_lt set hset := by
    show _ < frame'.number
    rw [Frame.number_eq_of_answer ho, halike.number_eq]
    exact h.past_lt set hset

lemma Sound.request (h : l.Sound settings) (indices : List Nat) :
    (l.step (.request indices)).Sound settings := by
  have hsound := h.toSound.request indices
  cases hcheck : l.manager.checkIndices indices with
  | error fault =>
    have ho := Manager.request_of_error hcheck
    simp only [Session.step, ho] at hsound
    simp only [Ledger.step, Session.step, report, ho]
    exact h.congr hsound ⟨rfl, rfl, rfl, rfl⟩ rfl
  | ok =>
    obtain ⟨hcap, hlt⟩ := Manager.checkIndices_eq_ok.1 hcheck
    obtain ⟨set, frame, log, hanswer, ho⟩ := Manager.exists_request hcap hlt
    rw [h.settings_eq] at hanswer
    simp only [Session.step, ho] at hsound
    simp only [Ledger.step, Session.step, report, ho]
    -- before the request is made nothing is reported
    have hlog : Log.entriesOf .warn ([] : List Event) = [] := rfl
    exact h.concat hsound ⟨rfl, rfl, rfl, rfl⟩ hlog hanswer

lemma Sound.select (h : l.Sound settings) (camera : Camera α) (bound : Sphere α)
    (modelView : Mat4 α) : (l.step (.select camera bound modelView)).Sound settings := by
  have hsound := h.toSound.select camera bound modelView
  have hprepare := l.manager.frame.alike_prepare camera
  generalize htouching :
    touching (l.manager.prepare camera).frame.lights (bound.map modelView) = touched
  by_cases hne : touched = []
  case pos =>
    subst hne
    have ho := Manager.select_of_touching_eq_nil camera bound modelView htouching
    simp only [Session.step, ho] at hsound
    simp only [Ledger.step, Session.step, report, ho]
    exact h.congr hsound hprepare rfl
  case neg =>
    obtain ⟨set, frame, log, hanswer, ho⟩ :=
      Manager.exists_select camera bound modelView htouching hne
    rw [h.settings_eq] at hanswer
    simp only [Session.step, ho] at hsound
    simp only [Ledger.step, Session.step, report, ho]
    refine h.concat hsound ?_ ?_ hanswer
    · exact ⟨hprepare.number_eq, hprepare.cache_eq, hprepare.hits_eq, hprepare.misses_eq⟩
    · rw [Manager.truncationLog]
      split <;> rfl

lemma Sound.beginFrame (h : l.Sound settings) : (l.step .beginFrame).Sound settings where
  toSound := h.toSound.step .beginFrame
  tallies := .blank _ _ rfl
  past_lt := by
    intro set hset
    refine Nat.lt_succ_of_le ?_
    rcases List.mem_append.1 hset with hset | hset
    · exact Nat.le_of_lt (h.past_lt set hset)
    · obtain ⟨a, ha, rfl⟩ := List.mem_map.1 hset
      exact Nat.le_of_eq (h.tallies.frame_eq a ha)

theorem Sound.step (h : l.Sound settings) (step : Session.Step α) :
    (l.step step).Sound settings := by
  cases step with
  | beginFrame => exact h.beginFrame
  | decorate => exact h.congr (h.toSound.step .decorate) ⟨rfl, rfl, rfl, rfl⟩ rfl
  | register node source world =>
    exact h.congr (h.toSound.step (.register node source world)) ⟨rfl, rfl, rfl, rfl⟩ rfl
  | prepare camera =>
    exact h.congr (h.toSound.step (.prepare camera)) (l.manager.frame.alike_prepare camera) rfl
  | request indices => exact h.request indices
  | select camera bound modelView => exact h.select camera bound modelView

/-- The accounts are right after every run. -/
theorem sound_after (settings : Settings) (run : List (Session.Step α)) :
    (after settings run).Sound settings := by
  induction run using List.reverseRecOn with
  | nil => exact ⟨Session.sound_after settings [], .blank _ _ rfl, by simp [after]⟩
  | append_singleton run step ih =>
    rw [after_concat]
    exact ih.step step

/-! ### The next request -/

/-- What a request comes to is told by the ledger. -/
structure Foretells (l : Ledger α) (indices : List Nat)
    (o : Outcome (Manager α) (LightSet α)) : Prop where
  /-- A list that is too long is rejected, whatever is in it. -/
  capExceeded : l.manager.settings.cap < indices.length →
    o = ⟨.error (.capExceeded indices.length l.manager.settings.cap), l.manager,
      [.failed .manager (.capExceeded indices.length l.manager.settings.cap)]⟩
  /-- Of the indices that are out of range the first is told. -/
  notRegistered : indices.length ≤ l.manager.settings.cap → ∀ index,
    indices.find? (fun index => l.manager.frame.lights.size ≤ index) = some index →
    o = ⟨.error (.lightNotRegistered index l.manager.frame.lights.size), l.manager,
      [.failed .manager (.lightNotRegistered index l.manager.frame.lights.size)]⟩
  answered : indices.length ≤ l.manager.settings.cap →
    (∀ index ∈ indices, index < l.manager.frame.lights.size) → ∃ set, o.result = .ok set ∧
    ((∃ first, Answered.first? l.manager.settings.mode l.answered indices = some first ∧
        l.manager.settings.mode.Same first.indices indices ∧ set = first.set ∧
        o.state.frame.stats.hits = l.manager.frame.stats.hits + 1 ∧
        o.state.frame.stats.misses = l.manager.frame.stats.misses) ∨
      (∀ first, Answered.first? l.manager.settings.mode l.answered indices = some first →
        ¬l.manager.settings.mode.Same first.indices indices) ∧
        (∀ earlier ∈ l.past ++ l.answered.map Answered.set, set.stamp ≠ earlier.stamp) ∧
        o.state.frame.stats.hits = l.manager.frame.stats.hits ∧
        o.state.frame.stats.misses = l.manager.frame.stats.misses + 1)

lemma Sound.foretells (h : l.Sound settings) (indices : List Nat) :
    l.Foretells indices (Manager.request indices l.manager) := by
  constructor
  case capExceeded =>
    intro hcap
    apply Manager.request_of_error
    rw [Manager.checkIndices, if_pos hcap]
  case notRegistered =>
    intro hcap index hfind
    apply Manager.request_of_error
    rw [Manager.checkIndices, if_neg (Nat.not_lt.2 hcap), hfind]
  case answered =>
    intro hcap hlt
    obtain ⟨set, frame, log, hanswer, ho⟩ := Manager.exists_request hcap hlt
    rw [h.settings_eq] at hanswer ⊢
    rw [ho]
    refine ⟨set, rfl, ?_⟩
    have hcached := h.records.cached?_eq indices
    -- a set that is made now has a stamp that no earlier one has
    have hfresh : ∀ earlier ∈ l.past ++ l.answered.map Answered.set,
        (l.manager.frame.build (.ofIndices settings.mode indices) indices).stamp ≠
          earlier.stamp := by
      intro earlier hearlier hstamp
      rcases List.mem_append.1 hearlier with hearlier | hearlier
      · have hframe := h.past_lt earlier hearlier
        rw [← hstamp] at hframe
        exact Nat.lt_irrefl _ hframe
      · obtain ⟨a, ha, rfl⟩ := List.mem_map.1 hearlier
        have hserial := h.records.serial_lt a ha
        rw [← hstamp] at hserial
        exact Nat.lt_irrefl _ hserial
    obtain ⟨kept, hkept, hsame, ho'⟩ | ⟨hnone, ho'⟩ | ⟨kept, hkept, hdiffers, ho'⟩ :=
      Frame.answer_cases settings.mode indices l.manager.frame
    all_goals
      rw [ho'] at hanswer
      cases hanswer
    · rw [hcached, Option.map_eq_some_iff] at hkept
      obtain ⟨first, hfirst, rfl⟩ := hkept
      have hmem := List.mem_of_find?_eq_some hfirst
      exact Or.inl ⟨first, hfirst, (h.records.same first hmem).symm.trans hsame, rfl, rfl, rfl⟩
    · rw [hcached, Option.map_eq_none_iff] at hnone
      exact Or.inr ⟨by simp [hnone], hfresh, rfl, rfl⟩
    · rw [hcached, Option.map_eq_some_iff] at hkept
      obtain ⟨first, hfirst, rfl⟩ := hkept
      have hmem := List.mem_of_find?_eq_some hfirst
      refine Or.inr ⟨fun first' hfirst' hsame => hdiffers ?_, hfresh, rfl, rfl⟩
      obtain rfl : first' = first := Option.some.inj (hfirst'.symm.trans hfirst)
      exact (h.records.same first' hmem).trans hsame

/-- The counts of a frame are those of what was answered, kept and reported in it. -/
structure Balanced (l : Ledger α) : Prop where
  answered_eq : l.manager.frame.stats.hits + l.manager.frame.stats.misses = l.answered.length
  cache_eq : l.manager.frame.cache.length =
    (Answered.fingerprints l.manager.settings.mode l.answered).dedup.length
  collided_eq : l.manager.frame.stats.misses =
    l.manager.frame.cache.length + (Log.entriesOf .warn l.log).length
  warned : ∀ entry ∈ Log.entriesOf .warn l.log, ∃ fingerprint indices,
    .collided fingerprint indices ∈ l.log ∧ entry = (Event.collided fingerprint indices).entry

/-- After every run the accounts are balanced, and the ledger foretells every request. -/
theorem accounts_in_full (settings : Settings) (run : List (Session.Step α)) :
    (after settings run).Balanced ∧ ∀ indices,
      (after settings run).Foretells indices
        (Manager.request indices (after settings run).manager) := by
  have h := sound_after settings run
  refine ⟨⟨h.tallies.counted, ?_, h.tallies.collided,
    fun _ => Log.exists_of_mem_entriesOf_warn⟩, h.foretells⟩
  rw [h.settings_eq]
  exact h.tallies.length_cache

example : let l := after .standard Session.colliding
    (l.manager.frame.stats.hits, l.manager.frame.stats.misses, l.manager.frame.cache.length,
      (Log.entriesOf .warn l.log).length) = (1, 3, 1, 2) := by
  decide +kernel

end Ledger

end SceneLighting
