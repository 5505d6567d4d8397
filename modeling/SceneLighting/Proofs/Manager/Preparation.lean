import SceneLighting.Proofs.Manager.Cache
import SceneLighting.Proofs.Manager.Selection

/-!
# The bounds of a prepared frame

A frame remembers the view that its bounds were computed for, and computes them again for another
view only. A light that is registered after that has no bound, and gets none by preparing for the
same view again.
-/

namespace SceneLighting

variable {α : Type} [Scalar α]

namespace Frame

variable {frame frame' : Frame α} {camera : Camera α} {view : Mat4 α} {count : Nat}

/-- The first `count` lights have the bounds that a camera of this view sees, and the others have
none. -/
def Seen (frame : Frame α) (view : Mat4 α) (count : Nat) : Prop :=
  ∀ (index : Nat) (entry : Registered α), frame.lights[index]? = some entry →
    entry.bound =
      if index < count then Sphere.map (view * entry.world) ⟨0, entry.source.radius⟩ else .invalid

lemma Seen.congr (h : frame.Seen view count) (hlights : frame'.lights = frame.lights) :
    frame'.Seen view count := by
  intro index entry hentry
  rw [hlights] at hentry
  exact h index entry hentry

lemma Seen.register (h : frame.Seen view count) (hcount : count ≤ frame.lights.size)
    (node : NodeKey) (source : LightSource α) (world : Mat4 α) :
    (frame.register node source world).Seen view count := by
  intro index entry hentry
  rw [Frame.register, Array.getElem?_push] at hentry
  split at hentry
  next hlast =>
    obtain rfl := Option.some.inj hentry
    rw [if_neg (by omega)]
  next => exact h index entry hentry

/-- Bounds are computed for all lights that are registered. -/
lemma seen_prepare (h : frame.isPreparedFor camera = false) :
    (frame.prepare camera).Seen camera.view frame.lights.size := by
  intro index entry hentry
  rw [prepare, h, if_neg Bool.false_ne_true, Array.getElem?_map, Option.map_eq_some_iff] at hentry
  obtain ⟨old, hold, rfl⟩ := hentry
  rw [if_pos (Array.getElem?_eq_some_iff.1 hold).1]
  rfl

lemma prepare_of_isPreparedFor (h : frame.isPreparedFor camera) :
    frame.prepare camera = frame := by
  rw [prepare, if_pos h]

lemma exists_of_isPreparedFor (h : frame.isPreparedFor camera) :
    ∃ view, frame.preparedView = some view ∧ view == camera.view := by
  rw [isPreparedFor] at h
  cases hview : frame.preparedView with
  | none => simp [hview] at h
  | some view =>
    rw [hview] at h
    exact ⟨view, rfl, h⟩

/-- Preparing for a camera whose view is equal to itself succeeds. -/
lemma isPreparedFor_prepare (frame : Frame α) (h : camera.view == camera.view) :
    (frame.prepare camera).isPreparedFor camera := by
  rw [prepare]
  split
  next hprepared => exact hprepared
  next => exact h

end Frame

namespace Session

variable {settings : Settings} {run earlier later : List (Step α)} {step : Step α} {view : Mat4 α}

/-- A step that needs the bounds for a view. -/
def Step.Prepares : Step α → Mat4 α → Prop
  | .prepare camera, view    => camera.view = view
  | .select camera _ _, view => camera.view = view
  | _, _                     => False

def Step.isRegister : Step α → Bool
  | .register _ _ _ => true
  | _               => false

/-- The bounds of a run were computed in `step`, in the same frame. What was registered before it
has the bound for its view, and what was registered later has none. -/
structure PreparedBy (settings : Settings) (run earlier : List (Step α)) (step : Step α)
    (later : List (Step α)) (view : Mat4 α) : Prop where
  run_eq : run = earlier ++ step :: later
  prepares : step.Prepares view
  same_frame : .beginFrame ∉ later
  size_eq : (after settings run).manager.frame.lights.size =
    (after settings earlier).manager.frame.lights.size + later.countP Step.isRegister
  seen : (after settings run).manager.frame.Seen view
    (after settings earlier).manager.frame.lights.size

/-! ### What a step does to the bounds -/

lemma request_bounds (s : Session α) (indices : List Nat) :
    (s.step (.request indices)).manager.frame.lights = s.manager.frame.lights ∧
      (s.step (.request indices)).manager.frame.preparedView = s.manager.frame.preparedView := by
  obtain hs | ⟨set, frame, -, -, hanswer, hs⟩ := s.request_cases indices
  · rw [hs]
    exact ⟨rfl, rfl⟩
  · obtain ⟨hlights, -, hview⟩ := Frame.eq_of_answer hanswer
    rw [hs]
    exact ⟨hlights, hview⟩

/-- A selection prepares, and then leaves the bounds as they are. -/
lemma select_bounds (s : Session α) (camera : Camera α) (bound : Sphere α)
    (modelView : Mat4 α) :
    (s.step (.select camera bound modelView)).manager.frame.lights =
        (s.manager.frame.prepare camera).lights ∧
      (s.step (.select camera bound modelView)).manager.frame.preparedView =
        (s.manager.frame.prepare camera).preparedView := by
  obtain hs | ⟨frame, set, frame', hframe, -, -, hanswer, hs⟩ :=
    s.select_cases camera bound modelView
  · rw [hs]
    exact ⟨rfl, rfl⟩
  · obtain ⟨hlights, -, hview⟩ := Frame.eq_of_answer hanswer
    simp only [hs, hlights, hview]
    rcases hframe with rfl | rfl <;> exact ⟨rfl, rfl⟩

namespace PreparedBy

/-- One more step of the same frame. -/
lemma snoc (h : PreparedBy settings run earlier step later view) {next : Step α}
    (hframe : next ≠ .beginFrame)
    (hsize : (after settings (run ++ [next])).manager.frame.lights.size =
      (after settings run).manager.frame.lights.size + if next.isRegister then 1 else 0)
    (hseen : (after settings (run ++ [next])).manager.frame.Seen view
      (after settings earlier).manager.frame.lights.size) :
    PreparedBy settings (run ++ [next]) earlier step (later ++ [next]) view where
  run_eq := by rw [h.run_eq, List.append_assoc, List.cons_append]
  prepares := h.prepares
  same_frame hmem := by
    rcases List.mem_append.1 hmem with hmem | hmem
    · exact h.same_frame hmem
    · exact hframe (List.mem_singleton.1 hmem).symm
  size_eq := by
    rw [hsize, h.size_eq, List.countP_append, List.countP_singleton, Nat.add_assoc]
  seen := hseen

/-- A step that registers nothing and leaves the bounds as they are. -/
lemma concat (h : PreparedBy settings run earlier step later view) {next : Step α}
    (hframe : next ≠ .beginFrame) (hregister : next.isRegister = false)
    (hlights : (after settings (run ++ [next])).manager.frame.lights =
      (after settings run).manager.frame.lights) :
    PreparedBy settings (run ++ [next]) earlier step (later ++ [next]) view := by
  apply h.snoc hframe
  · rw [hlights, hregister]
    rfl
  · exact h.seen.congr hlights

lemma register (h : PreparedBy settings run earlier step later view) (node : NodeKey)
    (source : LightSource α) (world : Mat4 α) :
    PreparedBy settings (run ++ [.register node source world]) earlier step
      (later ++ [.register node source world]) view := by
  have hcount : (after settings earlier).manager.frame.lights.size ≤
      (after settings run).manager.frame.lights.size := by
    rw [h.size_eq]
    exact Nat.le_add_right _ _
  refine h.snoc (by simp) ?_ ?_
  · rw [after_concat]
    exact Array.size_push _
  · rw [after_concat]
    exact h.seen.register hcount node source world

/-- When no light was registered late, all lights have their bounds. -/
theorem bound_eq (h : PreparedBy settings run earlier step later view)
    (hlate : later.countP Step.isRegister = 0) :
    ∀ entry ∈ (after settings run).manager.frame.lights,
      entry.bound = Sphere.map (view * entry.world) ⟨0, entry.source.radius⟩ := by
  intro entry hmem
  obtain ⟨index, hentry⟩ := Array.mem_iff_getElem?.1 hmem
  have hlt := (Array.getElem?_eq_some_iff.1 hentry).1
  rw [h.size_eq, hlate, Nat.add_zero] at hlt
  rw [h.seen index entry hentry, if_pos hlt]

end PreparedBy

/-- Where a view is remembered, the bounds were computed for it. -/
def Prepared (settings : Settings) (run : List (Step α)) : Prop :=
  ∀ view, (after settings run).manager.frame.preparedView = some view →
    ∃ earlier step later, PreparedBy settings run earlier step later view

namespace Prepared

lemma concat (h : Prepared settings run) {next : Step α} (hframe : next ≠ .beginFrame)
    (hregister : next.isRegister = false)
    (hlights : (after settings (run ++ [next])).manager.frame.lights =
      (after settings run).manager.frame.lights)
    (hview : (after settings (run ++ [next])).manager.frame.preparedView =
      (after settings run).manager.frame.preparedView) : Prepared settings (run ++ [next]) := by
  intro view hv
  obtain ⟨earlier, step, later, hby⟩ := h view (hview.symm.trans hv)
  exact ⟨earlier, step, later ++ [next], hby.concat hframe hregister hlights⟩

/-- A step that prepares for a camera computes the bounds, unless they are those for its view. -/
lemma prepare (h : Prepared settings run) {next : Step α} {camera : Camera α}
    (hprepares : next.Prepares camera.view)
    (hlights : (after settings (run ++ [next])).manager.frame.lights =
      ((after settings run).manager.frame.prepare camera).lights)
    (hview : (after settings (run ++ [next])).manager.frame.preparedView =
      ((after settings run).manager.frame.prepare camera).preparedView) :
    Prepared settings (run ++ [next]) := by
  cases hp : (after settings run).manager.frame.isPreparedFor camera with
  | true =>
    rw [Frame.prepare_of_isPreparedFor hp] at hlights hview
    refine h.concat ?_ ?_ hlights hview
    · rintro rfl
      exact hprepares
    · cases next with
      | register => exact hprepares.elim
      | _ => rfl
  | false =>
    intro view hv
    rw [hview, Frame.prepare, hp, if_neg Bool.false_ne_true] at hv
    obtain rfl := Option.some.inj hv
    refine ⟨run, next, [], rfl, hprepares, List.not_mem_nil, ?_, ?_⟩
    · rw [hlights, ← ((after settings run).manager.frame.sameLights_prepare camera).size_eq]
      rfl
    · exact (Frame.seen_prepare hp).congr hlights

end Prepared

theorem prepared_after (settings : Settings) (run : List (Step α)) : Prepared settings run := by
  induction run using List.reverseRecOn with
  | nil => exact nofun
  | append_singleton run next ih =>
    cases next with
    | beginFrame =>
      intro view hv
      rw [after_concat] at hv
      cases hv
    | decorate => exact ih.concat nofun rfl (by rw [after_concat]; rfl) (by rw [after_concat]; rfl)
    | register node source world =>
      intro view hv
      rw [after_concat] at hv
      obtain ⟨earlier, step, later, hby⟩ := ih view hv
      exact ⟨earlier, step, _, hby.register node source world⟩
    | prepare camera => exact ih.prepare rfl (by rw [after_concat]; rfl) (by rw [after_concat]; rfl)
    | request indices =>
      obtain ⟨hlights, hview⟩ := request_bounds (after settings run) indices
      exact ih.concat nofun rfl (by rw [after_concat, hlights]) (by rw [after_concat, hview])
    | select camera bound modelView =>
      obtain ⟨hlights, hview⟩ := select_bounds (after settings run) camera bound modelView
      exact ih.prepare rfl (by rw [after_concat, hlights]) (by rw [after_concat, hview])

/-- A frame that was just prepared takes itself to be so. While it does, the lights that were
registered before the bounds were computed have those for an equal view, and the lights registered
later have none. -/
theorem bounds_of_isPreparedFor (settings : Settings) (run : List (Step α)) (camera : Camera α) :
    (camera.view == camera.view →
      ((after settings run).manager.frame.prepare camera).isPreparedFor camera) ∧
    ((after settings run).manager.frame.isPreparedFor camera → ∃ view earlier step later,
      (after settings run).manager.frame.preparedView = some view ∧ view == camera.view ∧
      PreparedBy settings run earlier step later view) := by
  refine ⟨Frame.isPreparedFor_prepare _, fun h => ?_⟩
  obtain ⟨view, hview, hequal⟩ := Frame.exists_of_isPreparedFor h
  obtain ⟨earlier, step, later, hby⟩ := prepared_after settings run view hview
  exact ⟨view, earlier, step, later, hview, hequal, hby⟩

/-- A light is registered after the frame was prepared, and then the frame is prepared again. -/
def preparedEarly : List (Step Float32) :=
  [.prepare .identity, .register ⟨2, 1⟩ ⟨.standard, 1⟩ 1, .prepare .identity]

lemma isPreparedFor_preparedEarly :
    (after .standard preparedEarly).manager.frame.isPreparedFor .identity := by
  decide +kernel

theorem bounds_preparedEarly :
    ((after .standard preparedEarly).manager.frame.prepare .identity).isPreparedFor .identity ∧
      ∃ view earlier step later,
        (after .standard preparedEarly).manager.frame.preparedView = some view ∧
        view == Camera.identity.view ∧
        PreparedBy .standard preparedEarly earlier step later view := by
  obtain ⟨hprepare, hbounds⟩ := bounds_of_isPreparedFor .standard preparedEarly .identity
  exact ⟨hprepare (by decide +kernel), hbounds isPreparedFor_preparedEarly⟩

/-- A light that was registered late has no bound, though the frame takes itself to be prepared. -/
theorem not_always_seen_of_isPreparedFor :
    ¬∀ (settings : Settings) (run : List (Step Float32)) (camera : Camera Float32),
      (after settings run).manager.frame.isPreparedFor camera →
      ∃ view, (after settings run).manager.frame.preparedView = some view ∧
        view == camera.view ∧ ∀ entry ∈ (after settings run).manager.frame.lights,
          entry.bound = Sphere.map (view * entry.world) ⟨0, entry.source.radius⟩ := by
  intro h
  obtain ⟨view, hview, -, hseen⟩ := h .standard preparedEarly .identity isPreparedFor_preparedEarly
  have hvalid : ((after .standard preparedEarly).manager.frame.preparedView.map fun view =>
      (after .standard preparedEarly).manager.frame.lights.toList.map fun entry =>
        (decide entry.bound.IsValid,
          decide (Sphere.map (view * entry.world) ⟨0, entry.source.radius⟩).IsValid)) =
      some [(false, true)] := by
    decide +kernel
  rw [hview, Option.map_some, Option.some.injEq, List.map_eq_singleton_iff] at hvalid
  obtain ⟨entry, hlights, hentry⟩ := hvalid
  have hmem : entry ∈ (after .standard preparedEarly).manager.frame.lights := by
    rw [← Array.mem_toList_iff, hlights]
    exact List.mem_singleton_self entry
  simp [hseen entry hmem] at hentry

end Session

end SceneLighting
