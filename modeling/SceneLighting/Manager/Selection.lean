import SceneLighting.Manager.Basic

/-!
# Selection

The lights that reach a part of the scene, found by their bounds.
-/

namespace SceneLighting

variable {α : Type} [Scalar α]

/-- The registry places of the lights whose bounds touch `bound`, in increasing order. -/
def touching (lights : Array (Registered α)) (bound : Sphere α) : List Nat :=
  (lights.toList.zipIdx.filter fun (entry, _) => entry.bound.Touches bound).map Prod.snd

namespace Manager

/-- Count, and report if the settings ask for it, that more lights touch than the cap allows. -/
def noteTruncation (touching : Nat) : Action (Manager α) Unit :=
  fun m =>
    if m.settings.cap < touching then
      ⟨.ok (), { m with frame := m.frame.countTruncation },
        if m.settings.logsTruncation then [.truncated touching m.settings.cap] else []⟩
    else ⟨.ok (), m, []⟩

/-- The set of the first lights that touch `bound`, as many as the cap allows, or none when no light
does. The bound is seen through `modelView`, and the lights by the camera. -/
def select (camera : Camera α) (bound : Sphere α) (modelView : Mat4 α) :
    Action (Manager α) (Option (LightSet α)) := do
  Action.modify fun m => m.prepare camera
  let m ← Action.get
  match touching m.frame.lights (bound.map modelView) with
  | []      => return none
  | indices =>
    noteTruncation indices.length
    let set ← request (indices.take m.settings.cap)
    return some set

end Manager

end SceneLighting
