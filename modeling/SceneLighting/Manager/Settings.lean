import SceneLighting.Fault
import SceneLighting.Manager.Fingerprint

/-!
# Settings of a light manager
-/

namespace SceneLighting

structure Settings where
  /-- The most lights that a node is lit by. -/
  cap : Nat
  mode : Fingerprint.Mode
  /-- Whether to log each time that more lights touch a node than the cap allows. -/
  logsTruncation : Bool
  deriving DecidableEq

namespace Settings

/-- The most lights that a shader takes. -/
def limit : Nat := 8

def standard : Settings :=
  ⟨limit, .ordered, true⟩

/-- The cap allows one light at least, and no more than a shader takes. -/
def check (settings : Settings) : Except Fault Unit :=
  if settings.cap = 0 ∨ limit < settings.cap then .error (.capOutOfRange limit settings.cap)
  else .ok ()

end Settings

end SceneLighting
