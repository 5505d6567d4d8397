import SceneLighting.Log.Console

/-!
# Receivers

All entries go to one receiver, which can be exchanged. It prints them or keeps them.
-/

namespace SceneLighting.Log

inductive Receiver where
  /-- Prints on the console, without colour. -/
  | console
  /-- Keeps the entries, under a name of its own. -/
  | keeper (name : String)

/-- What became of an entry. -/
inductive Delivery where
  | printed (line : String)
  | kept (name : String) (entry : Entry)

def Receiver.deliver (time : String) (entry : Entry) : Receiver → Delivery
  | .console     => .printed (consoleLine false time entry)
  | .keeper name => .kept name entry

end SceneLighting.Log
