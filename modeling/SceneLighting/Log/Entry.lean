/-!
# Log entries
-/

namespace SceneLighting.Log

/-- How grave an entry is, from the least grave on. -/
inductive Severity where
  | trace
  | debug
  | info
  | warn
  | error
  deriving DecidableEq, Ord

/-- The label of a severity, five characters wide. -/
def Severity.label : Severity → String
  | .trace => "TRACE"
  | .debug => "DEBUG"
  | .info  => "INFO "
  | .warn  => "WARN "
  | .error => "ERROR"

/-- The place that an entry was made at. -/
inductive Site where
  /-- The place in the program that makes the entry, whichever that is. -/
  | here
  | line (file : String) (number : Nat)

/-- A place is known when both its file and its line are. -/
def Site.ofParts? : Option String → Option Nat → Option Site
  | some file, some number => some (.line file number)
  | _, _                   => none

/-- The place itself, when the entry is made at a line of a file. -/
def Site.resolve (file : String) (number : Nat) : Site → Site
  | .here => .line file number
  | site  => site

structure Entry where
  severity : Severity
  /-- The part of the program that speaks. -/
  source : String
  message : String
  site : Option Site

/-- The entry as it is made at a line of a file. -/
def Entry.madeAt (file : String) (number : Nat) (entry : Entry) : Entry :=
  { entry with site := entry.site.map (Site.resolve file number) }

end SceneLighting.Log
