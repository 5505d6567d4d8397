import SceneLighting.Log.Entry

/-!
# Console lines

The line that a console shows for an entry. In colour, the label is set in the colour of the
severity and the source in a bright blue.
-/

namespace SceneLighting.Log

/-- A way to set text, by the codes of its escape sequence. -/
structure Style where
  codes : String

namespace Style

def source : Style := ⟨"94"⟩

def label : Severity → Style
  | .trace => ⟨"90"⟩
  | .debug => ⟨"36"⟩
  | .info  => ⟨"32"⟩
  | .warn  => ⟨"33"⟩
  | .error => ⟨"1;31"⟩

def opening (style : Style) : String :=
  "\x1b[" ++ style.codes ++ "m"

/-- The sequence that ends every style. -/
def closing : String :=
  "\x1b[0m"

/-- Set a text in a style. Where the text itself ends all styles, this one is begun again. -/
def set (style : Style) (text : String) : String :=
  style.opening ++ text.replace closing (closing ++ style.opening) ++ closing

end Style

/-- The written form of a site, behind the message. -/
def siteSuffix : Option Site → String
  | none                     => ""
  | some .here               => " (HERE)"
  | some (.line file number) => s!" ({file}:{number})"

/-- The line for an entry made at a given time. -/
def consoleLine (colored : Bool) (time : String) (entry : Entry) : String :=
  let label := entry.severity.label
  let label := if colored then (Style.label entry.severity).set label else label
  let source := if colored then Style.source.set entry.source else entry.source
  s!"[{time}] [{label}] [{source}] {entry.message}" ++ siteSuffix entry.site ++ "\n"

end SceneLighting.Log
