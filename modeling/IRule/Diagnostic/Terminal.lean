import IRule.Diagnostic.Basic

/-!
# Diagnostics on a terminal

One line per diagnostic and one per note. With colours, the line stamp is bold
and the message has the colour of its severity.
-/

namespace IRule

/-- When to colour. -/
inductive ColorMode where
  | auto
  | always
  | never
deriving DecidableEq, Repr, Inhabited

namespace ColorMode

/-- The mode of a command line value. -/
def ofText? (text : String) : Option ColorMode :=
  if text == "auto" then some auto
  else if text == "always" then some always
  else if text == "never" then some never
  else none

/-- Command line value of the mode. -/
def text : ColorMode → String
  | auto => "auto"
  | always => "always"
  | never => "never"

/-- Whether to colour, given whether the output is a terminal. -/
def isOn (mode : ColorMode) (terminal : Bool) : Bool :=
  match mode with
  | auto => terminal
  | always => true
  | never => false

end ColorMode

namespace Terminal

/-- Graphic rendition for bold text. -/
def bold : String := "\x1b[1m"

/-- Graphic rendition for errors. -/
def redBold : String := "\x1b[1;31m"

/-- Graphic rendition for warnings. -/
def yellowBold : String := "\x1b[1;33m"

/-- Back to plain text. -/
def reset : String := "\x1b[0m"

/-- Text in a style, or plain when colours are off. -/
def paint (colors : Bool) (style text : String) : String :=
  if colors then style ++ text ++ reset else text

/-- Style of a message. -/
def messageStyle : Severity → String
  | .error => redBold
  | .warning => yellowBold

/-- Lines of one diagnostic. -/
def render (colors : Bool) (diagnostic : Diagnostic) : String :=
  let stamp :=
    match diagnostic.line with
    | some line => paint colors bold ("line " ++ toString line ++ ":") ++ " "
    | none => ""
  let notes := diagnostic.notes.map fun note => "     = note: " ++ note ++ "\n"
  "   " ++ stamp ++ paint colors (messageStyle diagnostic.severity) diagnostic.message ++ "\n" ++
    String.join notes

/-- Lines of all diagnostics, in order. -/
def renderAll (colors : Bool) (diagnostics : List Diagnostic) : String :=
  String.join (diagnostics.map (render colors))

end Terminal

end IRule
