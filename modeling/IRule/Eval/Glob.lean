/-!
# Glob patterns

`*` matches any run of characters, `?` any one character, `[...]` one of the
characters and ranges listed, a backslash the character after it, and any other
character itself.

Elements in front of the first run have to stand at the start of the text, those
behind a run at the first place where they fit. Of all runs only the last one
passed is ever made longer.
-/

namespace IRule.Glob

/-- A member of a character set. -/
inductive Item where
  | single (char : Char)
  | range (low high : Char)
deriving DecidableEq, Repr, Inhabited

/-- Whether a member of a set covers a character. -/
def Item.covers : Item → Char → Bool
  | .single listed, char => listed == char
  | .range low high, char => decide (low ≤ char) && decide (char ≤ high)

/-- An element of a pattern. -/
inductive Element where
  /-- Any run of characters. -/
  | run
  /-- Any one character. -/
  | any
  | literal (char : Char)
  | set (items : List Item)
  /-- A set without its closing bracket, which matches nothing. -/
  | unclosed
deriving DecidableEq, Repr, Inhabited

/-- Whether an element matches a single character. -/
def Element.accepts : Element → Char → Bool
  | .run, _ => false
  | .any, _ => true
  | .literal listed, char => listed == char
  | .set items, char => items.any fun item => item.covers char
  | .unclosed, _ => false

/-- Where the reading of a pattern stands. The members of a set read so far are
kept reversed. -/
inductive Place where
  | outside
  /-- After a backslash. -/
  | escaped
  | inSet (items : List Item)
  /-- After a character that may start a range. -/
  | afterLow (items : List Item) (low : Char)
  /-- After a dash that may join a range. -/
  | afterDash (items : List Item) (low : Char)
deriving DecidableEq, Repr, Inhabited

/-- Elements of the rest of a pattern. A set ends at the first `]`; a dash right
before it stands for itself. -/
def elementsFrom : Place → List Char → List Element
  | .outside, [] => []
  | .escaped, [] => [.literal '\\']
  | _, [] => [.unclosed]
  | .outside, char :: rest =>
    if char == '*' then .run :: elementsFrom .outside rest
    else if char == '?' then .any :: elementsFrom .outside rest
    else if char == '[' then elementsFrom (.inSet []) rest
    else if char == '\\' then elementsFrom .escaped rest
    else .literal char :: elementsFrom .outside rest
  | .escaped, char :: rest => .literal char :: elementsFrom .outside rest
  | .inSet items, char :: rest =>
    if char == ']' then .set items.reverse :: elementsFrom .outside rest
    else elementsFrom (.afterLow items char) rest
  | .afterLow items low, char :: rest =>
    if char == ']' then .set (.single low :: items).reverse :: elementsFrom .outside rest
    else if char == '-' then elementsFrom (.afterDash items low) rest
    else elementsFrom (.afterLow (.single low :: items) char) rest
  | .afterDash items low, char :: rest =>
    if char == ']' then
      .set (.single '-' :: .single low :: items).reverse :: elementsFrom .outside rest
    else elementsFrom (.inSet (.range low char :: items)) rest

/-- Elements of a pattern. -/
def elements (pattern : List Char) : List Element :=
  elementsFrom .outside pattern

/-- The answer at the first place of the text where there is one. -/
def firstAnswer (answer? : List Char → Option Bool) : List Char → Bool
  | [] => (answer? []).getD false
  | char :: rest =>
    match answer? (char :: rest) with
    | some answer => answer
    | none => firstAnswer answer? rest

/-- Whether the elements match the text from its start. There is no answer when
those in front of the first run do not fit there, though they might at a later
place. -/
def answer? : List Element → List Char → Option Bool
  | elements, [] => some (elements.all (· == .run))
  | .run :: later, text => some (firstAnswer (answer? later) text)
  | [], _ :: _ => none
  | element :: later, char :: text => if element.accepts char then answer? later text else none

/-- Whether a pattern matches the whole of a text. -/
def isMatch (pattern text : String) : Bool :=
  (answer? (elements pattern.toList) text.toList).getD false

end IRule.Glob
