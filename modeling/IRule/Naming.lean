import IRule.Vocabulary

/-!
# Names

Which names are legal for variables, for headers and as words that stand
alone.
-/

namespace IRule.Naming

/-- Where a name appears. -/
inductive Context where
  /-- Target of an assignment. -/
  | assigned
  /-- Header argument. -/
  | header
  /-- Bare word in the place of a command or an operand. -/
  | standalone
deriving DecidableEq, Repr, Inhabited

/-- The array name of `name(key)`, any other name itself. -/
def arrayBase (name : List Char) : List Char :=
  let base := name.takeWhile (· != '(')
  if name.contains '(' && !base.isEmpty && name.getLast? == some ')' then base else name

/-- A letter or underscore, then letters, digits and underscores. -/
def isSimpleName : List Char → Bool
  | [] => false
  | char :: rest =>
    (char.isAlpha || char == '_') && rest.all fun later => later.isAlphanum || later == '_'

/-- Segments of a name between its `::`, split from the left. -/
def segments : List Char → List (List Char)
  | [] => [[]]
  | ':' :: ':' :: rest => [] :: segments rest
  | char :: rest =>
    match segments rest with
    | [] => [[char]]
    | segment :: later => (char :: segment) :: later

/-- The name without one leading `::`. -/
def withoutGlobalMark : List Char → List Char
  | ':' :: ':' :: rest => rest
  | name => name

/-- Variable names: simple names joined by `::`, with an optional leading `::`
and an optional `(key)`, and not a word of flow control. -/
def isVariableName (name : String) : Bool :=
  let body := withoutGlobalMark (arrayBase name.toList)
  !body.isEmpty && (segments body).all isSimpleName &&
    !Vocabulary.isReservedKeyword (String.ofList body)

/-- Header names: the known ones, extension headers, and any name with a dash. -/
def isHeaderName (name : String) : Bool :=
  Vocabulary.isCommonHeader name || name.toList.contains '-'

/-- A single letter. -/
def isSingleLetter (name : String) : Bool :=
  match name.toList with
  | [char] => char.isAlpha
  | _ => false

/-- Words that may stand alone: known commands and facilities, commands of known
namespaces, declared variables, single letters and words of flow control. -/
def isStandaloneWord (declared : List String) (name : String) : Bool :=
  Vocabulary.isCommonCommand name || Vocabulary.isLogFacility name ||
    Vocabulary.hasKnownNamespace name || declared.contains name || isSingleLetter name ||
    Vocabulary.isReservedKeyword name

/-- Whether a name is legal where it appears. -/
def isLegal (declared : List String) (context : Context) (name : String) : Bool :=
  match context with
  | .assigned => isVariableName name
  | .header => isHeaderName name
  | .standalone => isStandaloneWord declared name

/-- Add a name to a set of names, unless it is there. -/
def add (names : List String) (name : String) : List String :=
  if names.contains name then names else names ++ [name]

/-- Add names to a set of names. -/
def addAll (names more : List String) : List String :=
  more.foldl add names

/-- Names in ascending order. -/
def sorted (names : List String) : List String :=
  names.mergeSort fun first second => decide (first ≤ second)

end IRule.Naming
