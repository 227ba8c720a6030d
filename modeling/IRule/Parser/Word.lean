import IRule.Parser.Interpolation
import IRule.Parser.Recovery
import IRule.Script.View

/-!
# Words

A word is one or more adjacent pieces: bare text, references, quoted strings,
brackets, or a single braced list. Braced lists and the commands embedded in
strings are read by a parser of their own; when that finds a problem, the text
is kept as it is.
-/

namespace IRule.Parser

/-- A bare word. -/
def bareWord (token : Token) (text : String) : Expression :=
  .identifier token text false false

/-- A number, reported when it does not fit. -/
def numberLiteral : Parse Expression := do
  let token ← current
  match Text.int64? token.literal.toList with
  | some value => return .number token value
  | none =>
    reportHere (.numberRange token.literal)
    return .invalid token token.literal

/-! ## References -/

/-- Name of a reference `$name` or `${name}`. -/
def referenceName (literal : String) : String :=
  match literal.toList with
  | '$' :: '\x7b' :: rest =>
    if rest.getLast? == some '\x7d' then String.ofList rest.dropLast
    else String.ofList ('\x7b' :: rest)
  | '$' :: rest => String.ofList rest
  | _ => literal

/-- Report a reference that nothing declared. Names with a namespace live
outside the rule and are never reported. -/
def checkDeclared (name : String) (line : Nat) : Parse Unit := do
  let state ← get
  if state.checkVariables && (splitNamespace? name.toList).isNone &&
      !state.declared.contains name then
    report (.undeclaredVariable name) line

/-- A reference, with the key of an array element if one is glued to it. -/
def variableReference (grammar : Grammar) : Parse (Option Expression) := do
  let token ← current
  let name := referenceName token.literal
  checkDeclared name token.line
  let reference : Expression := .identifier token name true false
  unless (← get).parenGlued do return some reference
  advance
  let opening ← current
  if ← isAhead .closeParen then
    reportHere .emptyIndex
    advance
    return some reference
  let key ← within .index do
    advance
    grammar.word .word
  if ← isAhead .closeParen then advance
  else report (.unclosed .index opening.line) opening.line
  return key.map fun key => .element token reference key

/-! ## Brackets -/

/-- Commands between brackets. Semicolons separate them. -/
def bracketCommands (grammar : Grammar) (line : Nat) : Parse (List Expression) := do
  match (← lookahead).kind with
  | .closeBracket =>
    advance
    return []
  | .endOfInput | .closeBrace =>
    report (.unclosed .bracket line) line
    return []
  | .semicolon =>
    advance
    grammar.bracketCommands line
  | _ =>
    advance
    let command ← grammar.commandOrExpression
    finishCommand grammar true
    let later ← grammar.bracketCommands line
    return command.toList ++ later

/-- Bracketed commands, with the current token on `[`. -/
def bracketed (grammar : Grammar) : Parse Expression := do
  let token ← current
  let commands ← within .bracket (grammar.bracketCommands token.line)
  return .bracket token commands

/-! ## Braced lists -/

/-- Words up to the end of a snippet. -/
def listElements (grammar : Grammar) : Parse (List Expression) := do
  if (← current).kind == .endOfInput then return []
  let element ← grammar.word .word
  advance
  let later ← grammar.listElements
  return element.toList ++ later

/-- A single piece of a word. -/
def simplePiece (token : Token) : Expression :=
  match token.kind with
  | .address => .address token token.literal
  | .reserved .trueWord => .boolean token true
  | .reserved .falseWord => .boolean token false
  | kind => .identifier token token.literal false kind.isReserved

/-- Keep a snippet that parsed without a problem, with its findings. -/
def keepIfClean {α : Type} (snippet : State) (kept dropped : α) : Parse α := do
  if snippet.diagnostics.isEmpty then
    modify fun state => state.absorb snippet
    return kept
  else return dropped

/-- Elements of a braced word: key and value pairs when a colon is glued to the
first word, words otherwise. -/
def braceItems (grammar : Grammar) (opening : Token) : Parse Expression := do
  let state ← get
  if state.current.kind != .endOfInput && state.lookahead.kind == .colon &&
      state.lookahead.spacing.isAdjacent then
    return .hash opening (← grammar.hashPairs)
  else
    return .list opening (← grammar.listElements)

/-- A braced word, with the current token on `{`. A body that does not parse
cleanly is kept as one element. -/
def bracedWord (grammar : Grammar) : Parse (Option Expression) := do
  let opening ← current
  match ← captureBrace grammar with
  | none => return none
  | some body =>
    let inner := State.snippet body opening.line .expression (← get).declared
    let (items, snippet) ← isolated inner (braceItems grammar opening)
    let text := String.ofList body
    let whole := bareWord ⟨.word, text, opening.line, opening.span, .none⟩ text
    return some (← keepIfClean snippet items (.list opening [whole]))

/-! ## Strings -/

/-- Commands of a snippet, separated by semicolons. -/
def substitutionCommands (grammar : Grammar) : Parse (List Expression) := do
  match (← current).kind with
  | .endOfInput => return []
  | .semicolon =>
    advance
    grammar.substitutionCommands
  | _ =>
    let command ← grammar.commandOrExpression
    finishCommand grammar true
    advance
    let later ← grammar.substitutionCommands
    return command.toList ++ later

/-- The commands of a script embedded in a string, unless they do not parse
cleanly or there are none. -/
def substitution (grammar : Grammar) (token : Token) (script : List Char) (line : Nat) :
    Parse (Option Expression) := do
  let inner := State.snippet script line .bracket (← get).declared
  let (commands, snippet) ← isolated inner grammar.substitutionCommands
  if commands.isEmpty then return none
  keepIfClean snippet (some (.substitution { token with line := line } commands)) none

/-- Append text to the parts of a string, joining it to text before it. -/
def appendText (token : Token) (parts : List Expression) (text : String) : List Expression :=
  match parts.getLast? with
  | some (.string first before) => parts.dropLast ++ [.string first (before ++ text)]
  | _ => parts ++ [.string token text]

/-- Parts of a string, after the given ones. -/
def interpolatedParts (grammar : Grammar) (token : Token) (parts : List Expression) :
    List Segment → Parse (List Expression)
  | [] => pure parts
  | .text text :: later =>
    interpolatedParts grammar token (appendText token parts (String.ofList text)) later
  | .reference name :: later =>
    interpolatedParts grammar token
      (parts ++ [.identifier token (String.ofList name) true false]) later
  | .command script before :: later => do
    match ← substitution grammar token script (token.line + before.count '\n') with
    | some embedded => interpolatedParts grammar token (parts ++ [embedded]) later
    | none =>
      let text := "[" ++ String.ofList script ++ "]"
      interpolatedParts grammar token (appendText token parts text) later

/-- A quoted string, plain or with embeddings. -/
def quotedString (grammar : Grammar) (token : Token) : Parse Expression := do
  let parts ← interpolatedParts grammar token [] (segments token.literal.toList)
  if parts.all Expression.isString then return .string token token.literal
  else return .interpolated token token.literal parts

/-! ## Gluing -/

/-- The piece of a word at the current token. -/
def piece (grammar : Grammar) : Parse (Option Expression) := do
  let token ← current
  match token.kind with
  | .openBracket => return some (← bracketed grammar)
  | .openBrace => bracedWord grammar
  | .string => return some (← quotedString grammar token)
  | .reference => variableReference grammar
  | .number => return some (← numberLiteral)
  | .illegal =>
    reportIllegal
    return none
  | _ => return some (simplePiece token)

/-- Keys and values up to the end of a snippet. -/
def hashPairs (grammar : Grammar) : Parse (List (Expression × Expression)) := do
  let some key ← piece grammar | return []
  unless ← isAhead .colon do
    reportAhead (.expected .hashColon)
    return []
  advance
  if (← isAhead .endOfInput) || (← isAhead .comma) then
    reportAhead (.expected .hashValue)
    return []
  advance
  let some value ← piece grammar | return []
  unless ← isAhead .comma do
    unless ← isAhead .endOfInput do reportAhead (.expected .hashSeparator)
    return [(key, value)]
  advance
  if ← isAhead .endOfInput then return [(key, value)]
  advance
  let later ← grammar.hashPairs
  return (key, value) :: later

/-- Kinds that continue an operand. -/
def continuesOperand : TokenKind → Bool
  | .reference | .openBracket | .string | .number | .colon | .doubleColon | .dollar | .word => true
  | _ => false

/-- Whether the token is a number with a minus sign. -/
def isNegativeNumber (token : Token) : Bool :=
  token.kind == .number && token.literal.toList.head? == some '-'

/-- Whether the lookahead continues the word. A negative number and a plus sign
do not continue an operand. -/
def Glue.holds (glue : Glue) (state : State) : Bool :=
  match glue with
  | .word => state.glues
  | .operand =>
    state.glues && !isNegativeNumber state.lookahead &&
      continuesOperand state.lookahead.kind && !state.lookahead.isPlus

/-- Further pieces of a word, with their spans. -/
def pieces (grammar : Grammar) (glue : Glue) : Parse (List (Expression × Span)) := do
  unless glue.holds (← get) do return []
  advance
  let start := (← current).span.start
  let next ← piece grammar
  let stop := (← current).span.stop
  let later ← grammar.pieces glue
  return (next.map fun next => (next, ⟨start, stop⟩)).toList ++ later

/-- The text of a run of literal pieces, if there is one. -/
def textPart (state : State) : Option (Token × Span) → List Expression
  | some (token, span) => [.string token (state.slice span)]
  | none => []

/-- A bracket inside a word is a substitution. -/
def embedded : Expression → Expression
  | .bracket token commands => .substitution token commands
  | other => other

/-- Parts of a word, in which runs of literal pieces are joined; `run` is the one
being collected. -/
def wordParts (state : State) (run : Option (Token × Span)) :
    List (Expression × Span) → List Expression
  | [] => textPart state run
  | (next, span) :: later =>
    if next.isLiteral then
      match run with
      | some (token, before) => wordParts state (some (token, before.merge span)) later
      | none => wordParts state (some (next.token, span)) later
    else
      textPart state run ++ embedded next :: wordParts state none later

/-- One word: a single piece, or adjacent pieces glued together. -/
def word (grammar : Grammar) (glue : Glue) : Parse (Option Expression) := do
  let token ← current
  let some first ← piece grammar | return none
  let state ← get
  unless glue.holds state do return some first
  let firstSpan : Span := ⟨token.span.start, state.current.span.stop⟩
  let all := (first, firstSpan) :: (← grammar.pieces glue)
  let final ← get
  let raw := final.slice ⟨token.span.start, final.current.span.stop⟩
  if all.all fun (next, _) => next.isLiteral then return some (bareWord token raw)
  else return some (.interpolated token raw (wordParts final none all))

end IRule.Parser
