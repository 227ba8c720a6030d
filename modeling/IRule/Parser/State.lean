import IRule.Lexer.Basic
import IRule.Naming
import IRule.Parser.Problem

/-!
# Parser state

The parser reads one token ahead of the current one. Problems are collected
while it goes on, so parsing never stops early. A computation of the parser
changes its state and gives a result, or runs out of the steps it was granted.
-/

namespace IRule.Parser

/-- How a line end is read at the current point. -/
inductive Nesting where
  /-- Body of a script: a line end ends the command. -/
  | script
  /-- Inside brackets. -/
  | bracket
  /-- Inside the braces of an expression, parentheses or a `switch` body. -/
  | expression
  /-- Inside the key of an array element, where `)` ends the word. -/
  | index
deriving DecidableEq, Repr, Inhabited

/-- State of the parser of one text. -/
structure State where
  source : List Char
  lexer : Lexer
  current : Token
  lookahead : Token
  /-- Opening less closing braces that have been the current token. -/
  braceCount : Int := 0
  /-- Problems so far, in order of discovery. -/
  diagnostics : List Diagnostic := []
  /-- Variables declared so far. -/
  declared : List String := []
  scopes : Scopes := {}
  /-- Open constructs, innermost first. -/
  nesting : List Nesting := [.script]
  /-- Whether references to undeclared variables are reported. -/
  checkVariables : Bool := true
deriving Repr

namespace State

/-- How a token becoming current changes the brace count. -/
def braceChange : TokenKind → Int
  | .openBrace => 1
  | .closeBrace => -1
  | _ => 0

/-- Make the lookahead current and read on. -/
def advance (state : State) : State :=
  let (token, lexer) := state.lexer.next
  { state with
    lexer := lexer
    current := state.lookahead
    lookahead := token
    braceCount := state.braceCount + braceChange state.lookahead.kind }

/-- Before any token is read. -/
def blank (source : List Char) (line : Nat) : State :=
  let nothing : Token := ⟨.endOfInput, "", 1, .nowhere, .none⟩
  { source, lexer := .start source line, current := nothing, lookahead := nothing }

/-- At the first token of a text. -/
def start (source : List Char) (declared : List String) : State :=
  { (blank source 1).advance.advance with declared := Naming.addAll [] declared }

/-- At the first token of a snippet of a larger text. References are not checked
in snippets. -/
def snippet (source : List Char) (line : Nat) (nesting : Nesting) (declared : List String) :
    State :=
  { (blank source line).advance.advance with
    nesting := [nesting], checkVariables := false, declared := declared }

/-- Text of a span of the source. -/
def slice (state : State) (span : Span) : String :=
  String.ofList (Text.slice state.source span)

/-- Whether a line end ends the current command. -/
def newlineEndsCommand (state : State) : Bool :=
  match state.nesting with
  | [] | .script :: _ => true
  | _ => false

/-- Whether the current command ends before the lookahead. -/
def endsCommand (state : State) : Bool :=
  state.lookahead.kind.isTerminator ||
    (state.lookahead.spacing.newline && state.newlineEndsCommand)

/-- The character right after the lookahead. -/
def charAhead? (state : State) : Option Char :=
  state.lexer.scanner.rest.head?

/-- Whether an option word, `-name` or `--`, is ahead. -/
def optionAhead (state : State) : Bool :=
  state.lookahead.kind == .minus &&
    match state.charAhead? with
    | some char => char.isAlpha || char == '-'
    | none => false

/-- Whether a dash that stands alone is ahead. -/
def loneDashAhead (state : State) : Bool :=
  state.lookahead.kind == .minus &&
    match state.charAhead? with
    | some char => Lexeme.isSpace char || char == '\n'
    | none => true

/-- Whether the lookahead continues the current word. -/
def glues (state : State) : Bool :=
  state.lookahead.spacing.isAdjacent && !state.lookahead.kind.isTerminator &&
    state.lookahead.kind != .openBrace &&
    !(state.lookahead.kind == .closeParen && state.nesting.head? == some .index)

/-- Whether a parenthesis glued to the current token is ahead. -/
def parenGlued (state : State) : Bool :=
  state.lookahead.kind == .openParen && state.lookahead.spacing.isAdjacent

/-- Record a diagnostic. -/
def record (state : State) (diagnostic : Diagnostic) : State :=
  { state with diagnostics := state.diagnostics ++ [diagnostic] }

/-- Declare a variable. -/
def declare (state : State) (name : String) : State :=
  { state with declared := Naming.add state.declared name }

/-- Open a construct. -/
def enter (state : State) (nesting : Nesting) : State :=
  { state with nesting := nesting :: state.nesting }

/-- Close the innermost construct. -/
def leave (state : State) : State :=
  { state with nesting := state.nesting.tail }

/-- Take over the findings of the parser of a snippet. -/
def absorb (state snippet : State) : State :=
  { state with
    diagnostics := state.diagnostics ++ snippet.diagnostics
    declared := Naming.addAll state.declared snippet.declared }

end State

/-- Computations of the parser. They give nothing when the steps run out. -/
abbrev Parse := StateT State Option

/-- The computation for which no steps are left. -/
def outOfSteps {α : Type} : Parse α :=
  fun _ => none

/-- The current token. -/
def current : Parse Token := do
  return (← get).current

/-- The token after the current one. -/
def lookahead : Parse Token := do
  return (← get).lookahead

/-- Move on by one token. -/
def advance : Parse Unit :=
  modify State.advance

/-- Whether the current command ends before the lookahead. -/
def endsCommand : Parse Bool := do
  return (← get).endsCommand

/-- Whether the lookahead has the given kind. -/
def isAhead (kind : TokenKind) : Parse Bool := do
  return (← get).lookahead.kind == kind

/-- Report a problem at a line. -/
def report (problem : Problem) (line : Nat) : Parse Unit :=
  modify fun state => state.record (problem.diagnostic line)

/-- Report a problem at the line of the current token. -/
def reportHere (problem : Problem) : Parse Unit := do
  report problem (← current).line

/-- Report a problem with the token ahead, at its line. -/
def reportAhead (problem : String → Problem) : Parse Unit := do
  let token ← lookahead
  report (problem token.description) token.line

/-- Report the current token, which is `illegal`. -/
def reportIllegal : Parse Unit := do
  let state ← get
  let diagnostic :=
    match state.lexer.errorAt? state.current.span with
    | some error => error.diagnostic
    | none => .error .illegalCharacter state.current.literal state.current.line
  set (state.record diagnostic)

/-- Declare a variable, if there is one to declare. -/
def declare (name : Option String) : Parse Unit :=
  match name with
  | some name => modify fun state => state.declare name
  | none => pure ()

/-- Run a computation inside a construct. -/
def within {α : Type} (nesting : Nesting) (body : Parse α) : Parse α := do
  modify fun state => state.enter nesting
  let result ← body
  modify State.leave
  return result

/-- Run a computation on the state of a snippet, and give the final state of the
snippet with the result. -/
def isolated {α : Type} (snippet : State) (body : Parse α) : Parse (α × State) :=
  fun state => (body snippet).map fun result => (result, state)

end IRule.Parser
