import IRule.Parser.Grammar

/-!
# Verbatim words and recovery

Braced words taken verbatim, words taken as text, and the ways in which the
parser passes over what it cannot use.
-/

namespace IRule.Parser

/-- Drop tokens until the end of the input is ahead. -/
def drain (grammar : Grammar) : Parse Unit := do
  unless ← isAhead .endOfInput do
    advance
    grammar.drain

/-- Take the braced word at the current `{` verbatim. The current token becomes
its closing brace. Without one, the rest of the input is dropped. -/
def captureBrace (grammar : Grammar) : Parse (Option (List Char)) := do
  let state ← get
  let opening := state.current
  match state.lexer.capture? opening with
  | none =>
    report (.unclosed .bracedWord opening.line) opening.line
    grammar.drain
    return none
  | some (word, lexer) =>
    let stop := word.span.stop
    let closing : Token := ⟨.closeBrace, "\x7d", lexer.line, ⟨stop - 1, stop⟩, .none⟩
    let (token, later) := lexer.next
    set { state with
      lexer := later
      current := closing
      lookahead := token
      braceCount := state.braceCount - 1 }
    return some word.body

/-- Bracket depth after the current token, whose braced word is passed over. -/
def passToken (grammar : Grammar) (depth : Nat) : Parse Nat := do
  match (← current).kind with
  | .openBracket => return depth + 1
  | .closeBracket => return depth - 1
  | .openBrace =>
    let _ ← captureBrace grammar
    return depth
  | _ => return depth

/-- Drop the rest of the current command. Brackets are passed over whole and
braced words unread. -/
def skipCommand (grammar : Grammar) (depth : Nat) : Parse Unit := do
  let state ← get
  if state.lookahead.kind == .endOfInput || state.lookahead.kind == .closeBrace then return
  if depth == 0 && state.endsCommand then return
  advance
  grammar.skipCommand (← passToken grammar depth)

/-- Drop everything before the enclosing closing brace. -/
def skipToCloseBrace (grammar : Grammar) : Parse Unit := do
  let state ← get
  if state.lookahead.kind == .closeBrace || state.lookahead.kind == .endOfInput then return
  advance
  let _ ← passToken grammar 0
  grammar.skipToCloseBrace

/-- Drop the rest of a broken arm of a `switch`, up to the end of its line. -/
def skipCaseLine (grammar : Grammar) : Parse Unit := do
  let state ← get
  if state.lookahead.spacing.newline || state.lookahead.kind == .closeBrace ||
      state.lookahead.kind == .endOfInput then return
  advance
  let _ ← passToken grammar 0
  grammar.skipCaseLine

/-- Pass over the rest of a word: adjacent pieces and whole brackets. -/
def rawWord (grammar : Grammar) (depth : Nat) : Parse Unit := do
  let state ← get
  if depth == 0 && !state.glues then return
  if state.lookahead.kind == .endOfInput || state.lookahead.kind == .closeBrace then return
  advance
  grammar.rawWord (← passToken grammar depth)

/-- Take the current word as text. -/
def rawWordText (grammar : Grammar) : Parse String := do
  let first ← current
  grammar.rawWord (if first.kind == .openBracket then 1 else 0)
  let state ← get
  return state.slice ⟨first.span.start, state.current.span.stop⟩

/-- Finish a command. Words left over after a complete one are reported; then
whatever is left is dropped. -/
def finishCommand (grammar : Grammar) (complete : Bool) : Parse Unit := do
  unless ← endsCommand do
    if complete then reportAhead .leftover
    grammar.skipCommand 0

end IRule.Parser
