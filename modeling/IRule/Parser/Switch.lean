import IRule.Parser.Block
import IRule.Script.View

/-!
# `switch`

Patterns are never read as code. Braced patterns are taken verbatim, quoted
and bare ones keep their text.
-/

namespace IRule.Parser

/-- Option words of a `switch`, up to `--`. -/
def switchOptions (grammar : Grammar) (options : SwitchOptions) : Parse SwitchOptions := do
  unless (← get).optionAhead do return options
  advance
  let option ← rawWordText grammar
  if option == "--" then return options
  match options.add? option with
  | some more => grammar.switchOptions more
  | none =>
    reportHere (.switchOption option)
    grammar.switchOptions options

/-- A pattern as the options take it. Braced patterns are globs unless regular
expressions are asked for. -/
def patternOf (options : SwitchOptions) (token : Token) (text : String) (braced : Bool) : Pattern :=
  if options.regex then .regex token text
  else if braced || options.glob then .glob token text
  else .plain token text

/-- The pattern at the current token. -/
def casePattern (grammar : Grammar) (options : SwitchOptions) : Parse (Option Pattern) := do
  let token ← current
  match token.kind with
  | .openBrace =>
    let some body ← captureBrace grammar | return none
    return some (patternOf options token (String.ofList body) true)
  | .string => return some (patternOf options token token.literal false)
  | .illegal =>
    reportIllegal
    return none
  | kind =>
    if kind.isTerminator then
      reportHere (.strayInSwitch token.description)
      return none
    let text ← rawWordText grammar
    return some (patternOf options token text false)

/-- Further patterns of an arm: a dash instead of a body falls through to the
next pattern. -/
def fallThrough (grammar : Grammar) (options : SwitchOptions) : Parse (Option (List Pattern)) := do
  unless (← get).loneDashAhead do return some []
  advance
  if (← isAhead .closeBrace) || (← isAhead .endOfInput) then
    reportHere .missingBody
    return none
  advance
  let some pattern ← casePattern grammar options | return none
  let some later ← grammar.fallThrough options | return none
  return some (pattern :: later)

/-- The patterns of an arm; none for the default arm. -/
def casePatterns (grammar : Grammar) (options : SwitchOptions) :
    Parse (Option (Option CasePattern)) := do
  let token ← current
  if token.kind == .reserved .defaultWord then return some none
  let some first ← casePattern grammar options | return none
  let some later ← grammar.fallThrough options | return none
  if later.isEmpty then return some (some (.one first))
  return some (some (.several token (first :: later)))

/-- One arm of a `switch`. -/
def caseArm (grammar : Grammar) (options : SwitchOptions) : Parse (Option Case) := do
  let token ← current
  let some pattern ← casePatterns grammar options | return none
  let some body ← expectBlock grammar .switchPattern | return none
  return some (.mk token pattern body)

/-- Arms up to the closing brace. The rest of the line of a broken arm is
dropped. -/
def cases (grammar : Grammar) (options : SwitchOptions) (line : Nat) : Parse (List Case) := do
  match (← lookahead).kind with
  | .closeBrace =>
    advance
    return []
  | .endOfInput =>
    report (.unclosed .switchBody line) line
    return []
  | _ =>
    advance
    let arm ← caseArm grammar options
    if arm.isNone then grammar.skipCaseLine
    let later ← grammar.cases options line
    return arm.toList ++ later

/-- A `switch` statement. -/
def switchStatement (grammar : Grammar) : Parse (Option Statement) := do
  let token ← current
  let options ← grammar.switchOptions {}
  if ← endsCommand then
    reportAhead (.expected .switchValue)
    return none
  advance
  let some value ← grammar.word .word | return none
  unless ← isAhead .openBrace do
    reportAhead (.missingBlock .switchValue)
    return none
  advance
  let opening ← current
  let arms ← within .expression (grammar.cases options opening.line)
  return some (.switch token options value arms)

end IRule.Parser
