import IRule.Parser.Assignment
import IRule.Parser.Handler

/-!
# Commands

A command is a name followed by words. Commands of known shape have a node of
their own and checks on their arguments; all others are plain invocations.
-/

namespace IRule.Parser

/-! ## Arguments -/

/-- Words up to the end of the command. -/
def arguments (grammar : Grammar) : Parse (List Expression) := do
  if ← endsCommand then return []
  advance
  let argument ← grammar.word .word
  let later ← grammar.arguments
  return argument.toList ++ later

/-- Option words `-name` and `--`; a negative number is none. -/
def isOption (argument : Expression) : Bool :=
  match argument.wordText?.map String.toList with
  | some ('-' :: next :: _) => next.isAlpha || next == '-'
  | _ => false

/-- Arguments other than options. -/
def positional (arguments : List Expression) : List Expression :=
  arguments.filter fun argument => !isOption argument

/-- Declare a command in the current scope, reporting a rival. -/
def declareExclusive (set : Exclusives) (line : Nat) : Parse Unit := do
  let state ← get
  match state.scopes.declare set with
  | .ok scopes => modify fun state => { state with scopes := scopes }
  | .error conflict => report (.conflict conflict) line

/-! ## Namespaced commands -/

/-- The argument of `HTTP::header` that names a header. -/
def headerArgument? (arguments : List Expression) : Option Expression :=
  match positional arguments with
  | [] => none
  | first :: later =>
    match first.wordText? with
    | some text => if Vocabulary.isHeaderSubcommand text then later.head? else some first
    | none => some first

/-- Check the header name of `HTTP::header`, when it is literal text. -/
def checkHeader (arguments : List Expression) (line : Nat) : Parse Unit :=
  match (headerArgument? arguments).bind Expression.wordText? with
  | some name =>
    if Naming.isHeaderName name then pure () else report (.invalidHeader name) line
  | none => pure ()

/-- A command of one of the families. -/
def namespacedCommand (grammar : Grammar) (family : Family) : Parse Expression := do
  let token ← current
  let given ← grammar.arguments
  if token.literal == "HTTP::header" then checkHeader given token.line
  else if token.literal == "HTTP::redirect" then
    declareExclusive { redirect := true } token.line
  else if token.literal == "HTTP::respond" then
    declareExclusive { respond := true } token.line
  return .namespaced token family token.literal given

/-! ## `string` -/

/-- Consecutive elements in pairs. -/
def inPairs : List Expression → List (Expression × Expression)
  | first :: second :: later => (first, second) :: inPairs later
  | _ => []

/-- The first list among the arguments of `string map` as pairs, when it has an
even number of elements. -/
def pairFirstList : List Expression → List Expression
  | [] => []
  | .list token elements :: later =>
    if elements.length % 2 == 0 then .mapping token (inPairs elements) :: later
    else .list token elements :: later
  | argument :: later => argument :: pairFirstList later

/-- Check the number of arguments of an operation of `string`. -/
def checkArity (operation : String) (given line : Nat) : Parse Unit :=
  match Vocabulary.stringArity? operation with
  | some least =>
    if given < least then report (.stringArguments operation least given) line else pure ()
  | none => pure ()

/-- An operation of `string`. -/
def stringCommand (grammar : Grammar) : Parse (Option Expression) := do
  let token ← current
  if ← endsCommand then
    reportHere .missingStringOperation
    return none
  advance
  let operation := (← current).literal
  if (Vocabulary.stringArity? operation).isNone then reportHere (.stringOperation operation)
  let given ← grammar.arguments
  let shaped := if operation == "map" then pairFirstList given else given
  checkArity operation (positional shaped).length token.line
  return some (.stringOperation token operation shaped)

/-! ## `class` -/

/-- Option words of `class`, up to `--`. -/
def classOptions (grammar : Grammar) : Parse (List String) := do
  unless (← get).optionAhead do return []
  advance
  let option ← rawWordText grammar
  unless Vocabulary.classOptions.contains option do reportHere (.classOption option)
  if option == "--" then return [option]
  let later ← grammar.classOptions
  return option :: later

/-- Check the arguments of `class match` and `class search`: an item, a
comparison and a class. -/
def checkClassArguments (subcommand : String) (arguments : List Expression) (line : Nat) :
    Parse Unit :=
  if subcommand == "match" || subcommand == "search" then
    match arguments with
    | [_, operator, _] =>
      match operator.wordText? with
      | some text =>
        if Vocabulary.isClassOperator text then pure ()
        else report (.classOperator subcommand text) line
      | none => pure ()
    | _ => report (.classArguments subcommand arguments.length) line
  else pure ()

/-- A `class` command. -/
def classCommand (grammar : Grammar) : Parse (Option Expression) := do
  let token ← current
  if ← endsCommand then
    reportHere .missingSubcommand
    return none
  advance
  let subcommand := (← current).literal
  unless Vocabulary.isClassSubcommand subcommand do reportHere (.classSubcommand subcommand)
  let options ← grammar.classOptions
  let given ← grammar.arguments
  checkClassArguments subcommand given token.line
  return some (.classCommand token subcommand options given)

/-! ## `regsub` -/

/-- Flag words of `regsub`, up to `--`, which is dropped. -/
def regsubFlags (grammar : Grammar) : Parse (List String) := do
  unless (← get).optionAhead do return []
  advance
  let flag ← rawWordText grammar
  if flag == "--" then return []
  unless Vocabulary.isRegsubFlag (String.ofList (flag.toList.dropWhile (· == '-'))) do
    reportHere (.regsubFlag flag)
  let later ← grammar.regsubFlags
  return flag :: later

/-- An argument of `regsub`. A brace in first place is a pattern, taken verbatim. -/
def regsubArgument (grammar : Grammar) (first : Bool) : Parse (Option Expression) := do
  let token ← current
  if first && token.kind == .openBrace then
    let body ← captureBrace grammar
    return body.map fun body => .regex token (String.ofList body)
  grammar.word .word

/-- Arguments of `regsub`. -/
def regsubArguments (grammar : Grammar) (first : Bool) : Parse (List Expression) := do
  if ← endsCommand then return []
  advance
  let argument ← regsubArgument grammar first
  let later ← grammar.regsubArguments (first && argument.isNone)
  return argument.toList ++ later

/-- The result variable of `regsub`, declared when it is a literal name. -/
def regsubResult : Expression → Parse Expression
  | .identifier token name false _ => declaredTarget token name
  | other => pure other

/-- A `regsub` command; with a wrong number of arguments it is a plain one. -/
def regsubCommand (grammar : Grammar) : Parse Expression := do
  let token ← current
  let flags ← grammar.regsubFlags
  let given ← grammar.regsubArguments true
  match given with
  | [pattern, input, replacement, result] =>
    let result ← regsubResult result
    return .regsub token flags pattern input replacement result
  | _ =>
    report (.regsubArguments given.length) token.line
    let words := flags.map fun flag =>
      bareWord ⟨.word, flag, token.line, .nowhere, .none⟩ flag
    return .invocation token (bareWord token token.literal) (words ++ given)

/-! ## Targets, `set` and plain commands -/

/-- A `pool` or `node` command. -/
def targetCommand (grammar : Grammar) (kind : TargetKind) : Parse Expression := do
  let token ← current
  let given ← grammar.arguments
  if given.isEmpty then reportHere (.targetArguments kind.keyword)
  match kind with
  | .pool => declareExclusive { pool := true } token.line
  | .node => declareExclusive { node := true } token.line
  return .target token kind given

/-- A `set` in the place of a command. -/
def setCommand (grammar : Grammar) : Parse (Option Expression) := do
  let token ← current
  let some (name, value) ← setParts grammar | return none
  return some (.invocation token (bareWord token token.literal) [name, value])

/-- A bare word that has to be legal on its own. -/
def standaloneWord (token : Token) : Parse Expression := do
  if Naming.isStandaloneWord (← get).declared token.literal then
    return .identifier token token.literal false token.kind.isReserved
  report (.invalidIdentifier token.literal) token.line
  return .invalid token token.literal

/-- Variables assigned by a core command, as array names. -/
def assignedNames (command : String) (arguments : List Expression) : List String :=
  let names (skipped : Nat) :=
    (((positional arguments).drop skipped).filterMap Expression.wordText?).filter
      Naming.isVariableName
  let written :=
    if ["incr", "append", "lappend", "lset"].contains command then
      ((positional arguments).head?.bind Expression.wordText?).toList
    else if ["regexp", "scan"].contains command then names 2
    else if ["lassign", "catch"].contains command then names 1
    else []
  written.map fun name => String.ofList (Naming.arrayBase name.toList)

/-- A command without a shape of its own. -/
def plainCommand (grammar : Grammar) : Parse Expression := do
  let token ← current
  let name ← standaloneWord token
  let given ← grammar.arguments
  modify fun state =>
    { state with declared := Naming.addAll state.declared (assignedNames token.literal given) }
  return .invocation token name given

/-- Family of the command at a token. Unlisted commands of a family are known by
the start of their name, those of `IP::` excepted. -/
def commandFamily? (token : Token) : Option Family :=
  match token.kind with
  | .command family _ => some family
  | .word =>
    match Family.ofName? token.literal with
    | some .ip | none => none
    | some family => some family
  | _ => none

/-- The command at the current token. -/
def command (grammar : Grammar) : Parse (Option Expression) := do
  let token ← current
  match commandFamily? token with
  | some family => return some (← namespacedCommand grammar family)
  | none =>
    match token.kind with
    | .reserved .when => handler grammar
    | .core .string => stringCommand grammar
    | .reserved .classWord => classCommand grammar
    | .core .regsub => return some (← regsubCommand grammar)
    | .core .pool => return some (← targetCommand grammar .pool)
    | .core .node => return some (← targetCommand grammar .node)
    | .reserved .set => setCommand grammar
    | _ => return some (← plainCommand grammar)

end IRule.Parser
