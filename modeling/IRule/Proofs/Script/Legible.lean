import IRule.Parser.Statement
import IRule.Proofs.Lexer.Severing
import IRule.Proofs.Script.Targets
import IRule.Proofs.Script.Shape
import IRule.Proofs.Script.Validity

/-!
# Legible scripts

Scripts whose written form says everything there is to them. The printer puts
text between quotes without hiding anything in it, conditions between braces
and operators between their operands, so the written form of a node can mean
something else: `Legible` asks of every node that it does not. Names are known
once an assignment before them has declared them.
-/

namespace IRule

open IRule.Parser

/-! ## Names and texts -/

/-- A bare word that is read as a word. -/
def isLegibleWord (name : String) : Bool :=
  Lexeme.isBareWord name.toList && name != "true" && name != "false"

/-- Whether a reference to the variable ends where its name does. -/
def isLegibleName (name : String) : Bool :=
  if isPlainName name then Lexeme.nameLength name.toList == name.toList.length
  else !name.toList.isEmpty && name.toList.all fun char => char != '\x7d' && char != '\n'

/-- Names that a text can refer to. -/
structure Names where
  /-- Whether references to other variables are reported. -/
  checked : Bool := true
  known : List String := []
  /-- Names that nothing declares. -/
  barred : List String := []
  /-- Whether the text is the key of an element, which ends with a parenthesis. -/
  keyed : Bool := false

namespace Names

/-- Whether a reference to the variable is accepted. -/
def allow (names : Names) (name : String) : Bool :=
  !names.checked || (splitNamespace? name.toList).isSome || names.known.contains name

/-- Names with further ones. -/
def plus (names : Names) (more : List String) : Names :=
  { names with known := names.known ++ more }

/-- Names in a snippet, where no reference is reported. -/
def unchecked (names : Names) : Names :=
  { names with checked := false }

/-- Names in the key of an element. -/
def inKey (names : Names) : Names :=
  { names with keyed := true }

/-- Whether none of the declared is barred. -/
def spares (names : Names) (declared : List String) : Bool :=
  declared.all (!names.barred.contains ·)

end Names

/-- Characters of a word that is taken as text. -/
def isRawChar (char : Char) : Bool :=
  !(Lexeme.startsTrivia char || ['\x7b', '\x7d', '[', ']', '"', ';'].contains char)

/-- A name that is taken as text. The key of an element may be a reference. -/
def isRawName (name : String) : Bool :=
  name.toList.head?.any (· != '$') && name.toList.all isRawChar

/-- Words that turn what stands before them into the operand of an expression. -/
def isOperatorWord (name : String) : Bool :=
  Precedence.isStatementOperator ⟨Lexeme.wordKind name.toList, name, 1, .nowhere, .none⟩

/-- The token at the head of a text, behind a blank. -/
def firstToken (text : List Char) : Token :=
  let lexeme := Lexeme.scan 0 0 text
  ⟨lexeme.kind, String.ofList (text.take lexeme.length), 1, .nowhere, { space := true }⟩

/-- Whether the token at the head of a text turns what stands before it into the operand of an
expression. -/
def startsWithOperator (text : List Char) : Bool :=
  Precedence.isStatementOperator (firstToken text)

/-- Whether the first argument leaves a command a command. -/
def isArgument : Expression → Bool
  | .identifier _ name false _ => !startsWithOperator name.toList
  | _ => true

/-- Whether the first argument leaves an expression in front of it alone. -/
def isLooseArgument : Expression → Bool
  | .identifier _ name false _ =>
    (Precedence.ofToken (firstToken name.toList)).rank == Precedence.lowest.rank
  | _ => true

/-- Kinds of tokens that are read as a literal, and not as a bare word. -/
def isLiteralKind : TokenKind → Bool
  | .number | .address | .reserved .trueWord | .reserved .falseWord => true
  | _ => false

/-- A text that is read as one bare word, whatever number of tokens it is cut into. -/
def isLiteralWord (name : String) : Bool :=
  let lexeme := Lexeme.scan 0 0 name.toList
  !name.toList.isEmpty && name.toList.head? != some ')' && Lexeme.isLiteralRun 0 name.toList &&
    (Lexeme.numbers 0 name.toList).all (fun number => (Text.int64? number).isSome) &&
    (lexeme.length != name.toList.length || !isLiteralKind lexeme.kind)

/-- Whether a word is a bare one. -/
def Expression.isBare : Expression → Bool
  | .identifier _ _ false _ => true
  | _ => false

/-- Whether a bare word is a single token. -/
def Expression.isPiece : Expression → Bool
  | .identifier _ name false _ => isLegibleWord name
  | _ => true

/-- Whether a word is a single token. -/
def Expression.isToken : Expression → Bool
  | .identifier .. | .number .. | .boolean .. | .string .. | .address .. | .interpolated .. => true
  | _ => false

/-- Whether the kind of its first word makes a command a plain one. Words of control structures
are commands between brackets. -/
def isPlainCommand (name : String) : Bool :=
  match Lexeme.wordKind name.toList with
  | .core .log | .reserved .ifWord | .reserved .switch | .reserved .foreach
  | .reserved .returnWord => true
  | .word => Family.ofName? name == none || Family.ofName? name == some .ip
  | _ => false

/-- Whether a command belongs to the family. -/
def isFamilyCommand (family : Family) (name : String) : Bool :=
  match Lexeme.wordKind name.toList with
  | .command known _ => known == family
  | .word => Family.ofName? name == some family && family != .ip
  | _ => false

/-! ### Embedded scripts -/

/-- A word that means something only where a variable of its name is declared. -/
def isIdleWord (name : String) : Bool :=
  Lexeme.wordKind name.toList == .word && !Naming.isStandaloneWord [] name &&
    (Family.ofName? name == none || Family.ofName? name == some .ip)

/-- What a script starts with, apart from brackets that open in front of it. -/
def scriptHead (script : List Char) : List Char :=
  script.dropWhile (· == '[')

/-- The word at the head of a text. -/
def headWord (text : List Char) : String :=
  String.ofList (text.take (Lexeme.wordLength text))

/-- Whether a text starts with an idle word that is barred, and that is not called. -/
def startsIdle (barred : List String) (text : List Char) : Bool :=
  text.head?.any Lexeme.isNameStart && isIdleWord (headWord text) &&
    barred.contains (headWord text) && (text.drop (Lexeme.wordLength text)).head? != some '('

/-- Kinds of tokens that no command and no expression starts with, and that end neither. -/
def isStrayKind : TokenKind → Bool
  | .slash | .percent | .caret | .less | .greater | .lessEqual | .greaterEqual | .equal | .notEqual
  | .both | .either | .dollar | .colon | .doubleColon | .illegal => true
  | _ => false

/-- Whether a text starts with a token that is out of place there. -/
def startsStray (text : List Char) : Bool :=
  Lexeme.startsToken text && isStrayKind (Lexeme.scan 0 0 text).kind

/-- Whether a script between brackets is text: it is read neither as commands nor as an
expression. -/
def isIdle (barred : List String) (script : List Char) : Bool :=
  startsStray (scriptHead script) || startsIdle barred (scriptHead script)

/-- Put text in front of segments. -/
def joinText (text : List Char) : List Segment → List Segment
  | .text later :: rest => .text (text ++ later) :: rest
  | rest => .text text :: rest

/-- Segments of a string as they are read: what is idle is text like that around it. -/
def settled (barred : List String) : List Segment → List Segment
  | [] => []
  | .text text :: rest => joinText text (settled barred rest)
  | .reference name :: rest => .reference name :: settled barred rest
  | .command script before :: rest =>
    if isIdle barred script then joinText ('[' :: script ++ [']']) (settled barred rest)
    else .command script before :: settled barred rest

/-- The segments of the parts of a string, behind what was written before. -/
def partSegments (before : List Char) : List Expression → List Segment
  | [] => []
  | .string _ text :: rest =>
    .text text.toList :: partSegments (text.toList.reverse ++ before) rest
  | .identifier _ name _ _ :: rest =>
    .reference name.toList :: partSegments ((bracedReference name).toList.reverse ++ before) rest
  | .substitution _ commands :: rest =>
    let script := (separated "; " (writtenAll commands)).toList
    .command script before.reverse :: partSegments (']' :: script.reverse ++ '[' :: before) rest
  | _ :: _ => []

/-- Whether a text stays inside the quotes around it and is read as the segments there. -/
def isCutInto (barred : List String) (text : List Char) (parts : List Segment) : Bool :=
  Lexeme.isEnclosed 0 text && settled barred (segments text) == parts

/-! ### Text between braces -/

/-- A text without the blanks and comments in front of it. -/
def skipTrivia (text : List Char) : List Char :=
  text.drop (Lexeme.Trivia.scan false text).length

/-- A text without the token at its head. -/
def skipToken (text : List Char) : List Char :=
  text.drop (Lexeme.scan 0 0 text).length

/-- Whether the token at the head of a text is a word of its own, without a problem. -/
def startsLoneWord (text : List Char) : Bool :=
  let lexeme := Lexeme.scan 0 0 text
  Lexeme.startsToken text && lexeme.kind != .illegal &&
    (lexeme.kind != .number || (Text.int64? (text.take lexeme.length)).isSome)

/-- What is left of a text, behind its first `skip` characters, from the first token on that does
not stand in a word as it is written. -/
def remnant (skip : Nat) : List Char → List Char
  | [] => []
  | char :: rest =>
    match skip with
    | more + 1 => remnant more rest
    | 0 =>
      let gap := (Lexeme.Trivia.scan false (char :: rest)).length
      let tokens := skipTrivia (char :: rest)
      let lexeme := Lexeme.scan 0 0 tokens
      if Lexeme.startsToken tokens && lexeme.kind != .illegal then
        remnant (gap + lexeme.length - 1) rest
      else tokens

/-- Whether a text cannot be read as words: no token can be made of what is left of it, or idle
brackets come first. -/
def isBroken (barred : List String) (text : List Char) : Bool :=
  match remnant 0 text with
  | '[' :: script => isIdle barred script
  | left => Lexeme.startsToken left

/-- Whether a closing brace behind the text is the one that closes it. -/
def isBraced (text : List Char) : Bool :=
  (Lexer.bracedBody? 0 (text ++ ['\x7d'])).map (·.length) == some text.length

/-- Whether a colon stands right behind the first token of the text. -/
def startsPair (text : List Char) : Bool :=
  (Lexeme.scan 0 0 (skipToken (skipTrivia text))).kind == .colon

/-- Whether the key of a pair is a token and no value of one token follows, or more than that. -/
def isBrokenPair (text : List Char) : Bool :=
  let key := skipTrivia text
  let value := skipTrivia (skipToken (skipToken key))
  let next := skipTrivia (skipToken value)
  startsLoneWord key &&
    (value.head?.all (· == ',') || startsLoneWord value && next.head?.any (· != ','))

/-- Whether what is left in the braces of a list is text that cannot be read. -/
def isKept (barred : List String) : List Expression → Bool
  | [.identifier _ name false _] =>
    let text := name.toList
    isBraced text && if startsPair text then isBrokenPair text else isBroken barred text
  | _ => false

/-- Whether a text starts with an option word: a dash, and a letter or another dash. -/
def startsOption : List Char → Bool
  | '-' :: next :: _ => next.isAlpha || next == '-'
  | _ => false

/-- Whether options of `class` end in front of the words. -/
def endsOptions (words : List Expression) : List String → Bool
  | [] => words.head?.any fun word => !startsOption word.written.toList
  | option :: rest => if option == "--" then rest.isEmpty else endsOptions words rest

/-- A flag of `regsub` that is read back. -/
def isLegibleFlag (flag : String) : Bool :=
  startsOption flag.toList && Lexeme.isLiteralRun 0 flag.toList && flag != "--" &&
    Vocabulary.isRegsubFlag (String.ofList (flag.toList.dropWhile (· == '-')))

/-- Whether the comparison of `class match` and `class search` is a known one, if it is literal
text. -/
def comparesKnown (subcommand : String) (arguments : List Expression) : Bool :=
  !(subcommand == "match" || subcommand == "search") ||
    (arguments[1]?.bind Expression.wordText?).all Vocabulary.isClassOperator

/-- Whether the header that the arguments of `HTTP::header` name is a known one, if they name one
literally. -/
def namesHeader (arguments : List Expression) : Bool :=
  ((headerArgument? arguments).bind Expression.wordText?).all Naming.isHeaderName

/-- Whether a pattern is taken verbatim as it is written. -/
def isVerbatimPattern : Expression → Bool
  | .regex _ pattern => isBraced pattern.toList
  | _ => false

/-- Members of pairs, in order. -/
def members : List (Expression × Expression) → List Expression
  | [] => []
  | (first, second) :: rest => first :: second :: members rest

/-- Words as they stand in a `string map`, whose first list is one of pairs. -/
def unpaired : List Expression → List Expression
  | [] => []
  | .mapping token pairs :: rest => .list token (members pairs) :: rest
  | .list token elements :: rest => .list token elements :: rest
  | word :: rest => word :: unpaired rest

/-- Whether a string starts with text. -/
def startsWithText : List Expression → Bool
  | .string .. :: _ => true
  | _ => false

/-- Kinds of bare words that can be operands. -/
def isOperandKind : TokenKind → Bool
  | .word | .core _ | .reserved .classWord | .reserved .defaultWord => true
  | _ => false

/-! ## Variables -/

/-- The variable that a target declares, if it is a literal name. -/
def Expression.targetNames : Expression → List String
  | .identifier _ name false _ => [declaredName name]
  | _ => []

theorem Expression.targetNames_of_not_isBare {word : Expression} (notBare : word.isBare = false) :
    word.targetNames = [] := by
  rcases word with ⟨_, _, _ | _, _⟩ | _
  case identifier.false => simp [isBare] at notBare
  all_goals rfl

/-- Variables that the target of a loop declares, which may be a list. -/
def Expression.loopNames : Expression → List String
  | .list _ elements => elements.flatMap Expression.targetNames
  | other => other.targetNames

/-- A literal with the spelling it is written in. -/
def Expression.respelled : Expression → Expression
  | .number token value => .number { token with literal := Text.int64Text value } value
  | .boolean token value =>
    .boolean { token with literal := if value then "true" else "false" } value
  | word => word

/-- Variables declared by a node on its own, apart from what stands in it. -/
def Node.declares : Node → List String
  | .expression (.invocation _ (.identifier _ name false _) arguments) =>
    if name == "set" then arguments.head?.elim [] Expression.targetNames
    else assignedNames name (arguments.map Expression.respelled)
  | .expression (.regsub _ _ _ _ _ result) => result.targetNames
  | .statement (.set _ target _) => target.targetNames
  | .statement (.foreach _ targets _ _) => targets.loopNames
  | _ => []

/-- Variables declared by nodes. -/
def declaredBy (nodes : List Node) : List String :=
  nodes.flatMap Node.declares

/-- Variables declared in an expression. -/
def Expression.names (expression : Expression) : List String :=
  declaredBy expression.nodes

/-- Variables declared in a list of expressions. -/
def wordNames (words : List Expression) : List String :=
  declaredBy (nodesOf words)

/-- Variables declared in a statement. -/
def Statement.names (statement : Statement) : List String :=
  declaredBy statement.nodes

/-- Variables declared in statements. -/
def namesOf (statements : List Statement) : List String :=
  declaredBy (statementNodes statements)

/-- Variables declared in a block. -/
def Block.names (body : Block) : List String :=
  declaredBy body.nodes

/-- What stands in pairs is what stands in their members. -/
theorem pairNodes_eq (pairs : List (Expression × Expression)) :
    pairNodes pairs = nodesOf (members pairs) := by
  induction pairs with
  | nil => rfl
  | cons pair pairs ih => simp [members, ih]

section Names

@[simp]
theorem declaredBy_nil : declaredBy [] = [] := rfl

@[simp]
theorem declaredBy_cons (node : Node) (nodes : List Node) :
    declaredBy (node :: nodes) = node.declares ++ declaredBy nodes := rfl

@[simp]
theorem declaredBy_append (first second : List Node) :
    declaredBy (first ++ second) = declaredBy first ++ declaredBy second :=
  List.flatMap_append

@[simp]
theorem wordNames_nil : wordNames [] = [] := rfl

@[simp]
theorem wordNames_cons (word : Expression) (words : List Expression) :
    wordNames (word :: words) = word.names ++ wordNames words := by
  simp [wordNames, Expression.names]

@[simp]
theorem namesOf_nil : namesOf [] = [] := rfl

@[simp]
theorem namesOf_cons (statement : Statement) (statements : List Statement) :
    namesOf (statement :: statements) = statement.names ++ namesOf statements := by
  simp [namesOf, Statement.names]

@[simp]
theorem Block.names_mk (token : Token) (statements : List Statement) :
    (Block.mk token statements).names = namesOf statements := by
  simp [Block.names, namesOf]

end Names

/-! ## Operators -/

/-- Binding strength of an operator. -/
def Operator.rank (operator : Operator) : Nat :=
  (Precedence.ofToken ⟨operator.tokenKind, operator.text, 1, .nowhere, .none⟩).rank

/-- Binding strength of the operator of a spelling. -/
def operatorRank (operator : String) : Nat :=
  match Operator.ofText? operator with
  | some known => known.rank
  | none => Precedence.lowest.rank

/-- More than every binding strength. -/
def topRank : Nat := 10

/-- Strength of the weakest operator that is met first from the left. -/
def Expression.leftRank : Expression → Nat
  | .binary _ left operator _ => min left.leftRank (operatorRank operator)
  | .call .. => Precedence.call.rank
  | _ => topRank

/-- Strength beyond which an operator behind the expression would take away its
last operand. -/
def Expression.rightRank : Expression → Nat
  | .binary _ _ operator right => min (operatorRank operator) right.rightRank
  | .unary _ _ operand => min Precedence.unary.rank operand.rightRank
  | _ => topRank

/-- Whether an operator can stand right in front of its operand. -/
def isPrefixOf (operator : String) (operand : Expression) : Bool :=
  operator == "!" || operator == "*" ||
    (operator == "-" && (operand.isNumber || !operand.written.toList.head?.any Char.isDigit))

/-! ## Commands and expressions -/

/-- Names of commands: bare words, and commands of the families. -/
def Expression.isCommandWord : Expression → Bool
  | .identifier _ name false _ => Lexeme.wordKind name.toList != .reserved .defaultWord
  | .namespaced .. => true
  | _ => false

/-- Whether the expression is not taken for a command. What starts with the name of one is a
command, unless an operator stands right behind it. -/
def Expression.leads : Expression → Bool
  | .binary _ left operator _ =>
    if left.isCommandWord then startsWithOperator operator.toList else left.leads
  | .call .. => false
  | other => !other.isCommandWord

/-- Whether what stands for a command is not taken for a block or a control structure. -/
def Expression.opensStatement : Expression → Bool
  | .identifier _ name false _ => isOperandKind (Lexeme.wordKind name.toList)
  | .binary _ left _ _ => left.opensStatement
  | .invocation _ name _ => name.opensStatement
  | .list .. | .hash .. => false
  | _ => true

/-! ## Words, commands and expressions -/

mutual

/-- A word that is read back as it is, wherever a word is expected. -/
def Expression.legibleArgument (names : Names) : Expression → Bool
  | .identifier _ name false _ =>
    isLiteralWord name && !(names.keyed && name.toList.contains ')')
  | .identifier _ name true _ => isLegibleName name && names.allow name
  | .number .. | .boolean .. => true
  | .string _ text => isCutInto names.barred text.toList (Segment.ofText text.toList)
  | .address _ text => Lexeme.isAddress text.toList
  | .element _ (.identifier _ name true _) key =>
    isLegibleName name && names.allow name && key.legibleArgument names.inKey
  | .bracket _ commands => legibleCommands names commands
  | .interpolated _ _ parts =>
    legibleParts names.unchecked parts && !parts.all Expression.isString &&
      isCutInto names.barred (writtenParts parts).toList (partSegments [] parts)
  | .list _ elements =>
    isKept names.barred elements ||
      legibleArguments names.unchecked elements &&
        isBraced (separated " " (writtenAll elements)).toList &&
        !startsPair (separated " " (writtenAll elements)).toList
  | .hash _ pairs =>
    pairs.head?.any (fun entry => entry.1.isToken) && legibleEntries names.unchecked pairs &&
      isBraced (separated ", " (writtenPairs ": " pairs)).toList
  | _ => false

/-- Words that are read back as they are. -/
def legibleArguments (names : Names) : List Expression → Bool
  | [] => true
  | word :: rest => word.legibleArgument names && legibleArguments (names.plus word.names) rest

/-- Pairs of words that are read back as they are. -/
def legiblePairs (names : Names) : List (Expression × Expression) → Bool
  | [] => true
  | (first, second) :: rest =>
    first.legibleArgument names && second.legibleArgument (names.plus first.names) &&
      legiblePairs ((names.plus first.names).plus second.names) rest

/-- Keys and values that are read back as they are. -/
def legibleEntries (names : Names) : List (Expression × Expression) → Bool
  | [] => true
  | (key, value) :: rest =>
    key.legibleArgument names && key.isPiece && value.legibleArgument (names.plus key.names) &&
      value.isPiece && legibleEntries ((names.plus key.names).plus value.names) rest

/-- Words of a `string map` that are read back as they are. The first list stands for pairs,
unless one word is left over. -/
def legibleMapped (names : Names) : List Expression → Bool
  | [] => true
  | .mapping _ pairs :: rest =>
    legiblePairs names.unchecked pairs &&
    isBraced (separated " " (writtenPairs " " pairs)).toList &&
      !startsPair (separated " " (writtenPairs " " pairs)).toList &&
      legibleArguments (names.plus (wordNames (members pairs))) rest
  | .list token elements :: rest =>
    (Expression.list token elements).legibleArgument names && elements.length % 2 == 1 &&
      legibleArguments (names.plus (wordNames elements)) rest
  | word :: rest => word.legibleArgument names && legibleMapped (names.plus word.names) rest

/-- Parts of a string that are read back as they are, where the string is cut into them. No two
texts meet. -/
def legibleParts (names : Names) : List Expression → Bool
  | [] => true
  | .string _ _ :: rest => !startsWithText rest && legibleParts names rest
  | .identifier _ _ true _ :: rest => legibleParts names rest
  | .substitution _ commands :: rest =>
    !commands.isEmpty && legibleCommands names commands &&
      legibleParts (names.plus (wordNames commands)) rest
  | _ => false

/-- The target of a `set` that is read back as it is. -/
def Expression.legibleTarget (names : Names) : Expression → Bool
  | .identifier _ name false _ =>
    isRawName name && Naming.isVariableName name && names.spares [declaredName name]
  | .identifier _ name true _ => isLegibleName name && names.allow name
  | .computed _ (.bracket _ commands) => legibleCommands names commands
  | .string _ text => isCutInto names.barred text.toList (Segment.ofText text.toList)
  | .element _ (.identifier _ name true _) key =>
    isLegibleName name && names.allow name && key.legibleArgument names.inKey
  | .interpolated _ _ parts =>
    legibleParts names.unchecked parts && !parts.all Expression.isString &&
      isCutInto names.barred (writtenParts parts).toList (partSegments [] parts)
  | _ => false

/-- The target and the value of a `set` between brackets that are read back as they are. -/
def legibleAssignment (names : Names) : List Expression → Bool
  | [target, value] => target.legibleTarget names && value.legibleArgument (names.plus target.names)
  | _ => false

/-- A command that is read back as it is. The name of a command may be an expression. -/
def Expression.legibleCommand (names : Names) : Expression → Bool
  | .invocation _ (.identifier _ name false _) arguments =>
    if name == "set" then legibleAssignment names arguments
    else
      isLegibleWord name && isPlainCommand name && Naming.isStandaloneWord names.known name &&
        legibleArguments names arguments && arguments.head?.all isArgument &&
        names.spares (assignedNames name (arguments.map Expression.respelled))
  | .invocation _ name arguments =>
    name.legibleExpression names && name.leads &&
    legibleArguments (names.plus name.names) arguments &&
      arguments.head?.any isLooseArgument
  | .namespaced _ family command arguments =>
    isLegibleWord command && isFamilyCommand family command &&
      legibleArguments names arguments && arguments.head?.all isArgument &&
      (command != "HTTP::header" || namesHeader (arguments.map Expression.respelled))
  | .stringOperation _ operation arguments =>
    isLegibleWord operation && !isOperatorWord operation &&
      if operation == "map" then legibleMapped names arguments
      else legibleArguments names arguments
  | .classCommand _ subcommand options arguments =>
    legibleArguments names arguments && endsOptions arguments options &&
      comparesKnown subcommand (arguments.map Expression.respelled)
  | .regsub _ flags pattern input replacement result =>
    flags.all isLegibleFlag &&
      (isVerbatimPattern pattern || pattern.legibleArgument names && isArgument pattern &&
        !startsOption pattern.written.toList && pattern.written.toList.head? != some '\x7b') &&
      input.legibleArgument (names.plus pattern.names) &&
      replacement.legibleArgument ((names.plus pattern.names).plus input.names) &&
      result.legibleArgument
        (((names.plus pattern.names).plus input.names).plus replacement.names) &&
      names.spares result.targetNames
  | .target _ _ arguments => legibleArguments names arguments && arguments.head?.all isArgument
  | _ => false

/-- Commands and expressions in brackets that are read back as they are. -/
def legibleCommands (names : Names) : List Expression → Bool
  | [] => true
  | command :: rest =>
    (command.legibleCommand names || command.legibleExpression names && command.leads) &&
      command.exclusives == .empty && legibleCommands (names.plus command.names) rest

/-- An expression that is read back as it is. Operators are written without
parentheses, so each has to be where its strength puts it. -/
def Expression.legibleExpression (names : Names) : Expression → Bool
  | .binary _ left operator right =>
    (Operator.ofText? operator).isSome && left.legibleExpression names &&
      right.legibleExpression (names.plus left.names) &&
      decide (operatorRank operator ≤ left.rightRank) &&
      decide (operatorRank operator < right.leftRank)
  | .unary _ operator operand =>
    isPrefixOf operator operand && operand.legibleExpression names &&
      decide (Precedence.unary.rank < operand.leftRank)
  | .group _ inner => inner.legibleExpression names
  | .call _ (.identifier _ name false _) arguments =>
    Lexeme.isBareWord name.toList && isOperandKind (Lexeme.wordKind name.toList) &&
      legibleExpressions names arguments
  | .identifier _ name false _ =>
    Lexeme.isBareWord name.toList && isOperandKind (Lexeme.wordKind name.toList) &&
      (Lexeme.wordKind name.toList != .word || Naming.isStandaloneWord names.known name)
  | .namespaced _ family command [] =>
    Lexeme.isBareWord command.toList &&
      (Lexeme.wordKind command.toList).family? == some family && command != "HTTP::header"
  | .identifier _ name true _ => isLegibleName name && names.allow name
  | .number .. | .boolean .. => true
  | .string _ text => isCutInto names.barred text.toList (Segment.ofText text.toList)
  | .address _ text => Lexeme.isAddress text.toList
  | .element _ (.identifier _ name true _) key =>
    isLegibleName name && names.allow name && key.legibleArgument names.inKey
  | .bracket _ commands => legibleCommands names commands
  | .interpolated _ _ parts =>
    legibleParts names.unchecked parts && !parts.all Expression.isString &&
      isCutInto names.barred (writtenParts parts).toList (partSegments [] parts)
  | .list _ elements =>
    isKept names.barred elements ||
      legibleArguments names.unchecked elements &&
        isBraced (separated " " (writtenAll elements)).toList &&
        !startsPair (separated " " (writtenAll elements)).toList
  | .hash _ pairs =>
    pairs.head?.any (fun entry => entry.1.isToken) && legibleEntries names.unchecked pairs &&
      isBraced (separated ", " (writtenPairs ": " pairs)).toList
  | _ => false

/-- Expressions that are read back as they are. -/
def legibleExpressions (names : Names) : List Expression → Bool
  | [] => true
  | expression :: rest =>
    expression.legibleExpression names && legibleExpressions (names.plus expression.names) rest

end

/-- A word that is read back as it is, even where it is not glued together. -/
def Expression.legibleWord (names : Names) (word : Expression) : Bool :=
  word.legibleArgument names && word.isPiece

/-! ## Statements -/

/-- Targets of a `foreach` that stand in braces: names, one by one. -/
def isLoopList (targets : List Expression) : Bool :=
  targets.all (fun target => target.isBare && Naming.isVariableName target.written) &&
    Text.words (separated " " (writtenAll targets)).toList ==
      (writtenAll targets).map String.toList &&
    isBraced (separated " " (writtenAll targets)).toList

/-- The target of a `foreach` that is read back as it is. -/
def Expression.legibleLoop (names : Names) : Expression → Bool
  | .identifier _ name false _ =>
    isRawName name && Naming.isVariableName name && names.spares [declaredName name]
  | .list _ elements =>
    isLoopList elements && names.spares (elements.flatMap Expression.targetNames)
  | word@(.identifier _ _ true _) | word@(.element ..) | word@(.bracket ..) =>
    word.legibleArgument names
  | _ => false

/-- A pattern of a `switch` with the given options that is read back as it is. -/
def Pattern.legible (options : SwitchOptions) : Pattern → Bool
  | .plain _ text => !options.regex && !options.glob && Lexeme.isEnclosed 0 text.toList
  | .glob _ text => !options.regex && isBraced text.toList
  | .regex _ text => options.regex && isBraced text.toList

/-- What is in front of the body of an arm, and is read back as it is. -/
def CasePattern.legible (options : SwitchOptions) : CasePattern → Bool
  | .one pattern => pattern.legible options
  | .several _ patterns => patterns.all (·.legible options) && decide (2 ≤ patterns.length)

mutual

/-- A statement that is read back as it is. -/
def Statement.legible (names : Names) : Statement → Bool
  | .set _ target value =>
    target.legibleTarget names && value.legibleArgument (names.plus target.names)
  | .returning _ none => true
  | .returning _ (some value) => value.legibleArgument names
  | .expression _ (.handler _ (.identifier _ event false _) _ body) =>
    isLegibleWord event && body.legible names
  | .expression _ value =>
    (value.legibleCommand names || value.legibleExpression names && value.leads) &&
      value.opensStatement
  | .block body => body.legible names
  | .conditional _ condition consequence none =>
    condition.legibleExpression names && consequence.legible (names.plus condition.names)
  | .conditional _ condition consequence (some (.block body)) =>
    condition.legibleExpression names && consequence.legible (names.plus condition.names) &&
      body.legible ((names.plus condition.names).plus consequence.names)
  | .conditional _ condition consequence (some (.conditional token tested body otherwise)) =>
    condition.legibleExpression names && consequence.legible (names.plus condition.names) &&
      (Statement.conditional token tested body otherwise).legible
        ((names.plus condition.names).plus consequence.names)
  | .switch _ options value cases =>
    value.legibleArgument names && !startsOption value.written.toList &&
      legibleCases options (names.plus value.names) cases
  | .foreach _ targets items body =>
    targets.legibleLoop names &&
      items.legibleArgument ((names.plus targets.names).plus targets.loopNames) &&
      body.legible (((names.plus targets.names).plus targets.loopNames).plus items.names)
  | .rule _ (.identifier _ name false _) body => isRawName name && body.legible names
  | _ => false

/-- Statements that are read back as they are. -/
def legibleStatements (names : Names) : List Statement → Bool
  | [] => true
  | statement :: rest =>
    statement.legible names && legibleStatements (names.plus statement.names) rest

/-- A block that is read back as it is. -/
def Block.legible (names : Names) : Block → Bool
  | .mk _ statements => legibleStatements names statements

/-- Arms of a `switch` that are read back as they are. -/
def legibleCases (options : SwitchOptions) (names : Names) : List Case → Bool
  | [] => true
  | .mk _ pattern body :: rest =>
    pattern.all (·.legible options) && body.legible names &&
      legibleCases options (names.plus body.names) rest

end

/-! ## Scripts -/

/-- The script of an embedded command. -/
def Parser.Segment.embedded? : Segment → Option (List Char)
  | .command script _ => some script
  | _ => none

/-- Idle words that scripts in a text start with. -/
def idleWords (text : List Char) : List String :=
  (((segments text).filterMap Segment.embedded?).map fun script =>
    headWord (scriptHead script)).filter isIdleWord

/-- The idle word that the brackets start with in which a text cannot be read. -/
def idleRemnant (text : List Char) : List String :=
  match remnant 0 text with
  | '[' :: script => [headWord (scriptHead script)].filter isIdleWord
  | _ => []

/-- Idle words in the text of a node. -/
def Node.idleWords : Node → List String
  | .expression (.string _ text) => IRule.idleWords text.toList
  | .expression (.list _ [.identifier _ text false _]) => idleRemnant text.toList
  | _ => []

/-- Names that no variable of the script may have, because texts in it have them in brackets. -/
def Script.barred (script : Script) : List String :=
  script.nodes.flatMap Node.idleWords

/-- A script that is read back as it is. -/
def Script.legible (script : Script) : Bool :=
  legibleStatements { barred := script.barred } script.statements

end IRule
