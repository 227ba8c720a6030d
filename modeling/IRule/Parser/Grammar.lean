import IRule.Parser.State
import IRule.Precedence
import IRule.Script.Basic

/-!
# Productions

The productions of the grammar that refer to one another, loops included, and
what each one gives. Every production starts with the current token on its
first token and leaves it on its last one. A `Grammar` is a meaning for all
productions; the rules of the language are functions that build on one, so
that they can be written and studied one by one.
-/

namespace IRule.Parser

/-- Which tokens continue a word. -/
inductive Glue where
  /-- Anything adjacent. -/
  | word
  /-- Pieces of an operand; operators do not glue. -/
  | operand
deriving DecidableEq, Repr, Inhabited

/-- The productions. -/
inductive Production where
  /-- Statements up to the end of the input. -/
  | script
  | statement
  | conditional
  /-- Statements up to the brace that closes the block opened on a line. -/
  | blockBody (line : Nat)
  /-- Everything up to the end of the input, dropped. -/
  | drain
  /-- The rest of a command, dropped. -/
  | skipCommand (depth : Nat)
  /-- Everything up to the enclosing closing brace, dropped. -/
  | skipToCloseBrace
  /-- The rest of a word, taken as text. -/
  | rawWord (depth : Nat)
  | switchOptions (options : SwitchOptions)
  /-- Arms up to the brace that closes the body opened on a line. -/
  | cases (options : SwitchOptions) (line : Nat)
  /-- Further patterns of an arm. -/
  | fallThrough (options : SwitchOptions)
  /-- The rest of a broken arm, dropped. -/
  | skipCaseLine
  | commandOrExpression
  | expression (precedence : Precedence)
  /-- Operators that bind tighter than the given strength, applied to a left operand. -/
  | operatorChain (left : Expression) (precedence : Precedence)
  | callArguments
  | arguments
  | classOptions
  | regsubFlags
  /-- Arguments of `regsub`; the first may be a braced pattern. -/
  | regsubArguments (first : Bool)
  | word (glue : Glue)
  /-- Further pieces of a word, with their spans. -/
  | pieces (glue : Glue)
  /-- Commands up to the bracket that closes the one opened on a line. -/
  | bracketCommands (line : Nat)
  | listElements
  | hashPairs
  | substitutionCommands

/-- What a production gives. Constructs too broken to keep give `none`. -/
abbrev Production.Result : Production → Type
  | .script | .blockBody _ => List Statement
  | .statement | .conditional => Option Statement
  | .drain | .skipCommand _ | .skipToCloseBrace | .rawWord _ | .skipCaseLine => Unit
  | .switchOptions _ => SwitchOptions
  | .cases _ _ => List Case
  | .fallThrough _ => Option (List Pattern)
  | .commandOrExpression | .expression _ | .operatorChain _ _ | .word _ => Option Expression
  | .callArguments | .arguments | .regsubArguments _ | .bracketCommands _ | .listElements
  | .substitutionCommands => List Expression
  | .classOptions | .regsubFlags => List String
  | .pieces _ => List (Expression × Span)
  | .hashPairs => List (Expression × Expression)

/-- A meaning for every production. -/
structure Grammar where
  parse : (production : Production) → Parse production.Result

namespace Grammar

/-- Statements up to the end of the input. -/
def script (grammar : Grammar) : Parse (List Statement) := grammar.parse .script

/-- One command or control structure. -/
def statement (grammar : Grammar) : Parse (Option Statement) := grammar.parse .statement

/-- An `if` with its alternatives. -/
def conditional (grammar : Grammar) : Parse (Option Statement) := grammar.parse .conditional

/-- Statements up to the closing brace. -/
def blockBody (grammar : Grammar) (line : Nat) : Parse (List Statement) :=
  grammar.parse (.blockBody line)

/-- Drop the rest of the input. -/
def drain (grammar : Grammar) : Parse Unit := grammar.parse .drain

/-- Drop the rest of a command, `depth` brackets deep. -/
def skipCommand (grammar : Grammar) (depth : Nat) : Parse Unit := grammar.parse (.skipCommand depth)

/-- Drop everything up to the enclosing closing brace. -/
def skipToCloseBrace (grammar : Grammar) : Parse Unit := grammar.parse .skipToCloseBrace

/-- Pass over the rest of a word, `depth` brackets deep. -/
def rawWord (grammar : Grammar) (depth : Nat) : Parse Unit := grammar.parse (.rawWord depth)

/-- Option words of a `switch`, added to those read before. -/
def switchOptions (grammar : Grammar) (options : SwitchOptions) : Parse SwitchOptions :=
  grammar.parse (.switchOptions options)

/-- Arms of a `switch`. -/
def cases (grammar : Grammar) (options : SwitchOptions) (line : Nat) : Parse (List Case) :=
  grammar.parse (.cases options line)

/-- Further patterns of an arm. -/
def fallThrough (grammar : Grammar) (options : SwitchOptions) : Parse (Option (List Pattern)) :=
  grammar.parse (.fallThrough options)

/-- Drop the rest of a broken arm. -/
def skipCaseLine (grammar : Grammar) : Parse Unit := grammar.parse .skipCaseLine

/-- A command, or an expression when an operator follows its first word. -/
def commandOrExpression (grammar : Grammar) : Parse (Option Expression) :=
  grammar.parse .commandOrExpression

/-- An expression whose operators bind tighter than the given strength. -/
def expression (grammar : Grammar) (precedence : Precedence) : Parse (Option Expression) :=
  grammar.parse (.expression precedence)

/-- Operators applied to a left operand. -/
def operatorChain (grammar : Grammar) (left : Expression) (precedence : Precedence) :
    Parse (Option Expression) :=
  grammar.parse (.operatorChain left precedence)

/-- Arguments of a call, at least one. -/
def callArguments (grammar : Grammar) : Parse (List Expression) := grammar.parse .callArguments

/-- Words up to the end of the command. -/
def arguments (grammar : Grammar) : Parse (List Expression) := grammar.parse .arguments

/-- Option words of `class`. -/
def classOptions (grammar : Grammar) : Parse (List String) := grammar.parse .classOptions

/-- Flag words of `regsub`. -/
def regsubFlags (grammar : Grammar) : Parse (List String) := grammar.parse .regsubFlags

/-- Arguments of `regsub`. -/
def regsubArguments (grammar : Grammar) (first : Bool) : Parse (List Expression) :=
  grammar.parse (.regsubArguments first)

/-- One word. -/
def word (grammar : Grammar) (glue : Glue) : Parse (Option Expression) := grammar.parse (.word glue)

/-- Further pieces of a word. -/
def pieces (grammar : Grammar) (glue : Glue) : Parse (List (Expression × Span)) :=
  grammar.parse (.pieces glue)

/-- Commands up to the closing bracket. -/
def bracketCommands (grammar : Grammar) (line : Nat) : Parse (List Expression) :=
  grammar.parse (.bracketCommands line)

/-- Words up to the end of a snippet. -/
def listElements (grammar : Grammar) : Parse (List Expression) := grammar.parse .listElements

/-- Keys and values up to the end of a snippet. -/
def hashPairs (grammar : Grammar) : Parse (List (Expression × Expression)) :=
  grammar.parse .hashPairs

/-- Commands up to the end of a snippet. -/
def substitutionCommands (grammar : Grammar) : Parse (List Expression) :=
  grammar.parse .substitutionCommands

end Grammar

end IRule.Parser
