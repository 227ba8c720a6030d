import IRule.Script.View
import IRule.Text.Integer

/-!
# Canonical text

Every node has one written form, without comments and with a fixed layout.
Reading the written form of an accepted script gives the same written form
again.
-/

namespace IRule

/-- Whether a variable can be written `$name`, without braces. -/
def isPlainName (name : String) : Bool :=
  !name.isEmpty && name.toList.all fun char => char.isAlphanum || char == '_' || char == ':'

/-- A reference with braces, `${name}`. -/
def bracedReference (name : String) : String :=
  "$\x7b" ++ name ++ "\x7d"

/-- A reference, with braces where the name needs them. -/
def referenceText (name : String) : String :=
  if isPlainName name then "$" ++ name else bracedReference name

/-- Words, each with a space in front. -/
def spacedWords (words : List String) : String :=
  String.join (words.map (" " ++ ·))

/-- Texts with a separator between them. -/
def separated (separator : String) : List String → String
  | [] => ""
  | [text] => text
  | text :: rest => text ++ separator ++ separated separator rest

/-- Written form of a pattern. -/
def Pattern.written : Pattern → String
  | .plain _ text => "\"" ++ text ++ "\""
  | .glob _ text | .regex _ text => "\x7b" ++ text ++ "\x7d"

/-- Written form of the patterns of an arm. -/
def CasePattern.written : CasePattern → String
  | .one pattern => pattern.written
  | .several _ patterns => separated " - " (patterns.map Pattern.written)

/-- What an arm starts with. -/
def caseHead : Option CasePattern → String
  | some pattern => pattern.written
  | none => "default"

/-- The priority of a handler. -/
def priorityText : Option Int64 → String
  | some priority => " priority " ++ Text.int64Text priority
  | none => ""

mutual

/-- Written form of an expression. A minus is kept apart from a number, which
would otherwise be read as one negative number. -/
def Expression.written : Expression → String
  | .identifier _ name isVariable _ => if isVariable then referenceText name else name
  | .invalid _ text => text
  | .number _ value => Text.int64Text value
  | .string _ text => "\"" ++ text ++ "\""
  | .boolean _ value => if value then "true" else "false"
  | .address _ text => text
  | .unary _ operator operand =>
    if operator == "-" && operand.isNumber then "- " ++ operand.written
    else operator ++ operand.written
  | .binary _ left operator right => left.written ++ " " ++ operator ++ " " ++ right.written
  | .group _ inner => "(" ++ inner.written ++ ")"
  | .computed _ inner => inner.written
  | .element _ array key => array.written ++ "(" ++ key.written ++ ")"
  | .call _ function arguments =>
    function.written ++ "(" ++ separated ", " (writtenAll arguments) ++ ")"
  | .invocation _ name arguments => name.written ++ spacedWords (writtenAll arguments)
  | .bracket _ commands => "[" ++ separated "; " (writtenAll commands) ++ "]"
  | .list _ elements => "\x7b" ++ separated " " (writtenAll elements) ++ "\x7d"
  | .hash _ pairs => "\x7b" ++ separated ", " (writtenPairs ": " pairs) ++ "\x7d"
  | .mapping _ pairs => "\x7b" ++ separated " " (writtenPairs " " pairs) ++ "\x7d"
  | .handler _ event priority body =>
    "when " ++ event.written ++ priorityText priority ++ " " ++ body.written
  | .namespaced _ _ command arguments => command ++ spacedWords (writtenAll arguments)
  | .stringOperation _ operation arguments =>
    "string " ++ operation ++ spacedWords (writtenAll arguments)
  | .classCommand _ subcommand options arguments =>
    "class " ++ subcommand ++ spacedWords options ++ spacedWords (writtenAll arguments)
  | .regsub _ flags pattern input replacement result =>
    "regsub" ++ spacedWords flags ++ " " ++ pattern.written ++ " " ++ input.written ++ " " ++
      replacement.written ++ " " ++ result.written
  | .substitution _ commands => "[" ++ separated "; " (writtenAll commands) ++ "]"
  | .interpolated _ _ parts => "\"" ++ writtenParts parts ++ "\""
  | .regex _ pattern => "\x7b" ++ pattern ++ "\x7d"
  | .target _ kind arguments => kind.keyword ++ spacedWords (writtenAll arguments)

/-- Written forms of expressions, in order. -/
def writtenAll : List Expression → List String
  | [] => []
  | expression :: rest => expression.written :: writtenAll rest

/-- Written forms of pairs, each joined by `separator`. -/
def writtenPairs (separator : String) : List (Expression × Expression) → List String
  | [] => []
  | (first, second) :: rest =>
    (first.written ++ separator ++ second.written) :: writtenPairs separator rest

/-- Written form of the parts of a string. References have braces, so that they
end where they should. -/
def writtenParts : List Expression → String
  | [] => ""
  | .string _ text :: rest => text ++ writtenParts rest
  | .identifier _ name isVariable _ :: rest =>
    (if isVariable then bracedReference name else name) ++ writtenParts rest
  | part :: rest => part.written ++ writtenParts rest

/-- Written form of a statement. -/
def Statement.written : Statement → String
  | .set _ name value => "set " ++ name.written ++ " " ++ value.written
  | .returning _ none => "return"
  | .returning _ (some value) => "return " ++ value.written
  | .expression _ value => value.written
  | .block body => body.written
  | .conditional _ condition consequence none =>
    "if \x7b" ++ condition.written ++ "\x7d " ++ consequence.written
  | .conditional _ condition consequence (some alternative) =>
    let joint :=
      match alternative with
      | .conditional .. => " else"
      | _ => " else "
    "if \x7b" ++ condition.written ++ "\x7d " ++ consequence.written ++ joint ++ alternative.written
  | .switch _ options value cases =>
    "switch" ++ spacedWords options.words ++ " " ++ value.written ++ " \x7b" ++
      writtenCases cases ++ "\n\x7d"
  | .foreach _ targets items body =>
    "foreach " ++ targets.written ++ " " ++ items.written ++ " " ++ body.written
  | .rule _ name body => "ltm rule " ++ name.written ++ " " ++ body.written

/-- Written forms of statements, in order. -/
def writtenStatements : List Statement → List String
  | [] => []
  | statement :: rest => statement.written :: writtenStatements rest

/-- Written form of a block, one statement a line. -/
def Block.written : Block → String
  | .mk _ [] => "\x7b \x7d"
  | .mk _ (statement :: rest) =>
    "\x7b\n" ++ separated "\n" (statement.written :: writtenStatements rest) ++ "\n\x7d"

/-- Written form of the arms of a `switch`, each on a new line. -/
def writtenCases : List Case → String
  | [] => ""
  | .mk _ pattern body :: rest =>
    "\n" ++ caseHead pattern ++ " " ++ body.written ++ writtenCases rest

end

/-- Written form of a script, one statement a line. -/
def Script.written (script : Script) : String :=
  separated "\n" (writtenStatements script.statements)

end IRule
