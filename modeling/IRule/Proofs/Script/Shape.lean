import IRule.Script.Printer
import Mathlib.Tactic

/-!
# The shape of a script

What is left of a script without the places it was read from: kinds of nodes
and what they say, but no tokens, no source text of strings and no marks of
reserved words. The written form of a script depends on its shape alone.
-/

namespace IRule

/-- A pattern without its token. -/
def Pattern.shape : Pattern → Pattern
  | .plain _ text => .plain default text
  | .glob _ text => .glob default text
  | .regex _ text => .regex default text

/-- Patterns of an arm without their tokens. -/
def CasePattern.shape : CasePattern → CasePattern
  | .one pattern => .one pattern.shape
  | .several _ patterns => .several default (patterns.map Pattern.shape)

mutual

/-- An expression without its tokens. -/
def Expression.shape : Expression → Expression
  | .identifier _ name isVariable _ => .identifier default name isVariable false
  | .invalid _ text => .invalid default text
  | .number _ value => .number default value
  | .string _ text => .string default text
  | .boolean _ value => .boolean default value
  | .address _ text => .address default text
  | .unary _ operator operand => .unary default operator operand.shape
  | .binary _ left operator right => .binary default left.shape operator right.shape
  | .group _ inner => .group default inner.shape
  | .computed _ inner => .computed default inner.shape
  | .element _ array key => .element default array.shape key.shape
  | .call _ function arguments => .call default function.shape (shapeAll arguments)
  | .invocation _ name arguments => .invocation default name.shape (shapeAll arguments)
  | .bracket _ commands => .bracket default (shapeAll commands)
  | .list _ elements => .list default (shapeAll elements)
  | .hash _ pairs => .hash default (shapePairs pairs)
  | .mapping _ pairs => .mapping default (shapePairs pairs)
  | .handler _ event priority body => .handler default event.shape priority body.shape
  | .namespaced _ family command arguments =>
    .namespaced default family command (shapeAll arguments)
  | .stringOperation _ operation arguments =>
    .stringOperation default operation (shapeAll arguments)
  | .classCommand _ subcommand options arguments =>
    .classCommand default subcommand options (shapeAll arguments)
  | .regsub _ flags pattern input replacement result =>
    .regsub default flags pattern.shape input.shape replacement.shape result.shape
  | .substitution _ commands => .substitution default (shapeAll commands)
  | .interpolated _ _ parts => .interpolated default "" (shapeAll parts)
  | .regex _ pattern => .regex default pattern
  | .target _ kind arguments => .target default kind (shapeAll arguments)

/-- Shapes of expressions, in order. -/
def shapeAll : List Expression → List Expression
  | [] => []
  | expression :: rest => expression.shape :: shapeAll rest

/-- Shapes of pairs, in order. -/
def shapePairs : List (Expression × Expression) → List (Expression × Expression)
  | [] => []
  | (first, second) :: rest => (first.shape, second.shape) :: shapePairs rest

/-- A statement without its tokens. -/
def Statement.shape : Statement → Statement
  | .set _ name value => .set default name.shape value.shape
  | .returning _ none => .returning default none
  | .returning _ (some value) => .returning default (some value.shape)
  | .expression _ value => .expression default value.shape
  | .block body => .block body.shape
  | .conditional _ condition consequence none =>
    .conditional default condition.shape consequence.shape none
  | .conditional _ condition consequence (some alternative) =>
    .conditional default condition.shape consequence.shape (some alternative.shape)
  | .switch _ options value cases => .switch default options value.shape (shapeCases cases)
  | .foreach _ targets items body => .foreach default targets.shape items.shape body.shape
  | .rule _ name body => .rule default name.shape body.shape

/-- Shapes of statements, in order. -/
def shapeStatements : List Statement → List Statement
  | [] => []
  | statement :: rest => statement.shape :: shapeStatements rest

/-- A block without its tokens. -/
def Block.shape : Block → Block
  | .mk _ statements => .mk default (shapeStatements statements)

/-- Shapes of arms, in order. -/
def shapeCases : List Case → List Case
  | [] => []
  | .mk _ pattern body :: rest =>
    .mk default (pattern.map CasePattern.shape) body.shape :: shapeCases rest

end

/-- A script without its tokens. -/
def Script.shape (script : Script) : Script :=
  ⟨shapeStatements script.statements⟩

/-- Text of a node that is literal text, as it is written. -/
def Expression.spelledText? : Expression → Option String
  | .number _ value => some (Text.int64Text value)
  | .boolean _ value => some (if value then "true" else "false")
  | other => other.wordText?

/-- The copy of a word has its shape and the text it is written with. -/
structure Expression.Copies (copy word : Expression) : Prop where
  shape : copy.shape = word.shape
  text : copy.wordText? = word.spelledText?

/-! ## Written forms -/

theorem Pattern.written_shape (pattern : Pattern) : pattern.shape.written = pattern.written := by
  cases pattern <;> rfl

theorem CasePattern.written_shape (pattern : CasePattern) :
    pattern.shape.written = pattern.written := by
  cases pattern with
  | one pattern => exact pattern.written_shape
  | several token patterns =>
    simp only [shape, written, List.map_map]
    congr 2
    funext pattern
    exact pattern.written_shape

theorem caseHead_shape (pattern : Option CasePattern) :
    caseHead (pattern.map CasePattern.shape) = caseHead pattern := by
  cases pattern with
  | none => rfl
  | some pattern => exact pattern.written_shape

theorem Expression.isNumber_shape (expression : Expression) :
    expression.shape.isNumber = expression.isNumber := by
  cases expression <;> rfl

mutual

theorem Expression.written_shape : (expression : Expression) →
    expression.shape.written = expression.written
  | .identifier .. | .invalid .. | .number .. | .string .. | .boolean .. | .address ..
  | .regex .. => by simp only [Expression.shape, Expression.written]
  | .unary _ _ operand => by
    simp only [Expression.shape, Expression.written, operand.written_shape, operand.isNumber_shape]
  | .binary _ left _ right => by
    simp only [Expression.shape, Expression.written, left.written_shape, right.written_shape]
  | .group _ inner | .computed _ inner => by
    simp only [Expression.shape, Expression.written, inner.written_shape]
  | .element _ array key => by
    simp only [Expression.shape, Expression.written, array.written_shape, key.written_shape]
  | .call _ name arguments | .invocation _ name arguments => by
    simp only [Expression.shape, Expression.written, name.written_shape, writtenAll_shape arguments]
  | .bracket _ words | .list _ words | .namespaced _ _ _ words | .stringOperation _ _ words
  | .classCommand _ _ _ words | .substitution _ words | .target _ _ words => by
    simp only [Expression.shape, Expression.written, writtenAll_shape words]
  | .hash _ pairs | .mapping _ pairs => by
    simp only [Expression.shape, Expression.written, writtenPairs_shape _ pairs]
  | .handler _ event _ body => by
    simp only [Expression.shape, Expression.written, event.written_shape, body.written_shape]
  | .regsub _ _ pattern input replacement result => by
    simp only [Expression.shape, Expression.written, pattern.written_shape, input.written_shape,
      replacement.written_shape, result.written_shape]
  | .interpolated _ _ parts => by
    simp only [Expression.shape, Expression.written, writtenParts_shape parts]

theorem writtenAll_shape : (expressions : List Expression) →
    writtenAll (shapeAll expressions) = writtenAll expressions
  | [] => by simp only [shapeAll]
  | expression :: rest => by
    simp only [shapeAll, writtenAll, expression.written_shape, writtenAll_shape rest]

theorem writtenPairs_shape (separator : String) : (pairs : List (Expression × Expression)) →
    writtenPairs separator (shapePairs pairs) = writtenPairs separator pairs
  | [] => by simp only [shapePairs]
  | (first, second) :: rest => by
    simp only [shapePairs, writtenPairs, first.written_shape, second.written_shape,
      writtenPairs_shape separator rest]

theorem writtenParts_shape : (parts : List Expression) →
    writtenParts (shapeAll parts) = writtenParts parts
  | [] => by simp only [shapeAll]
  | part :: rest => by
    have here := part.written_shape
    have later := writtenParts_shape rest
    cases part <;> simp_all [shapeAll, writtenParts, Expression.shape]

theorem Statement.written_shape : (statement : Statement) →
    statement.shape.written = statement.written
  | .set _ name value => by
    simp only [Statement.shape, Statement.written, name.written_shape, value.written_shape]
  | .returning _ none => by simp only [Statement.shape, Statement.written]
  | .returning _ (some value) | .expression _ value => by
    simp only [Statement.shape, Statement.written, value.written_shape]
  | .block body => by simp only [Statement.shape, Statement.written, body.written_shape]
  | .conditional _ condition consequence none => by
    simp only [Statement.shape, Statement.written, condition.written_shape,
      consequence.written_shape]
  | .conditional _ condition consequence (some alternative) => by
    have later := alternative.written_shape
    simp only [Statement.shape, Statement.written, condition.written_shape,
      consequence.written_shape, later]
    rcases alternative with _ | ⟨_, _ | _⟩ | _ | _ | ⟨_, _, _, _ | _⟩ | _ | _ | _ <;> rfl
  | .switch _ _ value cases => by
    simp only [Statement.shape, Statement.written, value.written_shape, writtenCases_shape cases]
  | .foreach _ targets items body => by
    simp only [Statement.shape, Statement.written, targets.written_shape, items.written_shape,
      body.written_shape]
  | .rule _ name body => by
    simp only [Statement.shape, Statement.written, name.written_shape, body.written_shape]

theorem writtenStatements_shape : (statements : List Statement) →
    writtenStatements (shapeStatements statements) = writtenStatements statements
  | [] => by simp only [shapeStatements]
  | statement :: rest => by
    simp only [shapeStatements, writtenStatements, statement.written_shape,
      writtenStatements_shape rest]

theorem Block.written_shape : (block : Block) → block.shape.written = block.written
  | .mk _ [] => by simp only [Block.shape, shapeStatements, Block.written]
  | .mk _ (statement :: rest) => by
    simp only [Block.shape, shapeStatements, Block.written, statement.written_shape,
      writtenStatements_shape rest]

theorem writtenCases_shape : (cases : List Case) →
    writtenCases (shapeCases cases) = writtenCases cases
  | [] => by simp only [shapeCases]
  | .mk _ pattern body :: rest => by
    simp only [shapeCases, writtenCases, caseHead_shape, body.written_shape,
      writtenCases_shape rest]

end

/-- Scripts of one shape are written the same. -/
theorem Script.written_eq_of_shape_eq {first second : Script} (same : first.shape = second.shape) :
    first.written = second.written := by
  have shapes := congrArg Script.statements same
  simp only [Script.shape] at shapes
  rw [Script.written, Script.written, ← writtenStatements_shape, shapes, writtenStatements_shape]

/-! ## Lists of texts -/

/-- Texts, each with a separator in front. -/
def followed (separator : String) (texts : List String) : String :=
  String.join (texts.map (separator ++ ·))

@[simp]
theorem followed_nil (separator : String) : followed separator [] = "" := by
  simp [followed]

@[simp]
theorem followed_cons (separator text : String) (rest : List String) :
    followed separator (text :: rest) = separator ++ text ++ followed separator rest := by
  simp [followed]

theorem spacedWords_eq_followed (words : List String) :
    spacedWords words = followed " " words := rfl

theorem separated_cons (separator text : String) (rest : List String) :
    separated separator (text :: rest) = text ++ followed separator rest := by
  induction rest generalizing text with
  | nil => simp [separated]
  | cons next later ih =>
    rw [separated, ih]
    · simp [String.append_assoc]
    · simp

theorem followed_append (separator : String) (first second : List String) :
    followed separator (first ++ second) =
      followed separator first ++ followed separator second := by
  induction first with
  | nil => simp
  | cons text rest ih => simp [ih, String.append_assoc]

theorem followed_eq_separated (separator : String) {texts : List String} (nonempty : texts ≠ []) :
    followed separator texts = separator ++ separated separator texts := by
  obtain ⟨text, rest, rfl⟩ := List.exists_cons_of_ne_nil nonempty
  rw [followed_cons, separated_cons, String.append_assoc]

theorem separated_append (separator : String) {first : List String} (second : List String)
    (nonempty : first ≠ []) :
    separated separator (first ++ second) =
      separated separator first ++ followed separator second := by
  obtain ⟨text, rest, rfl⟩ := List.exists_cons_of_ne_nil nonempty
  rw [List.cons_append, separated_cons, separated_cons, followed_append, String.append_assoc]

end IRule
