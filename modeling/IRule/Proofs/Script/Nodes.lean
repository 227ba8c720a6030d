import IRule.Script.Basic

/-!
# The nodes of a script

Every expression and every statement of a script, at any depth: operands, the words of
commands, embedded commands, blocks and the arms of a `switch`. A property of a script
that is a property of single nodes is stated over this list.
-/

namespace IRule

/-- An expression or a statement of a script. -/
inductive Node where
  | expression (expression : Expression)
  | statement (statement : Statement)

mutual

/-- An expression and what stands in it. -/
@[simp]
def Expression.nodes (expression : Expression) : List Node :=
  .expression expression ::
    match expression with
    | .identifier .. | .invalid .. | .number .. | .string .. | .boolean .. | .address ..
    | .regex .. => []
    | .unary _ _ operand => operand.nodes
    | .binary _ left _ right => left.nodes ++ right.nodes
    | .group _ inner => inner.nodes
    | .computed _ inner => inner.nodes
    | .element _ array key => array.nodes ++ key.nodes
    | .call _ function arguments => function.nodes ++ nodesOf arguments
    | .invocation _ name arguments => name.nodes ++ nodesOf arguments
    | .bracket _ commands => nodesOf commands
    | .list _ elements => nodesOf elements
    | .hash _ pairs => pairNodes pairs
    | .mapping _ pairs => pairNodes pairs
    | .handler _ event _ body => event.nodes ++ body.nodes
    | .namespaced _ _ _ arguments => nodesOf arguments
    | .stringOperation _ _ arguments => nodesOf arguments
    | .classCommand _ _ _ arguments => nodesOf arguments
    | .regsub _ _ pattern input replacement result =>
      pattern.nodes ++ (input.nodes ++ (replacement.nodes ++ result.nodes))
    | .substitution _ commands => nodesOf commands
    | .interpolated _ _ parts => nodesOf parts
    | .target _ _ arguments => nodesOf arguments

/-- What stands in a list of expressions. -/
@[simp]
def nodesOf : List Expression → List Node
  | [] => []
  | expression :: rest => expression.nodes ++ nodesOf rest

/-- What stands in pairs of expressions. -/
@[simp]
def pairNodes : List (Expression × Expression) → List Node
  | [] => []
  | (first, second) :: rest => first.nodes ++ (second.nodes ++ pairNodes rest)

/-- A statement and what stands in it. -/
@[simp]
def Statement.nodes (statement : Statement) : List Node :=
  .statement statement ::
    match statement with
    | .set _ name value => name.nodes ++ value.nodes
    | .returning _ none => []
    | .returning _ (some value) => value.nodes
    | .expression _ value => value.nodes
    | .block body => body.nodes
    | .conditional _ condition consequence none => condition.nodes ++ consequence.nodes
    | .conditional _ condition consequence (some alternative) =>
      condition.nodes ++ (consequence.nodes ++ alternative.nodes)
    | .switch _ _ value cases => value.nodes ++ caseNodes cases
    | .foreach _ targets items body => targets.nodes ++ (items.nodes ++ body.nodes)
    | .rule _ name body => name.nodes ++ body.nodes

/-- What stands in statements. -/
@[simp]
def statementNodes : List Statement → List Node
  | [] => []
  | statement :: rest => statement.nodes ++ statementNodes rest

/-- What stands in a block. -/
@[simp]
def Block.nodes : Block → List Node
  | .mk _ statements => statementNodes statements

/-- What stands in the arms of a `switch`, whose patterns are never read as code. -/
@[simp]
def caseNodes : List Case → List Node
  | [] => []
  | .mk _ _ body :: rest => body.nodes ++ caseNodes rest

end

/-- What stands in a script. -/
def Script.nodes (script : Script) : List Node :=
  statementNodes script.statements

section Lists

@[simp]
theorem nodesOf_append (first second : List Expression) :
    nodesOf (first ++ second) = nodesOf first ++ nodesOf second := by
  induction first with
  | nil => rfl
  | cons expression rest ih => simp [ih]

theorem nodesOf_eq_flatMap (expressions : List Expression) :
    nodesOf expressions = expressions.flatMap Expression.nodes := by
  induction expressions with
  | nil => rfl
  | cons expression rest ih => simp [ih]

@[simp]
theorem caseNodes_append (first second : List Case) :
    caseNodes (first ++ second) = caseNodes first ++ caseNodes second := by
  induction first with
  | nil => rfl
  | cons arm rest ih =>
    obtain ⟨token, pattern, body⟩ := arm
    simp [ih]

end Lists

end IRule
