import IRule.Operand
import IRule.Parser.Command

/-!
# Valid scripts

`Expression.Sound` is the condition a node has to meet on its own,
`Expression.Valid` and its companions ask it of every node of a tree, and of
every block that no two of its statements exclude each other. Nothing here
refers to how a tree was read.
-/

namespace IRule

open IRule.Parser

/-! ## Commands that exclude each other -/

namespace Exclusives

/-- Every command of the first set is in the second. -/
structure Within (inner outer : Exclusives) : Prop where
  node : inner.node → outer.node
  pool : inner.pool → outer.pool
  redirect : inner.redirect → outer.redirect
  respond : inner.respond → outer.respond

/-- No two commands of the set exclude each other. -/
structure Compatible (set : Exclusives) : Prop where
  targets : ¬(set.node ∧ set.pool)
  answers : ¬(set.redirect ∧ set.respond)

theorem Within.refl (set : Exclusives) : set.Within set := ⟨id, id, id, id⟩

theorem Within.trans {first second third : Exclusives} (inner : first.Within second)
    (outer : second.Within third) : first.Within third :=
  ⟨outer.node ∘ inner.node, outer.pool ∘ inner.pool, outer.redirect ∘ inner.redirect,
    outer.respond ∘ inner.respond⟩

theorem empty_within (set : Exclusives) : empty.Within set := by
  constructor <;> simp [empty]

theorem Within.union {first second outer : Exclusives} (left : first.Within outer)
    (right : second.Within outer) : (first.union second).Within outer := by
  constructor <;> simp only [Exclusives.union, Bool.or_eq_true] <;> rintro (present | present)
  · exact left.node present
  · exact right.node present
  · exact left.pool present
  · exact right.pool present
  · exact left.redirect present
  · exact right.redirect present
  · exact left.respond present
  · exact right.respond present

/-- A part of a compatible set is compatible. -/
theorem Within.compatible {inner outer : Exclusives} (within : inner.Within outer)
    (compatible : outer.Compatible) : inner.Compatible where
  targets := fun both => compatible.targets ⟨within.node both.1, within.pool both.2⟩
  answers := fun both => compatible.answers ⟨within.redirect both.1, within.respond both.2⟩

theorem empty_compatible : empty.Compatible := by
  constructor <;> simp [empty]

end Exclusives

/-- What a command excludes others by, when it stands as a statement. -/
def Expression.exclusives : Expression → Exclusives
  | .target _ .node _ => { node := true }
  | .target _ .pool _ => { pool := true }
  | .namespaced _ _ command _ =>
    { redirect := command == "HTTP::redirect", respond := command == "HTTP::respond" }
  | _ => .empty

/-- What a statement excludes others by. -/
def Statement.exclusives : Statement → Exclusives
  | .expression _ value => value.exclusives
  | _ => .empty

/-- What a list of statements excludes others by. -/
def exclusivesOf : List Statement → Exclusives
  | [] => .empty
  | statement :: rest => statement.exclusives.union (exclusivesOf rest)

theorem exclusivesOf_append (first second : List Statement) :
    exclusivesOf (first ++ second) = (exclusivesOf first).union (exclusivesOf second) := by
  induction first with
  | nil => simp [exclusivesOf, Exclusives.union, Exclusives.empty]
  | cons statement rest ih => simp [exclusivesOf, ih, Exclusives.union, Bool.or_assoc]

/-! ## Conditions on single nodes -/

/-- Whether `class` takes the arguments: `match` and `search` want an item, a
comparison and a class. -/
def ClassArguments (subcommand : String) (arguments : List Expression) : Prop :=
  subcommand = "match" ∨ subcommand = "search" →
    ∃ item operator list, arguments = [item, operator, list] ∧
      ∀ text, operator.wordText? = some text → Vocabulary.isClassOperator text

/-- The condition a node has to meet on its own. -/
def Expression.Sound : Expression → Prop
  | .invalid .. => False
  | .binary _ left operator right => acceptsOperands operator left right
  | .handler _ event _ _ => ∃ name, event.wordText? = some name ∧ Vocabulary.isEvent name
  | .namespaced _ _ command arguments =>
    command = "HTTP::header" →
      ∀ name, (headerArgument? arguments).bind Expression.wordText? = some name →
        Naming.isHeaderName name
  | .stringOperation _ operation arguments =>
    ∃ least, Vocabulary.stringArity? operation = some least ∧
      least ≤ (positional arguments).length
  | .classCommand _ subcommand options arguments =>
    Vocabulary.isClassSubcommand subcommand ∧
      (∀ option ∈ options, option ∈ Vocabulary.classOptions) ∧
      ClassArguments subcommand arguments
  | .regsub _ _ _ _ _ (.identifier _ name false _) => Naming.isVariableName name
  | .target _ _ arguments => arguments ≠ []
  | _ => True

/-! ## Conditions on trees -/

mutual

/-- Every node of an expression meets its condition. -/
def Expression.Valid : Expression → Prop
  | .identifier .. | .number .. | .string .. | .boolean .. | .address .. | .regex .. => True
  | .invalid token text => (Expression.invalid token text).Sound
  | .unary _ _ operand => operand.Valid
  | .binary token left operator right =>
    (Expression.binary token left operator right).Sound ∧ left.Valid ∧ right.Valid
  | .group _ inner => inner.Valid
  | .computed _ inner => inner.Valid
  | .element _ array key => array.Valid ∧ key.Valid
  | .call _ function arguments => function.Valid ∧ AllValid arguments
  | .invocation _ name arguments => name.Valid ∧ AllValid arguments
  | .bracket _ commands => AllValid commands
  | .list _ elements => AllValid elements
  | .hash _ pairs => PairsValid pairs
  | .mapping _ pairs => PairsValid pairs
  | .handler token event priority body =>
    (Expression.handler token event priority body).Sound ∧ event.Valid ∧ body.Valid
  | .namespaced token family command arguments =>
    (Expression.namespaced token family command arguments).Sound ∧ AllValid arguments
  | .stringOperation token operation arguments =>
    (Expression.stringOperation token operation arguments).Sound ∧ AllValid arguments
  | .classCommand token subcommand options arguments =>
    (Expression.classCommand token subcommand options arguments).Sound ∧ AllValid arguments
  | .regsub token flags pattern input replacement result =>
    (Expression.regsub token flags pattern input replacement result).Sound ∧ pattern.Valid ∧
      input.Valid ∧ replacement.Valid ∧ result.Valid
  | .substitution _ commands => AllValid commands
  | .interpolated _ _ parts => AllValid parts
  | .target token kind arguments =>
    (Expression.target token kind arguments).Sound ∧ AllValid arguments

/-- Every expression of a list is valid. -/
def AllValid : List Expression → Prop
  | [] => True
  | expression :: rest => expression.Valid ∧ AllValid rest

/-- Both members of every pair are valid. -/
def PairsValid : List (Expression × Expression) → Prop
  | [] => True
  | (first, second) :: rest => first.Valid ∧ second.Valid ∧ PairsValid rest

/-- Every node of a statement meets its condition. -/
def Statement.Valid : Statement → Prop
  | .set _ name value => name.Valid ∧ value.Valid
  | .returning _ none => True
  | .returning _ (some value) => value.Valid
  | .expression _ value => value.Valid
  | .block body => body.Valid
  | .conditional _ condition consequence none => condition.Valid ∧ consequence.Valid
  | .conditional _ condition consequence (some alternative) =>
    condition.Valid ∧ consequence.Valid ∧ alternative.Valid
  | .switch _ _ value cases => value.Valid ∧ CasesValid cases
  | .foreach _ targets items body => targets.Valid ∧ items.Valid ∧ body.Valid
  | .rule _ name body => name.Valid ∧ body.Valid

/-- Every statement of a list is valid. -/
def StatementsValid : List Statement → Prop
  | [] => True
  | statement :: rest => statement.Valid ∧ StatementsValid rest

/-- Every statement of a block is valid, and none excludes another. -/
def Block.Valid : Block → Prop
  | .mk _ statements => StatementsValid statements ∧ (exclusivesOf statements).Compatible

/-- The body of every arm is valid. -/
def CasesValid : List Case → Prop
  | [] => True
  | .mk _ _ body :: rest => body.Valid ∧ CasesValid rest

end

/-- Every statement of a script is valid, and none excludes another. -/
def Script.Valid (script : Script) : Prop :=
  StatementsValid script.statements ∧ (exclusivesOf script.statements).Compatible

theorem allValid_iff {expressions : List Expression} :
    AllValid expressions ↔ ∀ expression ∈ expressions, expression.Valid := by
  induction expressions with
  | nil => simp [AllValid]
  | cons expression rest ih => simp [AllValid, ih]

@[simp]
theorem allValid_append {first second : List Expression} :
    AllValid (first ++ second) ↔ AllValid first ∧ AllValid second := by
  simp only [allValid_iff, List.mem_append, or_imp, forall_and]

@[simp]
theorem allValid_toList {result : Option Expression} :
    AllValid result.toList ↔ ∀ value ∈ result, value.Valid := by
  simp [allValid_iff]

theorem statementsValid_iff {statements : List Statement} :
    StatementsValid statements ↔ ∀ statement ∈ statements, statement.Valid := by
  induction statements with
  | nil => simp [StatementsValid]
  | cons statement rest ih => simp [StatementsValid, ih]

theorem casesValid_iff {cases : List Case} :
    CasesValid cases ↔ ∀ arm ∈ cases, arm.body.Valid := by
  induction cases with
  | nil => simp [CasesValid]
  | cons arm rest ih =>
    cases arm
    simp [CasesValid, ih, Case.body]

theorem casesValid_append {first second : List Case} :
    CasesValid (first ++ second) ↔ CasesValid first ∧ CasesValid second := by
  simp only [casesValid_iff, List.mem_append, or_imp, forall_and]

end IRule
