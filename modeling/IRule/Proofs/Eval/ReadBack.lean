import IRule.Proofs.Eval.Run
import IRule.Proofs.RoundTrip.Variable

/-!
# Assigned variables are read back

A rule assigns a number to a variable and returns a reference to it. Four parts have to
agree on the name: the check of the target, the scanner of references, the check of
declared variables, and the name that the interpreter makes of an element and its key.
They agree on every scalar, but not on every element.
-/

namespace IRule

namespace Eval

/-! ## Expressions and statements, up to their tokens -/

variable {assigned : Variable} {value : Int64} {braced : Bool}

theorem expression_number {copy : Expression} (shape : copy.shape = .number default value) :
    expression copy = pure (.integer value) := by
  cases copy <;> simp_all [Expression.shape, expression]

theorem expression_boolean {copy : Expression} {value : Bool}
    (shape : copy.shape = .boolean default value) :
    expression copy = pure (.boolean value) := by
  cases copy <;> simp_all [Expression.shape, expression]

/-- Shapes of names are shapes of names only. -/
theorem identifier_of_shape {copy : Expression} {name : String} {isVariable : Bool}
    (shape : copy.shape = .identifier default name isVariable false) :
    ∃ token isReserved, copy = .identifier token name isVariable isReserved := by
  cases copy <;> simp_all [Expression.shape]

/-- The key of an element is evaluated. -/
theorem expression_keyNode {key : String} {copy : Expression}
    (shape : copy.shape = (Variable.keyNode key).shape) :
    ∃ index : Value, expression copy = pure index ∧ index.written = Variable.lookupKey key := by
  unfold Variable.keyNode at shape
  unfold Variable.lookupKey
  cases reads : Text.int64? key.toList with
  | some value =>
    simp only [reads] at shape
    exact ⟨.integer value, expression_number shape, rfl⟩
  | none =>
    simp only [reads] at shape
    split at shape
    · rename_i same
      exact ⟨.boolean true, expression_boolean shape, same.symm⟩
    · split at shape
      · rename_i same
        exact ⟨.boolean false, expression_boolean shape, same.symm⟩
      · obtain ⟨token, isReserved, rfl⟩ := identifier_of_shape shape
        exact ⟨.text key, by simp [expression], rfl⟩

/-- A reference looks up its name. -/
theorem expression_node {copy : Expression} (shape : copy.shape = (assigned.node braced).shape) :
    expression copy = read (assigned.lookupName braced) := by
  have looksUp {name : String} (same : copy.shape = .identifier default name true false) :
      expression copy = read name := by
    obtain ⟨token, isReserved, rfl⟩ := identifier_of_shape same
    simp [expression]
  cases assigned with
  | scalar name => exact looksUp shape
  | element array key =>
    cases braced with
    | true => exact looksUp shape
    | false =>
      cases copy
      case element token base index =>
        simp only [Variable.node, Expression.shape, Bool.false_eq_true, if_false,
          Expression.element.injEq, true_and] at shape
        obtain ⟨inner, isReserved, rfl⟩ := identifier_of_shape shape.1
        obtain ⟨found, evaluates, written⟩ := expression_keyNode shape.2
        simp [expression, evaluates, written, Variable.lookupName, Variable.name]
      all_goals simp [Variable.node, Expression.shape] at shape

/-- An assignment goes on with its value. -/
theorem statement_set {copy : Statement} {name : String}
    (shape : copy.shape = .set default (.identifier default name false false)
      (.number default value)) (environment : Environment) :
    (statement copy).run.run environment =
      (.ok (.next (.integer value)), environment.define name (.integer value)) := by
  fun_cases Statement.shape copy <;>
    simp only [Statement.shape, reduceCtorEq, Statement.set.injEq, true_and] at shape
  rename_i token target number
  obtain ⟨inner, isReserved, rfl⟩ := identifier_of_shape shape.1
  simp only [statement, targetName, expression_number shape.2]
  rfl

/-- A variable that is returned has to be assigned. -/
theorem statement_returning {copy : Statement}
    (shape : copy.shape = .returning default (some (assigned.node braced).shape))
    (environment : Environment) :
    (statement copy).run.run environment =
      (match environment.lookup (assigned.lookupName braced) with
        | some value => .ok (.returned value)
        | none => .error (.noSuchVariable (assigned.lookupName braced)), environment) := by
  fun_cases Statement.shape copy <;>
    simp only [Statement.shape, reduceCtorEq, Statement.returning.injEq, Option.some.injEq,
      true_and] at shape
  rename_i token result
  simp only [statement, expression_node shape, ExceptT.run_bind, StateT.run_bind, run_read]
  cases environment.lookup (assigned.lookupName braced) <;> rfl

/-- Running the rule gives the number exactly when the reference looks up the variable. -/
theorem script_program {statements : List Statement}
    (shape : shapeStatements statements = Parser.programShape assigned value braced) :
    (script .empty {} statements).1 = .ok (.integer value) ↔
      assigned.lookupName braced = assigned.name := by
  match statements with
  | [first, second] =>
    simp only [shapeStatements, Parser.programShape, List.cons.injEq, and_true] at shape
    simp only [script, statement_set shape.1, statement_returning shape.2,
      Environment.lookup_define]
    by_cases same : assigned.lookupName braced = assigned.name
    · simp [same]
    · have unset : ({} : Environment).lookup (assigned.lookupName braced) = none := rfl
      simp [same, unset]
  | [] | [_] | _ :: _ :: _ :: _ => simp [shapeStatements, Parser.programShape] at shape

end Eval

open IRule.Parser

/-- A variable that was set is read back, by a reference without or with braces, exactly
when it is readable: then the rule is read without a problem and gives the number.
Scalars are always readable. An element is not readable in braces unless its array is in
a namespace, since the array is declared and the whole name is looked for. Without
braces it is not readable if its key is a number in another spelling, since the number
is what is looked up, or if its key starts with a number that is too large. -/
theorem read_back_iff {assigned : Variable} (legal : assigned.isLegal) (value : Int64)
    (braced : Bool) :
    let outcome := parse (assigned.program value braced)
    (outcome.diagnostics = [] ∧ (outcome.script.run {}).1 = .ok (.integer value)) ↔
      assigned.isReadable braced := by
  intro outcome
  rw [Variable.isReadable_eq, Bool.and_eq_true, beq_iff_eq]
  cases accepted : assigned.isAccepted braced with
  | true =>
    obtain ⟨clean, shape⟩ := parse_program value legal accepted
    have runs := Eval.script_program shape
    simp [Script.run, runs, outcome, clean]
  | false =>
    have reported : outcome.diagnostics ≠ [] := parse_program_refused value legal accepted
    simp [reported]

/-- An element is read back without braces, but not in braces, and not if its key is a
number with zeros in front. -/
theorem read_back_iff_element :
    let plain := (Variable.element "a" "k").program 5 false
    let braced := (Variable.element "a" "k").program 5 true
    let zeros := (Variable.element "a" "007").program 5 false
    (plain = "set a(k) 5\nreturn $a(k)" ∧
      (parse plain).diagnostics = [] ∧ ((parse plain).script.run {}).1 = .ok (.integer 5)) ∧
    (braced = "set a(k) 5\nreturn $\x7ba(k)\x7d" ∧
      ¬((parse braced).diagnostics = [] ∧ ((parse braced).script.run {}).1 = .ok (.integer 5))) ∧
    zeros = "set a(007) 5\nreturn $a(007)" ∧
      ¬((parse zeros).diagnostics = [] ∧ ((parse zeros).script.run {}).1 = .ok (.integer 5)) := by
  intro plain braced zeros
  have legal : (Variable.element "a" "k").isLegal := by decide
  have numbered : (Variable.element "a" "007").isLegal := by decide
  refine ⟨⟨by decide, (read_back_iff legal 5 false).2 (by decide)⟩, ⟨by decide, ?_⟩, by decide, ?_⟩
  · exact mt (read_back_iff legal 5 true).1 (by decide)
  · exact mt (read_back_iff numbered 5 false).1 (by decide)

end IRule
