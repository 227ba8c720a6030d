import IRule.Proofs.Eval.Run

/-!
# Short circuits

A logical operator does not evaluate its right operand when the left one decides. On
expressions that read variables and assign none, this differs from eager evaluation in
one way only: where the right operand fails, or does not fit the left one, the eager
evaluation ends with an error and the other one with a value.
-/

namespace IRule

/-- Whether an expression is built from literals, references, parentheses and operators,
without commands and calls. -/
def Expression.isPure : Expression → Bool
  | .identifier .. | .invalid .. | .number .. | .string .. | .boolean .. | .address .. => true
  | .unary _ _ operand => operand.isPure
  | .binary _ left _ right => left.isPure && right.isPure
  | .group _ inner => inner.isPure
  | .element _ array key => array.isPure && key.isPure
  | _ => false

namespace Eval

/-- Evaluate an expression with both operands of every operator. -/
def eagerly : Expression → Eval Value
  | .unary _ operator operand => do
    let value ← eagerly operand
    ofResult (unaryOperation operator value)
  | .binary _ left operator right => do
    let first ← eagerly left
    let second ← eagerly right
    ofResult (binaryOperation first operator second)
  | .group _ inner => eagerly inner
  | .element _ array key => do
    let base ← arrayName array (eagerly array)
    let index ← eagerly key
    read (base ++ "(" ++ index.written ++ ")")
  | other => expression other

variable {α β : Type} {environment after : Environment}

/-! ## Refinement -/

/-- Two evaluations that assign nothing, the second of which gives every value that the
first one gives. It may give one where the first fails. -/
structure Refines (eager lazy : Eval α) : Prop where
  eagerStill : Still eager
  lazyStill : Still lazy
  agrees : ∀ environment value, (eager.run.run environment).1 = .ok value →
    (lazy.run.run environment).1 = .ok value

namespace Refines

theorem refl {action : Eval α} (still : Still action) : Refines action action :=
  ⟨still, still, fun _ _ => id⟩

theorem bind {eager lazy : Eval α} {next later : α → Eval β} (first : Refines eager lazy)
    (rest : ∀ value, Refines (next value) (later value)) :
    Refines (eager >>= next) (lazy >>= later) where
  eagerStill := first.eagerStill.bind fun value => (rest value).eagerStill
  lazyStill := first.lazyStill.bind fun value => (rest value).lazyStill
  agrees := by
    intro environment result
    rcases ends : (eager.run.run environment).1 with error | value
    · rw [run_bind_error (first.eagerStill.run ends)]
      rintro ⟨⟩
    · have same := first.agrees environment value ends
      rw [run_bind_ok (first.eagerStill.run ends), run_bind_ok (first.lazyStill.run same)]
      exact (rest value).agrees environment result

end Refines

/-- Values of different shapes do not fit together. -/
theorem shapedOperation_mixed {left right : Value} (operator : String)
    (logical : left.isLogical = true) (other : right.isLogical = false) :
    shapedOperation left operator right =
      .error (.typeMismatch left.type operator right.type) := by
  cases left with
  | integer | boolean => cases right <;> first | rfl | cases other
  | text | empty => cases logical

/-- A left operand that decides gives what the operator gives for every right operand
that it applies to. -/
theorem binaryOperation_of_shortCircuit? {left right decided value : Value} {operator : String}
    (decides : shortCircuit? operator left = some decided)
    (applied : binaryOperation left operator right = .ok value) : value = decided := by
  cases logical : left.isLogical with
  | false => simp [shortCircuit?, logical] at decides
  | true =>
    have mixed (other : right.isLogical = false) :=
      shapedOperation_mixed operator logical other
    simp only [shortCircuit?, logical, Bool.not_true, Bool.false_eq_true, if_false] at decides
    simp only [binaryOperation, logical, Bool.true_and] at applied
    split at decides
    case h_1 | h_2 => cases both : right.isLogical <;> simp_all
    case h_3 => cases decides

/-- Both evaluations of an expression without commands and calls. -/
theorem eagerly_refines (e : Expression) (simple : e.isPure = true) :
    Refines (eagerly e) (expression e) := by
  induction e using Expression.isPure.induct with
  | case1 token name isVariable isReserved =>
    simp only [eagerly, expression]
    split
    · exact .refl (.read name)
    · exact .refl (.pure _)
  | case2 | case3 | case4 | case5 | case6 =>
    simp only [eagerly, expression]
    exact .refl (.pure _)
  | case7 token operator operand ih =>
    simp only [eagerly, expression]
    exact (ih simple).bind fun value => .refl (.ofResult _)
  | case8 token left operator right leftIH rightIH =>
    simp only [Expression.isPure, Bool.and_eq_true] at simple
    simp only [eagerly, expression]
    refine (leftIH simple.1).bind fun first => ?_
    have applied := (rightIH simple.2).bind fun second =>
      .refl (.ofResult (binaryOperation first operator second))
    split
    case h_2 => exact applied
    case h_1 decided decides =>
      -- The right operand is not evaluated, and only the eager evaluation may fail.
      refine ⟨applied.eagerStill, .pure decided, fun environment value gives => ?_⟩
      obtain ⟨second, middle, -, ends⟩ := run_bind_eq_ok (applied.eagerStill.run gives)
      have same : value = decided :=
        binaryOperation_of_shortCircuit? decides (congrArg Prod.fst ends)
      exact congrArg Except.ok same.symm
  | case9 token inner ih =>
    simp only [eagerly, expression]
    exact ih simple
  | case10 token array key arrayIH keyIH =>
    simp only [Expression.isPure, Bool.and_eq_true] at simple
    simp only [eagerly, expression_element]
    refine .bind ?_ fun base => (keyIH simple.2).bind fun index => .refl (.read _)
    unfold arrayName
    split
    · exact .refl (.pure _)
    · exact (arrayIH simple.1).bind fun value => .refl (.pure value.written)
  | case11 => simp_all [Expression.isPure]

/-- On an expression without commands and calls, evaluation assigns nothing, and it gives
every value that the eager evaluation gives: the short circuit may turn an error into a
value, but changes no value and adds no error. -/
theorem shortCircuit_refines {e : Expression} (simple : e.isPure = true)
    (environment : Environment) :
    ((expression e).run.run environment).2 = environment ∧
      ∀ value after, (eagerly e).run.run environment = (.ok value, after) →
        (expression e).run.run environment = (.ok value, environment) := by
  have refines := eagerly_refines e simple
  refine ⟨refines.lazyStill environment, fun value after gives => ?_⟩
  exact refines.lazyStill.run (refines.agrees environment value (congrArg Prod.fst gives))

/-- `($x > 0) || !$y`, with both variables set and with the first one only. -/
theorem shortCircuit_refines_either :
    let e := Expression.binary default
      (.group default
        (.binary default (.identifier default "x" true false) ">" (.number default 0)))
      "||" (.unary default "!" (.identifier default "y" true false))
    let both : Environment := ⟨[("x", .integer 3), ("y", .integer 4)]⟩
    let first : Environment := ⟨[("x", .integer 3)]⟩
    e.isPure = true ∧
      (eagerly e).run.run both = (.ok (.boolean true), both) ∧
      (expression e).run.run both = (.ok (.boolean true), both) ∧
      (eagerly e).run.run first = (.error (.noSuchVariable "y"), first) ∧
      (expression e).run.run first = (.ok (.boolean true), first) := by
  intro e both first
  have simple : e.isPure = true := rfl
  have eager : (eagerly e).run.run both = (.ok (.boolean true), both) := rfl
  exact ⟨simple, eager, (shortCircuit_refines simple both).2 _ _ eager, rfl, rfl⟩

end Eval

end IRule
