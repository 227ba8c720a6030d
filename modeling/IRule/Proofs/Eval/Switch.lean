import IRule.Proofs.Eval.Run
import IRule.Proofs.RoundTrip.Switch

/-!
# Evaluation of a switch

A `switch` looks for a pattern first and for the default arm in a second search. Over
the arms that its cases stand for, with fall-through written out, this is one choice:
the body that the arm of the subject leads to, or else the one of the default arm.

A dash in front of the default arm is the exception. There the parser takes `default`
for a pattern, and the switch has no default arm.
-/

namespace IRule

open Arm (bodyFrom chosen)

namespace Eval

/-- Without options a pattern selects its own text. -/
theorem selectsCase_iff {subject : String} {pattern : CasePattern} :
    selectsCase {} subject pattern ↔
      some subject ∈ pattern.patterns.map fun pattern => some pattern.text := by
  have selects_iff (pattern : Pattern) : selects {} subject pattern ↔ pattern.text = subject := by
    simp [selects, foldCase]
  cases pattern with
  | one pattern => simp [selectsCase, CasePattern.patterns, selects_iff, eq_comm]
  | several token patterns => simp [selectsCase, CasePattern.patterns, selects_iff]

theorem selected_eq (subject : String) (cases : List Case) :
    selected {} subject cases =
      match bodyFrom (some subject) (cases.flatMap Case.arms) with
      | some body => some <$> block body
      | none => return none := by
  induction cases with
  | nil => rfl
  | cons arm later ih =>
    obtain ⟨token, pattern, body⟩ := arm
    rw [List.flatMap_cons, Case.arms, Arm.bodyFrom_falling]
    cases pattern with
    | none => simp [selected, Case.patterns, ih]
    | some pattern =>
      simp only [selected, Case.patterns, ← selectsCase_iff, Case.body]
      split
      · rfl
      · exact ih

theorem defaultCase_eq (cases : List Case) :
    defaultCase cases =
      match bodyFrom none (cases.flatMap Case.arms) with
      | some body => block body
      | none => return .next .empty := by
  induction cases with
  | nil => rfl
  | cons arm later ih =>
    obtain ⟨token, pattern, body⟩ := arm
    rw [List.flatMap_cons, Case.arms, Arm.bodyFrom_falling]
    cases pattern with
    | none => simp [defaultCase, Case.patterns, Case.body]
    | some pattern => simp [defaultCase, Case.patterns, ih]

/-- Every pattern of a parsed switch leads to a body. -/
theorem bodyFrom_isSome (pattern : Option String) (cases : List Case) :
    (bodyFrom pattern (cases.flatMap Case.arms)).isSome =
      (cases.flatMap Case.arms).any fun arm => arm.pattern == pattern := by
  induction cases with
  | nil => rfl
  | cons arm later ih =>
    rw [List.flatMap_cons, List.any_append, ← ih, Case.arms, Arm.bodyFrom_falling,
      Arm.any_falling]
    split <;> rename_i here
    · simp [here]
    · simp_all

/-- A parsed switch without options evaluates the body that its value selects. -/
theorem statement_switch (token : Token) (value : Expression) (cases : List Case) :
    statement (.switch token {} value cases) = do
      let subject ← expression value
      match chosen subject.written (cases.flatMap Case.arms) with
      | some body => block body
      | none => return .next .empty := by
  simp only [statement, Bool.false_eq_true, if_false, selected_eq, defaultCase_eq, foldCase]
  refine bind_congr fun subject => ?_
  rw [chosen, ← bodyFrom_isSome]
  cases bodyFrom (some subject.written) (cases.flatMap Case.arms) with
  | none => simp
  | some body => simp

/-- What a script ends with that is one statement on the given line. -/
def ending (line : Nat) : Except EvalError Flow × Environment →
    Except (EvalError × Nat) Value × Environment
  | (.ok (.next value), after) => (.ok value, after)
  | (.ok (.returned value), after) => (.ok value, after)
  | (.error error, after) => (.error (error, line), after)

theorem script_singleton (last : Value) (environment : Environment) (first : Statement) :
    script last environment [first] =
      ending first.line ((statement first).run.run environment) := by
  simp only [script]
  rcases (statement first).run.run environment with ⟨_ | _ | _, after⟩ <;> rfl

end Eval

open IRule.Parser

/-- A switch on its own, whose value is a word and whose arms are quoted patterns and
default arms, is read without a problem, with the arms as they are written; only behind a
dash is `default` a pattern. Running it runs the one block that the value selects among
these arms, with what evaluating the value left behind, and gives nothing if it selects
none. -/
theorem switch_runs_chosen {declared : List String} {value : Expression}
    {arms : List (Arm ArmHead BlockText)} {closing : List Char}
    (legible : value.legibleWord { known := declared }) (valid : value.Valid)
    (formed : ArmsFormed arms) (reads : ReadsArms { known := declared } arms)
    (apart : Lexeme.Apart closing) :
    let outcome := parseWith declared (String.ofList (switchWritten value arms closing))
    outcome.diagnostics = [] ∧
    ∃ token subject cases, outcome.script.statements = [.switch token {} subject cases] ∧
      subject.shape = value.shape ∧
      shapeArms (cases.flatMap Case.arms) = shapeArms (Arm.asRead false (plainArms arms)) ∧
      ((plainArms arms).IsChain (fun first second => first.body = none → second.pattern ≠ none) →
        Arm.asRead false (plainArms arms) = plainArms arms) ∧
      ∀ environment found after,
        (Eval.expression subject).run.run environment = (.ok found, after) →
        outcome.script.run environment =
          Eval.ending token.line
            (match chosen found.written (cases.flatMap Case.arms) with
            | some body => (Eval.block body).run.run after
            | none => (.ok (.next .empty), after)) := by
  have parsed := parse_switch legible valid formed reads apart
  dsimp only at parsed ⊢
  generalize parseWith declared _ = outcome at parsed ⊢
  obtain ⟨clean, token, subject, cases, statements, shape, same⟩ := parsed
  refine ⟨clean, token, subject, cases, statements, shape, same, Arm.asRead_eq_self, ?_⟩
  intro environment found after evaluates
  rw [Script.run, statements, Eval.script_singleton, Eval.statement_switch,
    Eval.run_bind_ok evaluates, Statement.line]
  cases chosen found.written (cases.flatMap Case.arms) <;> rfl

/-- A pattern that falls through, a pattern with a block and the default arm. -/
theorem switch_runs_chosen_fallThrough :
    let block := Block.mk default [.returning default (some (.number default 1))]
    let body : BlockText := ⟨block.written.toList, block⟩
    let arms : List (Arm ArmHead BlockText) := [⟨{ pattern := some "a" }, none⟩,
      ⟨{ pattern := some "b" }, some body⟩, ⟨{ pattern := none }, some body⟩]
    let source := String.ofList (switchWritten (.string default "a") arms ['\n'])
    source = "switch \"a\" \x7b\n\"a\" -\n\"b\" \x7b\nreturn 1\n\x7d\n" ++
        "default \x7b\nreturn 1\n\x7d\n\x7d" ∧
      (parseWith [] source).diagnostics = [] ∧
      ∃ token subject cases,
        (parseWith [] source).script.statements = [.switch token {} subject cases] ∧
        shapeArms (cases.flatMap Case.arms) =
          [⟨some "a", none⟩, ⟨some "b", some block.shape⟩, ⟨none, some block.shape⟩] := by
  intro block body arms source
  have blockValid : block.Valid := by
    simp only [block, Block.Valid, StatementsValid, Statement.Valid, Expression.Valid, and_true,
      true_and]
    exact Exclusives.empty_compatible
  have reads (names : Names) : ReadsText names body :=
    readsText_of_legible (show block.legible names by rfl) blockValid
  have line : Lexeme.Apart ['\n'] := Lexeme.apart_of_blank (by simp) (by simp)
  have space : Lexeme.Apart [' '] := Lexeme.apart_of_blank (by simp) (by simp [Lexeme.isSpace])
  have formed : ArmsFormed arms := by
    refine ⟨?_, by simp [arms], by simp [arms]⟩
    have plain (text : String) (plain : Lexeme.isPlainText text.toList) :
        (ArmHead.mk ['\n'] (some text) [' ']).Formed :=
      ⟨line, space, by simpa using Lexeme.Enclosed.of_isPlainText plain⟩
    have other : (ArmHead.mk ['\n'] none [' ']).Formed := ⟨line, space, by simp⟩
    simpa [arms, other] using ⟨plain "a" (by decide), plain "b" (by decide)⟩
  have parsed :=
    @switch_runs_chosen [] (.string default "a") arms ['\n'] (by decide)
      (by simp [Expression.Valid]) formed (by simp [arms, ReadsArms, reads]) line
  refine ⟨by decide +kernel, ?_⟩
  rw [show String.ofList (switchWritten (.string default "a") arms ['\n']) = source from rfl]
    at parsed
  generalize parseWith [] source = outcome at parsed ⊢
  obtain ⟨clean, token, subject, cases, statements, -, same, -⟩ := parsed
  exact ⟨clean, token, subject, cases, statements, same⟩

/-- Behind a dash the default arm is none. -/
example : chosen "z" (Arm.asRead false [⟨some "a", none⟩, ⟨none, some 1⟩]) = none := by
  decide

end IRule
