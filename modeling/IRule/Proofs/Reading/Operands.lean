import IRule.Proofs.Climbing.Literal
import IRule.Proofs.Reading.Numeral

/-!
# Operands of an expression

The operands of a formula are numerals and other literals. Whatever tree the operators are
given, its leaves are the operands in the order in which they are written, and of each numeral
among them it is reported whether its integer fits.
-/

namespace IRule

namespace Reading

open IRule.Parser
open IRule.Climbing (Literal Operand Tracks)

/-- An operand that is one token: a numeral, or another literal. -/
inductive Leaf where
  | numeral (numeral : Numeral)
  | literal (literal : Literal)

namespace Leaf

/-- What is written. -/
def text : Leaf → String
  | .numeral integer => String.ofList integer.text
  | .literal other => other.text

/-- What is reported of the operand. -/
def problems : Leaf → List Problem
  | .numeral integer => integer.problems
  | .literal _ => []

/-- The expression is what the operand says. -/
def Shows : Leaf → Expression → Prop
  | .numeral integer => integer.Shows
  | .literal other => fun expression => expression.words = [other.text] ∧ expression.Climbs

theorem startsOperand : (leaf : Leaf) → leaf.text.toList.head?.any Lexeme.startsOperand
  | .numeral integer => by
    simpa [text] using Lexeme.startsOperand_of_starts integer.starts
  | .literal other => other.startsOperand

end Leaf

instance : Operand Leaf where
  text := Leaf.text
  starts := Leaf.startsOperand

variable {setting : Setting} {state : State} {gap rest : List Char} {spacing : Spacing}
  {found : List Problem}

/-- Operands are read as what they say, and a numeral is reported if its integer does not fit. -/
theorem yields_leaf {leaf : Leaf} (gapped : Gap gap spacing)
    (awaits : state.Awaits (RangeReports found) setting (gap ++ (leaf.text.toList ++ rest)))
    (stops : setting.Stops .operand rest) :
    Yields (operand language) state.advance fun result last =>
      ∃ expression, result = some expression ∧ expression.words = [leaf.text] ∧
        leaf.Shows expression ∧
        last.Awaits (RangeReports (found ++ leaf.problems)) setting rest := by
  cases leaf with
  | numeral numeral =>
    simp only [Leaf.text, String.toList_ofList] at awaits
    exact yields_operand_numeral numeral countsRange_rangeReports gapped awaits stops.breaks
  | literal literal =>
    refine (Climbing.yields_literal lenient_rangeReports gapped awaits stops).mono ?_
    rintro _ last ⟨expression, rfl, words, climbs, awaits⟩
    exact ⟨expression, rfl, words, ⟨words, climbs⟩, by simpa [Leaf.problems] using awaits⟩

/-- The leaves of a tree show the operands. -/
theorem tracks_leaves : Tracks (fun leaves expression => List.Forall₂ Leaf.Shows leaves
    expression.leaves) fun leaves => RangeReports (leaves.flatMap Leaf.problems) where
  lenient := fun _ => lenient_rangeReports
  operand := by
    intro leaf taken setting state gap rest spacing gapped awaits stops
    refine (yields_leaf gapped awaits stops).mono ?_
    rintro _ last ⟨expression, rfl, single, shown, awaits⟩
    refine ⟨expression, rfl, single, ?_, by simpa using awaits⟩
    rw [(Expression.leaf_of_words single).1]
    exact .cons shown .nil
  unary := fun _ _ _ shown _ => shown
  group := fun _ _ _ shown => shown
  binary := fun _ _ _ _ _ left right _ _ => List.rel_append left right

end Reading

end IRule
