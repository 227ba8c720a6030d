import IRule.Parser.State
import Mathlib.Logic.Relation

/-!
# Steps of the parser

Whatever the parser does to its state is one of the steps listed here. A state
is reached when steps lead to it from the start of the rule or of a snippet.
Problems are only ever added, and a text is only exchanged for a shorter one.
-/

namespace IRule.Parser

/-- The state behind a braced word that was taken verbatim: its closing brace is
current, and the token after it is ahead. -/
def State.afterCapture (state : State) (word : RawBraced) (lexer : Lexer) : State :=
  let stop := word.span.stop
  { state with
    lexer := lexer.next.2
    current := ⟨.closeBrace, "\x7d", lexer.line, ⟨stop - 1, stop⟩, .none⟩
    lookahead := lexer.next.1
    braceCount := state.braceCount - 1 }

/-- A negative number without its sign. -/
def magnitude (number : Token) : Token :=
  ⟨.number, String.ofList (number.literal.toList.drop 1), number.line,
    ⟨number.span.start + 1, number.span.stop⟩, .none⟩

/-- The sets of a single command. -/
def singleExclusives : List Exclusives :=
  [{ node := true }, { pool := true }, { redirect := true }, { respond := true }]

/-- One step of the parser. -/
inductive Step : State → State → Prop where
  | advance (state : State) : Step state state.advance
  | capture {state : State} {word : RawBraced} {lexer : Lexer}
      (captured : state.lexer.capture? state.current = some (word, lexer)) :
      Step state (state.afterCapture word lexer)
  /-- The sign of the current number was read as an operator. -/
  | unsign {state : State} (number : state.current.kind = .number)
      (digits : state.current.span.start + 1 < state.lexer.before.offset) :
      Step state { state with current := magnitude state.current }
  /-- Problems are reported; open braces only at the end of the rule. -/
  | record (state : State) {diagnostic : Diagnostic}
      (code : diagnostic.code ≠ .unbalancedBraces) : Step state (state.record diagnostic)
  | declare (state : State) (names : List String) :
      Step state { state with declared := Naming.addAll state.declared names }
  | exclude {state : State} {set : Exclusives} {scopes : Scopes}
      (single : set ∈ singleExclusives) (allowed : state.scopes.declare set = .ok scopes) :
      Step state { state with scopes := scopes }
  | enter (state : State) (nesting : Nesting) : Step state (state.enter nesting)
  | leave (state : State) : Step state state.leave
  | openScope (state : State) : Step state { state with scopes := state.scopes.enter }
  | closeScope (state : State) : Step state { state with scopes := state.scopes.leave }

/-- Any number of steps. -/
abbrev Steps : State → State → Prop :=
  Relation.ReflTransGen Step

/-- A state leads to those that steps make of it, to the snippets of its text
that are read on their own, and to whatever these lead to. -/
inductive Leads (first : State) : State → Prop where
  | refl : Leads first first
  | step {state next : State} (prior : Leads first state) (step : Step state next) :
      Leads first next
  | snippet {state : State} {text : List Char} (line : Nat) (nesting : Nesting)
      (prior : Leads first state)
      (shorter : Text.byteLength text < Text.byteLength state.source) :
      Leads first (.snippet text line nesting state.declared)

/-- States of the parser of a rule, and of the parsers of the snippets in it. -/
abbrev Reached (source : List Char) (declared : List String) : State → Prop :=
  Leads (.start source declared)

namespace Leads

variable {first middle last : State}

theorem trans (left : Leads first middle) (right : Leads middle last) : Leads first last := by
  induction right with
  | refl => exact left
  | step _ step ih => exact ih.step step
  | snippet line nesting _ shorter ih => exact ih.snippet line nesting shorter

theorem steps (prior : Leads first middle) (steps : Steps middle last) : Leads first last := by
  induction steps with
  | refl => exact prior
  | tail _ step ih => exact ih.step step

end Leads

namespace Step

variable {state next : State}

theorem source_eq (step : Step state next) : next.source = state.source := by
  cases step <;> rfl

theorem diagnostics_prefix (step : Step state next) :
    state.diagnostics <+: next.diagnostics := by
  cases step with
  | record _ => exact List.prefix_append _ _
  | _ => exact List.prefix_rfl

/-- No step reports open braces. -/
theorem unbalanced (step : Step state next) {diagnostic : Diagnostic}
    (reported : diagnostic ∈ next.diagnostics) :
    diagnostic ∈ state.diagnostics ∨ diagnostic.code ≠ .unbalancedBraces := by
  cases step with
  | record code =>
    simp only [State.record, List.mem_append, List.mem_singleton] at reported
    rcases reported with before | rfl
    · exact .inl before
    · exact .inr code
  | _ => exact .inl reported

end Step

namespace Steps

variable {state next : State}

theorem source_eq (steps : Steps state next) : next.source = state.source := by
  induction steps with
  | refl => rfl
  | tail _ step ih => exact step.source_eq.trans ih

theorem diagnostics_prefix (steps : Steps state next) :
    state.diagnostics <+: next.diagnostics := by
  induction steps with
  | refl => exact List.prefix_rfl
  | tail _ step ih => exact ih.trans step.diagnostics_prefix

theorem unbalanced (steps : Steps state next) {diagnostic : Diagnostic}
    (reported : diagnostic ∈ next.diagnostics) :
    diagnostic ∈ state.diagnostics ∨ diagnostic.code ≠ .unbalancedBraces := by
  induction steps with
  | refl => exact .inl reported
  | tail _ step ih =>
    rcases step.unbalanced reported with before | code
    · exact ih before
    · exact .inr code

end Steps

/-- Another text is always a shorter one. -/
theorem Leads.source {first last : State} (leads : Leads first last) :
    last.source = first.source ∨
      Text.byteLength last.source < Text.byteLength first.source := by
  induction leads with
  | refl => exact .inl rfl
  | step _ step ih => rwa [step.source_eq]
  | snippet _ _ _ shorter ih =>
    right
    rcases ih with same | less
    · rwa [same] at shorter
    · exact Nat.lt_trans shorter less

end IRule.Parser
