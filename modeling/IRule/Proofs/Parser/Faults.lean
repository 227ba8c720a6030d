import IRule.Proofs.Lexer.Faults
import IRule.Proofs.Parser.Construct

/-!
# Reports of illegal tokens

Wherever the parser meets an illegal token, the lexer has the error of that token on
record, and the parser reports this error and nothing else. The errors on record are
those of the illegal tokens that stand, whatever calls the lexer has answered.
-/

namespace IRule

open Text

namespace Parser

/-- The illegal ones among the two tokens at hand have their errors on record, that of
the current one since before the lookahead was read. -/
structure State.Blamed (state : State) : Prop where
  recorded : state.lexer.Recorded
  numbered : 0 < state.current.line ∧ 0 < state.lookahead.line
  current : state.current.kind = .illegal →
    ∃ error ∈ state.lexer.before.errors, error.Describes state.current
  ahead : state.lookahead.kind = .illegal →
    ∃ error ∈ state.lexer.errors, error.Describes state.lookahead

namespace State.Blamed

variable {state : State}

/-- What reading a token puts on record. -/
theorem of_next {lexer : Lexer} (illegal : lexer.next.1.kind = .illegal) :
    ∃ error ∈ lexer.next.2.errors, error.Describes lexer.next.1 := by
  rcases lexer.next_errors_cases with ⟨legal, -⟩ | ⟨-, error, added, describes⟩
  · exact absurd illegal legal
  · exact ⟨error, by simp [added], describes⟩

theorem advance (blamed : state.Blamed) : state.advance.Blamed where
  recorded := blamed.recorded.next
  numbered := ⟨blamed.numbered.2, blamed.recorded.next_line_pos⟩
  current := blamed.ahead
  ahead := of_next

theorem afterCapture (blamed : state.Blamed) {word : RawBraced} {lexer : Lexer}
    (captured : state.lexer.capture? state.current = some (word, lexer)) :
    (state.afterCapture word lexer).Blamed := by
  have recorded := blamed.recorded.capture blamed.numbered.1 captured
  exact ⟨recorded.next, ⟨recorded.line, recorded.next_line_pos⟩, by simp [State.afterCapture],
    of_next⟩

/-- Before any token is read there is nothing to blame. -/
theorem blank (source : List Char) (line : Nat) : (State.blank source line).Blamed where
  recorded := .start source line
  numbered := by simp [State.blank]
  current := by simp [State.blank]
  ahead := by simp [State.blank]

/-- Changes that touch neither the tokens nor the lexer. -/
theorem congr {other : State} (blamed : state.Blamed) (lexer : other.lexer = state.lexer)
    (current : other.current = state.current) (lookahead : other.lookahead = state.lookahead) :
    other.Blamed where
  recorded := by rw [lexer]; exact blamed.recorded
  numbered := by rw [current, lookahead]; exact blamed.numbered
  current := by rw [lexer, current]; exact blamed.current
  ahead := by rw [lexer, lookahead]; exact blamed.ahead

/-- The error of an illegal current token is still found when the lookahead has been
read. -/
theorem exists_error (blamed : state.Blamed) (illegal : state.current.kind = .illegal) :
    ∃ error ∈ state.lexer.errors, error.Describes state.current ∧ 0 < error.line ∧
      state.lexer.errorAt? state.current.span = some error := by
  obtain ⟨error, before, describes⟩ := blamed.current illegal
  rw [blamed.recorded.earlier] at before
  have mem := List.mem_of_mem_filter before
  exact ⟨error, mem, describes, blamed.recorded.numbered error mem,
    blamed.recorded.errorAt?_eq mem describes⟩

end State.Blamed

theorem Step.blamed {state next : State} (step : Step state next) (blamed : state.Blamed) :
    next.Blamed := by
  cases step with
  | advance => exact blamed.advance
  | capture captured => exact blamed.afterCapture captured
  | unsign => exact ⟨blamed.recorded, blamed.numbered, by simp [magnitude], blamed.ahead⟩
  | _ => exact blamed.congr rfl rfl rfl

/-- On the way through a rule, every illegal token at hand has its error on record. -/
theorem Reached.blamed {source : List Char} {declared : List String} {state : State}
    (reached : Reached source declared state) : state.Blamed := by
  induction reached with
  | refl => exact (State.Blamed.blank source 1).advance.advance.congr rfl rfl rfl
  | step _ step ih => exact step.blamed ih
  | snippet line => exact (State.Blamed.blank _ line).advance.advance.congr rfl rfl rfl

theorem reportIllegal_eq {state : State} {error : LexicalError}
    (found : state.lexer.errorAt? state.current.span = some error) :
    reportIllegal state = some ((), state.record error.diagnostic) := by
  simp only [reportIllegal, get_bind_apply, found]
  rfl

/-- Whether a construct looks at the current token first and cannot start with an
illegal one. -/
def Fallible.startsLegal {α : Type} : Fallible α → Bool
  | .statementBody | .operand | .piece | .casePattern _ => true
  | _ => false

/-- A construct that cannot start with an illegal token reports it and gives nothing. -/
theorem Fallible.parse_illegal {α : Type} {construct : Fallible α} {grammar : Grammar}
    {state : State} (starts : construct.startsLegal) (illegal : state.current.kind = .illegal) :
    construct.parse grammar state = (reportIllegal >>= fun _ => pure none) state := by
  have looks (next : Token → Parse (Option α)) :
      (current >>= next) state = next state.current state := rfl
  cases construct <;> simp only [startsLegal, Bool.false_eq_true] at starts
  case statementBody =>
    change Parser.statementBody grammar state = _
    unfold Parser.statementBody
    simp only [looks, illegal]
  case operand =>
    change Parser.operand grammar state = _
    unfold Parser.operand
    simp only [looks, illegal]
  case piece =>
    change Parser.piece grammar state = _
    unfold Parser.piece
    simp only [looks, illegal]
  case casePattern options =>
    change Parser.casePattern grammar options state = _
    unfold Parser.casePattern
    simp only [looks, illegal]

/-- Lexical errors and illegal tokens correspond one to one. After any calls of a
lexer the errors on record are, in order, those of the illegal tokens that were given
and not taken back: each has the message, the span and the line of its token, and a
message tells the fault. They start at different places, in order, so that the error of
a token is found by its span. On the way through a rule an illegal current token always
has such an error on record, and whatever construct starts with the token reports this
error, with its code, line and span. -/
theorem errors_match_illegal_tokens :
    (∀ (text : List Char) (line : Nat) (calls : List Lexer.Call),
      let session : Lexer.Session := ⟨.start text line, []⟩
      let lexer := (session.after calls).lexer
      let illegals := Lexer.Session.illegals (session.standing [] calls)
      lexer.errors.map (fun error => (error.fault.message, error.span, error.line)) =
        illegals.map (fun token => (token.literal, token.span, token.line)) ∧
      (illegals.Pairwise fun first second => first.span.start < second.span.start) ∧
      ∀ token ∈ illegals, ∃ error ∈ lexer.errors, error.Describes token ∧
        lexer.errorAt? token.span = some error) ∧
    Function.Injective LexicalFault.message ∧
    ∀ (declared : List String) (source : List Char) (state : State),
      Reached source declared state → state.current.kind = .illegal →
      ∃ error ∈ state.lexer.errors, error.Describes state.current ∧
        state.lexer.errorAt? state.current.span = some error ∧
        error.diagnostic.code = error.fault.code ∧
        error.diagnostic.message = state.current.literal ∧
        error.diagnostic.line = some state.current.line ∧
        error.diagnostic.span = some state.current.span ∧
        reportIllegal state = some ((), state.record error.diagnostic) ∧
        ∀ (α : Type) (construct : Fallible α) (grammar : Grammar), construct.startsLegal →
          construct.parse grammar state = some (none, state.record error.diagnostic) := by
  refine ⟨?_, LexicalFault.message_injective, ?_⟩
  · intro text line calls session lexer illegals
    have faithful := (Lexer.Session.Faithful.start text line).after calls
    refine ⟨faithful.told, faithful.ordered, fun token stands => ?_⟩
    obtain ⟨error, mem, describes⟩ := faithful.exists_error stands
    exact ⟨error, mem, describes, faithful.recorded.errorAt?_eq mem describes⟩
  · intro declared source state reached illegal
    obtain ⟨error, mem, describes, numbered, found⟩ := (Reached.blamed reached).exists_error illegal
    have line : error.diagnostic.line = some error.line := by
      simp [LexicalError.diagnostic, Diagnostic.error, Diagnostic.atLine, numbered.ne']
    refine ⟨error, mem, describes, found, ?_, ?_, ?_, ?_, reportIllegal_eq found, ?_⟩
    · simp [LexicalError.diagnostic]
    · simp [LexicalError.diagnostic, describes.message]
    · rw [line, describes.line]
    · exact congrArg some describes.span
    · intro α construct grammar starts
      rw [Fallible.parse_illegal starts illegal, bind_apply (reportIllegal_eq found)]
      rfl

end Parser

end IRule
