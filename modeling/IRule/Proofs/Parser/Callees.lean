import IRule.Proofs.Lexer.Tiling
import IRule.Proofs.Parser.Giving
import IRule.Proofs.Parser.Language
import IRule.Proofs.Parser.RealLines

/-!
# What a call is applied to

A call is folded onto what stands to the left of its parenthesis by the same loop as the
operators. `Callee` is what a parenthesis can be glued to: an operand that was read up to
it, or a call, or what a logical operator or `contains` made of these, for only these bind
tighter than a call.
-/

namespace IRule

/-- A call, as far as its arguments do not matter. -/
structure CallSite where
  /-- The parenthesis in front of the arguments. -/
  opening : Token
  /-- What is called. -/
  function : Expression

/-- Whether an operator stands at the root. -/
def Expression.isOperation : Expression → Bool
  | .unary .. | .binary .. => true
  | _ => false

namespace Parser

variable {source : List Char} {declared : List String} {grammar : Grammar} {state : State}

/-! ## Callees -/

/-- Operators that bind tighter than a call. -/
def bindsTighter (kind : TokenKind) : Prop :=
  kind = .both ∨ kind = .either ∨ kind = .reserved .contains

/-- What stands in front of a token: the operand or the call that the parser of the rule
has read up to it, or a logical operation or `contains` that ends with one of these. -/
inductive Callee (source : List Char) (declared : List String) : Expression → Token → Prop where
  | operand {first last : State} {value : Expression} (visited : Visited source declared first)
      (reads : operand language first = some (some value, last))
      (starts : value.token = first.current) (single : value.isOperation = false) :
      Callee source declared value last.lookahead
  | call {first last : State} {function value : Expression}
      (visited : Visited source declared first) (opening : first.current.kind = .openParen)
      (callee : Callee source declared function first.current)
      (reads : callExpression language function first = some (value, last)) :
      Callee source declared value last.lookahead
  | operation {token ahead : Token} {left right : Expression} {operator : String}
      (tighter : bindsTighter token.kind) (callee : Callee source declared right ahead) :
      Callee source declared (.binary token left operator right) ahead

/-- The parenthesis of a call is glued to what is called, right behind which the parser
of the rule finds it. -/
structure Glued (source : List Char) (declared : List String) (call : CallSite) : Prop where
  kind : call.opening.kind = .openParen
  adjacent : call.opening.spacing.isAdjacent
  place : ∃ state, Visited source declared state ∧ state.lookahead = call.opening ∧
    state.current.span.stop = call.opening.span.start
  callee : Callee source declared call.function call.opening

/-! ## The parenthesis ahead -/

/-- A token that nothing separates from the current one starts where that ends. -/
theorem Visited.stop_eq_of_adjacent (visited : Visited source declared state)
    (adjacent : state.lookahead.spacing.isAdjacent) :
    state.current.span.stop = state.lookahead.span.start := by
  obtain ⟨before, visits⟩ := visited
  have placed := visits.placed (start_placed source declared)
  have telling := Lexer.next_telling ⟨state.lexer.before, state.lexer.before⟩
  rw [placed.coherent.read] at telling
  obtain ⟨separators, parted, spacing⟩ := telling.described
  rw [spacing, Lexeme.spacingOf_isAdjacent, parted.eq_nil_iff] at adjacent
  rw [placed.aligned.joined, telling.start, adjacent]
  rfl

theorem State.parenGlued_iff :
    state.parenGlued ↔ state.lookahead.kind = .openParen ∧ state.lookahead.spacing.isAdjacent := by
  simp [parenGlued]

/-- A parenthesis that is glued to the current token is an operator ahead, as strong as a
call. -/
theorem State.operatorAhead_of_parenGlued {precedence : Precedence} (glued : state.parenGlued)
    (weaker : precedence.rank < Precedence.call.rank) : state.operatorAhead precedence := by
  obtain ⟨paren, adjacent⟩ := parenGlued_iff.1 glued
  have sameLine : state.lookahead.spacing.newline = false := by
    have : state.lookahead.spacing.space = false ∧ state.lookahead.spacing.newline = false ∧
        state.lookahead.spacing.comment = false := by
      simpa [Spacing.isAdjacent, and_assoc] using adjacent
    exact this.2.1
  refine ⟨by simp [endsCommand, paren, sameLine, TokenKind.isTerminator], ?_⟩
  have strength : state.strengthAhead = .call := by
    simp [strengthAhead, gluedNegative, Precedence.ofToken, Token.isPlus, paren, adjacent]
  rwa [strength]

/-- Only logical operators and `contains` leave a glued parenthesis to what they are
applied to. -/
theorem bindsTighter_of_rank {token : Token} (notParen : token.kind ≠ .openParen)
    (strong : ¬(Precedence.ofToken token).rank < Precedence.call.rank) :
    bindsTighter token.kind := by
  unfold Precedence.ofToken at strong
  split at strong
  · exact absurd (by decide) strong
  · split at strong <;> simp_all [bindsTighter, Precedence.rank]

/-! ## Names and calls as callees -/

theorem standaloneWord_ahead {token : Token} :
    Gives (standaloneWord token) state fun _ last => last.lookahead = state.lookahead := by
  unfold standaloneWord
  simp only [Gives.get_bind]
  refine .ite (fun _ => .pure rfl) fun _ => ?_
  simp only [Gives.report_bind]
  exact .pure rfl

/-- A bare word in front of a glued parenthesis is taken as it is, and nothing but it is. -/
theorem operand_word (word : state.current.kind = .word) :
    Gives (operand grammar) state fun result last => last.lookahead = state.lookahead ∧
      (state.parenGlued →
        ∀ value ∈ result, value = bareWord state.current state.current.literal) := by
  have taken : Gives (operandWord state.current) state fun value last =>
      last.lookahead = state.lookahead ∧
        (state.parenGlued → value = bareWord state.current state.current.literal) := by
    unfold operandWord
    simp only [Gives.get_bind]
    refine .ite (fun _ => .pure ⟨rfl, fun _ => rfl⟩) fun apart => ?_
    exact standaloneWord_ahead.mono fun _ _ same => ⟨same, fun glued => absurd glued apart⟩
  unfold operand
  simp only [Gives.current_bind, word]
  refine .ite (fun _ => taken.bind fun value last known => .pure ?_) fun _ => ?_
  · exact ⟨known.1, fun glued => by simpa using known.2 glued⟩
  · unfold reportHere
    simp only [bind_assoc, Gives.current_bind, Gives.report_bind]
    exact .pure ⟨rfl, by simp⟩

theorem callExpression_token {function : Expression} :
    Gives (callExpression grammar function) state
      fun value _ => value.token = state.current ∧ value.isOperation = false := by
  unfold callExpression
  simp only [Gives.current_bind]
  exact .after fun _ _ => .pure ⟨rfl, rfl⟩

namespace Callee

variable {value : Expression} {ahead : Token}

/-- The operations that are called are those of the tighter operators. -/
theorem of_isOperation (callee : Callee source declared value ahead)
    (operation : value.isOperation = true) :
    ∃ token left operator right, value = .binary token left operator right ∧
      bindsTighter token.kind ∧ Callee source declared right ahead := by
  cases callee with
  | operand _ _ _ single => simp [single] at operation
  | call _ _ _ reads =>
    obtain ⟨-, single⟩ := callExpression_token _ _ reads
    simp [single] at operation
  | @operation token _ left right operator tighter callee =>
    exact ⟨token, left, operator, right, rfl, tighter, callee⟩

/-- A name that is called is the token in front of the parenthesis. -/
theorem name (callee : Callee source declared value ahead) (paren : ahead.kind = .openParen)
    (adjacent : ahead.spacing.isAdjacent) (single : value.isOperation = false)
    (word : value.token.kind = .word) :
    value = bareWord value.token value.token.literal ∧
      value.token.span.stop = ahead.span.start := by
  cases callee with
  | @operand first last _ visited reads starts =>
    rw [starts] at word ⊢
    obtain ⟨same, taken⟩ := operand_word word _ last reads
    rw [same] at paren adjacent ⊢
    exact ⟨taken (State.parenGlued_iff.2 ⟨paren, adjacent⟩) value rfl,
      Visited.stop_eq_of_adjacent visited adjacent⟩
  | call _ opening _ reads =>
    obtain ⟨starts, -⟩ := callExpression_token _ _ reads
    simp [starts, opening] at word
  | operation => simp [Expression.isOperation] at single

end Callee

end Parser

end IRule
