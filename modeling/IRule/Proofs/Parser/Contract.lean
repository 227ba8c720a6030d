import IRule.Parser.Basic
import IRule.Proofs.Parser.Run

/-!
# Contracts of the productions

What each production owes to its callers, and which calls a rule may make. A
call has to read on from a place nearer to the end of the text, or from the same
place by a production of lower rank; a snippet is read from a place as near to
its end as it is long. A rule keeps its contract whenever the productions it
calls keep theirs.
-/

namespace IRule

/-- A valid expression that excludes no other statement. -/
structure Expression.Plain (expression : Expression) : Prop where
  valid : expression.Valid
  free : expression.exclusives = .empty

theorem Expression.Plain.within {expression : Expression} (plain : expression.Plain)
    (scope : Exclusives) : expression.Valid ∧ expression.exclusives.Within scope :=
  ⟨plain.valid, plain.free ▸ Exclusives.empty_within scope⟩

namespace Parser

/-! ## What the productions give -/

/-- How tightly the token ahead binds to the operand before it. -/
def State.strengthAhead (state : State) : Precedence :=
  if gluedNegative state.lookahead then .sum else .ofToken state.lookahead

/-- Whether an operator that binds tighter than `precedence` is ahead. -/
def State.operatorAhead (state : State) (precedence : Precedence) : Prop :=
  state.endsCommand = false ∧ precedence.rank < state.strengthAhead.rank

/-- Statements that were read into a scope. -/
structure Collected (statements : List Statement) (scope : Exclusives) : Prop where
  valid : StatementsValid statements
  within : (exclusivesOf statements).Within scope

namespace Collected

variable {first second : List Statement} {scope wider : Exclusives}

theorem nil : Collected [] scope := ⟨trivial, Exclusives.empty_within scope⟩

theorem single {statement : Statement} (valid : statement.Valid)
    (within : statement.exclusives.Within scope) : Collected [statement] scope :=
  ⟨⟨valid, trivial⟩, within.union (Exclusives.empty_within scope)⟩

theorem append (left : Collected first scope) (kept : scope.Within wider)
    (right : Collected second wider) : Collected (first ++ second) wider where
  valid := by
    refine statementsValid_iff.2 fun statement mem => ?_
    rcases List.mem_append.1 mem with mem | mem
    · exact statementsValid_iff.1 left.valid statement mem
    · exact statementsValid_iff.1 right.valid statement mem
  within := by
    rw [exclusivesOf_append]
    exact (left.within.trans kept).union right.within

end Collected

/-- What a production that starts in a state owes, unless a problem was reported:
its result, and the state in which it ends. -/
def Production.Good (first : State) :
    (production : Production) → production.Result → State → Prop
  | .script | .blockBody _ => fun statements last => Collected statements last.scopes.current
  | .statement | .conditional => fun result last => Collected result.toList last.scopes.current
  | .cases _ _ => fun arms _ => CasesValid arms
  | .commandOrExpression => fun result last =>
    ∀ value ∈ result, value.Valid ∧ value.exclusives.Within last.scopes.current
  -- A command that excludes others comes out of an expression only where the command stands alone.
  | .expression precedence => fun result _ =>
    ∀ value ∈ result, value.Valid ∧
      (value.exclusives = .empty ∨ startsCommand first.current ∧ ¬first.operatorAhead precedence)
  | .operatorChain left precedence => fun result _ =>
    left.Valid → ∀ value ∈ result, value.Valid ∧
      (value.exclusives = .empty ∨ value = left ∧ ¬first.operatorAhead precedence)
  | .word _ => fun result _ => ∀ value ∈ result, value.Plain
  | .callArguments | .arguments | .regsubArguments _ | .bracketCommands _ | .listElements
  | .substitutionCommands => fun values _ => AllValid values
  | .classOptions => fun options _ => ∀ option ∈ options, option ∈ Vocabulary.classOptions
  | .pieces _ => fun pieces _ => ∀ piece ∈ pieces, piece.1.Valid
  | .hashPairs => fun pairs _ => PairsValid pairs
  | .drain | .skipCommand _ | .skipToCloseBrace | .rawWord _ | .skipCaseLine | .switchOptions _
  | .fallThrough _ | .regsubFlags => fun _ _ => True

/-! ## What the rules may call -/

/-- Productions call one another at the same token only from higher to lower rank. -/
def Production.rank : Production → Nat
  | .script | .blockBody _ => 5
  | .statement | .substitutionCommands => 4
  | .commandOrExpression | .callArguments => 3
  | .expression _ | .listElements => 2
  | .word _ | .hashPairs => 1
  | _ => 0

/-- Above the rank of every production. -/
def Production.top : Nat := 6

theorem Production.rank_lt_top (production : Production) : production.rank < top := by
  cases production <;> simp [rank, top]

/-- A call that gets nearer to the end: fewer bytes remain, or as many for a
production of lower rank. -/
structure Descends (state : State) (rank : Nat) (production : Production) (inner : State) :
    Prop where
  leads : Leads state inner
  less : inner.remaining < state.remaining ∨
    inner.remaining = state.remaining ∧ production.rank < rank

/-- In a coherent state, two meanings of the productions keep all contracts, and
keep them alike, on every call that gets nearer to the end. -/
structure Calls (grammar other : Grammar) (rank : Nat) (state : State) : Prop where
  coherent : state.Coherent
  reads (production : Production) (inner : State)
  (descends : Descends state rank production inner) :
    Reads (grammar.parse production) (other.parse production) inner (production.Good inner)

/-! ## Tokens ahead -/

namespace State

variable {state : State}

theorem more_of_kind {kind : TokenKind} (ahead : (state.lookahead.kind == kind) = true)
    (more : kind ≠ .endOfInput) : state.lookahead.kind ≠ .endOfInput := by
  rwa [beq_iff_eq.1 ahead]

theorem more_of_goesOn (goesOn : ¬state.endsCommand = true) :
    state.lookahead.kind ≠ .endOfInput := by
  intro ended
  simp [endsCommand, ended, TokenKind.isTerminator] at goesOn

theorem more_of_optionAhead (ahead : state.optionAhead = true) :
    state.lookahead.kind ≠ .endOfInput := by
  intro ended
  simp [optionAhead, ended] at ahead

theorem more_of_loneDashAhead (ahead : state.loneDashAhead = true) :
    state.lookahead.kind ≠ .endOfInput := by
  intro ended
  simp [loneDashAhead, ended] at ahead

theorem more_of_parenGlued (ahead : state.parenGlued = true) :
    state.lookahead.kind ≠ .endOfInput := by
  intro ended
  simp [parenGlued, ended] at ahead

theorem more_of_glue {glue : Glue} (ahead : glue.holds state = true) :
    state.lookahead.kind ≠ .endOfInput := by
  intro ended
  cases glue <;> simp [Glue.holds, glues, ended, TokenKind.isTerminator] at ahead

end State

/-! ## Getting on -/

section Remaining

variable {state later : State}

/-- A passage does not get further away from the end. -/
theorem Passage.remaining_le (passage : Passage state later) (coherent : state.Coherent) :
    later.remaining ≤ state.remaining := by
  have := passage.start_le coherent
  rw [State.remaining, State.remaining, passage.source_eq]
  omega

/-- A token gets nearer to the end. -/
theorem State.Coherent.remaining_advance (coherent : state.Coherent)
    (more : state.current.kind ≠ .endOfInput) : state.advance.remaining < state.remaining := by
  have onward := coherent.start_lt_advance more
  have inside := coherent.advance.start_le
  have same : state.advance.source = state.source := rfl
  rw [same] at inside
  rw [State.remaining, State.remaining, same]
  omega

/-- Reading on after a construct gets nearer to the end, even when the construct
went all the way. -/
theorem Passage.remaining_advance (passage : Passage state later) (coherent : state.Coherent)
    (more : state.current.kind ≠ .endOfInput) : later.advance.remaining < state.remaining := by
  have ahead := passage.coherent coherent
  by_cases ended : later.current.kind = .endOfInput
  · have something := coherent.remaining_pos more
    have atEnd := (ahead.atEnd ended).1
    have stays := ahead.start_advance_of_atEnd ended
    have same : later.advance.source = later.source := rfl
    rw [State.remaining, same, stays, atEnd]
    omega
  · exact (ahead.remaining_advance ended).trans_le (passage.remaining_le coherent)

end Remaining

namespace Calls

variable {grammar other : Grammar} {rank : Nat} {state later : State}

/-- A call from the current token. -/
theorem now (calls : Calls grammar other rank state) (production : Production)
    (lower : production.rank < rank) :
    Reads (grammar.parse production) (other.parse production) state (production.Good state) :=
  calls.reads production state ⟨.refl, .inr ⟨rfl, lower⟩⟩

/-- A call where anything may be called. -/
theorem call (calls : Calls grammar other Production.top state) (production : Production) :
    Reads (grammar.parse production) (other.parse production) state (production.Good state) :=
  calls.now production production.rank_lt_top

/-- What may be called from the same place. -/
theorem stay (calls : Calls grammar other rank state) (leads : Leads state later)
    (le : later.remaining ≤ state.remaining) : Calls grammar other rank later where
  coherent := leads.coherent calls.coherent
  reads := fun production inner descends =>
    calls.reads production inner ⟨leads.trans descends.leads, by have := descends.less; omega⟩

/-- Anything may be called from a place nearer to the end. -/
theorem nearer (calls : Calls grammar other rank state) (leads : Leads state later)
    (less : later.remaining < state.remaining) : Calls grammar other Production.top later where
  coherent := leads.coherent calls.coherent
  reads := fun production inner descends =>
    calls.reads production inner ⟨leads.trans descends.leads, by have := descends.less; omega⟩

theorem after (calls : Calls grammar other rank state) (passage : Passage state later) :
    Calls grammar other rank later :=
  calls.stay (.steps .refl passage.steps) (passage.remaining_le calls.coherent)

/-- Reading on never hurts. -/
theorem onward (calls : Calls grammar other rank state) : Calls grammar other rank state.advance :=
  calls.after (.advance state)

theorem enter (calls : Calls grammar other rank state) (nesting : Nesting) :
    Calls grammar other rank (state.enter nesting) :=
  calls.stay (.step .refl (.enter state nesting)) le_rfl

theorem openScope (calls : Calls grammar other rank state) :
    Calls grammar other rank { state with scopes := state.scopes.enter } :=
  calls.stay (.step .refl (.openScope state)) le_rfl

theorem lower {less : Nat} (calls : Calls grammar other rank state) (le : less ≤ rank) :
    Calls grammar other less state where
  coherent := calls.coherent
  reads := fun production inner descends =>
    calls.reads production inner ⟨descends.leads, by have := descends.less; omega⟩

/-- Behind the current token anything may be called. -/
theorem advance (calls : Calls grammar other rank state)
    (more : state.current.kind ≠ .endOfInput) : Calls grammar other Production.top state.advance :=
  calls.nearer (.step .refl (.advance state)) (calls.coherent.remaining_advance more)

/-- While a token is ahead, anything may be called from it. -/
theorem ahead (calls : Calls grammar other rank state)
    (more : state.lookahead.kind ≠ .endOfInput) :
    Calls grammar other Production.top state.advance :=
  calls.advance (calls.coherent.goesOn_of_lookahead more)

/-- Behind a construct and the token after it anything may be called. -/
theorem beyond (calls : Calls grammar other rank state) (passage : Passage state later)
    (more : state.current.kind ≠ .endOfInput) : Calls grammar other Production.top later.advance :=
  calls.nearer (.steps .refl (passage.steps.tail (.advance later)))
    (passage.remaining_advance calls.coherent more)

/-- Anything may be called in a snippet shorter than what is left of the text. -/
theorem snippet (calls : Calls grammar other rank state) (passage : Passage state later)
    {text : List Char} (line : Nat) (nesting : Nesting)
    (shorter : Text.byteLength text < state.remaining) :
    Calls grammar other Production.top (.snippet text line nesting later.declared) := by
  refine calls.nearer (.snippet line nesting (.steps .refl passage.steps) ?_) ?_
  · rw [passage.source_eq]
    exact shorter.trans_le (Nat.sub_le _ _)
  · exact (Nat.sub_le _ _).trans_lt shorter

end Calls

end Parser

end IRule
