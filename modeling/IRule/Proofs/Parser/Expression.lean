import IRule.Proofs.Parser.Command

/-!
# Expressions

Operators are applied only to operands they accept. An operand that is the bare
name of a command comes out of an expression unchanged only when no operator
follows it.
-/

namespace IRule.Parser

variable {grammar other : Grammar} {state : State}

/-! ## Operands -/

theorem joined_reads {token : Token} {left right : Expression} :
    Reads (joined token left right) (joined token left right) state
      fun value _ => left.Valid → right.Valid → value.Plain := by
  unfold joined
  refine .ite (fun fits => .pure fun leftValid rightValid => ?_) fun _ => ?_
  · exact ⟨⟨fits, leftValid, rightValid⟩, rfl⟩
  · exact .report_bind (by simp) fun _ _ => .pure trivial

/-- Either the operand is missing and that was reported, or the command goes on. -/
theorem operandMissing_bind {α : Type} {token : Token} {next later : Bool → Parse α}
    {good : α → State → Prop}
    (missing : ∀ middle, Passage state middle →
      Reads (next true) (later true) middle fun _ _ => True)
    (goesOn : ¬state.endsCommand = true → Reads (next false) (later false) state good) :
    Reads (operandMissing token >>= next) (operandMissing token >>= later) state good := by
  unfold operandMissing
  simp only [bind_assoc, Reads.endsCommand_bind]
  by_cases ends : state.endsCommand = true
  · simp only [ends, if_true, bind_assoc, pure_bind]
    exact .reportHere_bind (by simp) missing
  · simp only [ends]
    exact goesOn ends

theorem unaryExpression_reads (calls : Calls grammar other 0 state) :
    Reads (unaryExpression grammar) (unaryExpression other) state
      fun result _ => ∀ value ∈ result, value.Plain := by
  unfold unaryExpression
  simp only [Reads.current_bind]
  refine operandMissing_bind (fun _ _ => .pure trivial) fun goesOn => .advance_bind ?_
  have onward := calls.ahead (State.more_of_goesOn goesOn)
  refine .bind (onward.call (.expression .unary)) fun operand _ _ => .pure ?_
  intro good value found
  obtain ⟨operand, rfl, rfl⟩ := Option.map_eq_some_iff.1 found
  exact ⟨(good operand rfl).1, rfl⟩

theorem groupedExpression_reads (calls : Calls grammar other 0 state)
    (opening : state.current.kind = .openParen) :
    Reads (groupedExpression grammar) (groupedExpression other) state
      fun result _ => ∀ value ∈ result, value.Plain := by
  unfold groupedExpression
  simp only [Reads.current_bind, Reads.isAhead_bind]
  refine .ite (fun _ => .reportHere_bind (by simp) fun _ _ => .advance_bind (.pure trivial))
    fun _ => ?_
  have inner := (calls.enter .expression).advance (by simp [State.enter, opening])
  have inside := inner.call (.expression .lowest)
  refine .bind (.within (.advance_bind inside)) fun inner middle _ => ?_
  simp only [Reads.isAhead_bind]
  refine .ite (fun _ => .advance_bind (.pure ?_)) fun _ => .report_bind (by simp)
    fun _ _ => .pure trivial
  rintro ⟨_, good, -⟩ value found
  obtain ⟨inner, rfl, rfl⟩ := Option.map_eq_some_iff.1 found
  exact ⟨(good inner rfl).1, rfl⟩

theorem operandWord_reads {token : Token} :
    Reads (operandWord token) (operandWord token) state fun value _ => value.Plain := by
  unfold operandWord
  simp only [Reads.get_bind]
  exact .ite (fun _ => .pure ⟨trivial, rfl⟩) fun _ => standaloneWord_reads

/-- `set` and `switch` as operands are plain commands. -/
theorem command_reads_plain (calls : Calls grammar other 1 state)
    (word : state.current.kind = .reserved .set ∨ state.current.kind = .reserved .switch) :
    Reads (command grammar) (command other) state
      fun result _ => ∀ value ∈ result, value.Plain := by
  unfold command
  simp only [Reads.current_bind]
  rcases word with kind | kind
  · simp only [commandFamily?, kind]
    exact setCommand_reads (calls.lower (by decide))
  · simp only [commandFamily?, kind]
    exact .bind (plainCommand_reads calls) fun _ _ _ => .pure fun plain => by simpa using plain

/-- What an operand owes: it is valid, and excludes others only when it is the bare
name of a command, which is read without moving on. -/
def OperandGood (first : State) (result : Option Expression) (last : State) : Prop :=
  ∀ value ∈ result, value.Valid ∧
    (value.exclusives = .empty ∨ startsCommand first.current ∧ last = first)

theorem Reads.operandGood {first second : Parse (Option Expression)}
    (reads : Reads first second state fun result _ => ∀ value ∈ result, value.Plain) :
    Reads first second state (OperandGood state) :=
  reads.mono fun _ _ _ plain value found =>
    ⟨(plain value found).valid, .inl (plain value found).free⟩

theorem operand_reads (calls : Calls grammar other 2 state) :
    Reads (operand grammar) (operand other) state (OperandGood state) := by
  unfold operand
  simp only [Reads.current_bind]
  have nothing := calls.lower (Nat.zero_le 2)
  have little := calls.lower one_le_two
  split
  case h_1 | h_2 | h_3 | h_4 => exact (piece_reads little).operandGood
  case h_5 | h_6 | h_7 => exact (calls.now (.word .operand) Nat.one_lt_two).operandGood
  case h_8 opening => exact (groupedExpression_reads nothing opening).operandGood
  case h_9 => exact (bracedWord_reads little).operandGood
  case h_10 | h_11 | h_12 => exact (unaryExpression_reads nothing).operandGood
  case h_13 => exact (handler_reads nothing).operandGood
  case h_14 kind => exact (command_reads_plain little (.inl kind)).operandGood
  case h_15 kind => exact (command_reads_plain little (.inr kind)).operandGood
  case h_16 | h_17 | h_18 =>
    exact Reads.operandGood (.pure (by simp [bareWord]; exact ⟨trivial, rfl⟩))
  case h_19 family _ kind =>
    refine .pure ?_
    intro value found
    cases found
    refine ⟨⟨?_, trivial⟩, .inr ⟨?_, rfl⟩⟩
    · simp [Expression.Sound, headerArgument?, positional]
    · simp [startsCommand, kind]
  case h_20 => exact .reportIllegal
  case h_21 =>
    refine .ite (fun _ => Reads.operandGood ?_) fun _ => .reportHere_bind (by simp)
      fun _ _ => .pure trivial
    exact .bind operandWord_reads fun _ _ _ => .pure fun plain => by simpa using plain

theorem expression_reads {precedence : Precedence} (calls : Calls grammar other 2 state) :
    Reads (expression grammar precedence) (expression other precedence) state
      fun result _ => ∀ value ∈ result, value.Valid ∧
        (value.exclusives = .empty ∨
          startsCommand state.current ∧ ¬state.operatorAhead precedence) := by
  unfold expression
  refine .bindOption (operand_reads calls)
    (fun _ _ => .pure fun _ => by simp) fun left middle passage => ?_
  refine ((calls.after passage).now (.operatorChain left precedence) Nat.two_pos).mono ?_
  intro result _ _ chain operand value found
  obtain ⟨leftValid, bare⟩ := operand left rfl
  obtain ⟨valid, free | ⟨rfl, alone⟩⟩ := chain leftValid value found
  · exact ⟨valid, .inl free⟩
  · refine ⟨valid, bare.imp_right ?_⟩
    rintro ⟨starts, rfl⟩
    exact ⟨starts, alone⟩

/-! ## Operators -/

theorem splitSubtraction_reads {left : Expression} (calls : Calls grammar other 1 state)
    (number : state.current.kind = .number)
    (digits : state.current.span.start + 1 < state.lexer.before.offset) :
    Reads (splitSubtraction grammar left) (splitSubtraction other left) state
      fun result _ => left.Valid → ∀ value ∈ result, value.Plain := by
  unfold splitSubtraction
  simp only [Reads.current_bind]
  have passage : Passage state { state with current := magnitude state.current } :=
    .of_step (.unsign number digits) rfl rfl
  refine .run_bind rfl passage (.bind numberLiteral_reads fun first middle reading => ?_)
  have onward := (calls.after passage).after reading
  refine .bindOption (onward.now (.operatorChain first .sum) Nat.one_pos)
    (fun _ _ => .pure fun _ _ _ _ => by simp)
    fun right _ _ => .bind joined_reads fun value _ _ => .pure ?_
  intro good chain plain _ leftValid value found
  cases found
  exact good leftValid (chain plain.valid right rfl).1

theorem callArguments_reads (calls : Calls grammar other 3 state) :
    Reads (callArguments grammar) (callArguments other) state
      fun values _ => AllValid values := by
  unfold callArguments
  refine .advance_bind ?_
  refine .bind (calls.onward.now (.expression .lowest) (by decide))
    fun argument middle passage => ?_
  have valid : Production.Good state.advance (.expression .lowest) argument middle →
      AllValid argument.toList :=
    fun good => allValid_toList.2 fun value found => (good value found).1
  simp only [Reads.isAhead_bind]
  refine .ite (fun comma => .advance_bind ?_) fun _ => .pure valid
  have onward := (calls.onward.after passage).ahead (State.more_of_kind comma (by simp))
  refine .bind (onward.call .callArguments) fun later _ _ => .pure ?_
  exact fun rest good => allValid_append.2 ⟨valid good, rest⟩

theorem callExpression_reads {function : Expression} (calls : Calls grammar other 4 state) :
    Reads (callExpression grammar function) (callExpression other function) state
      fun value _ => function.Valid → value.Plain := by
  unfold callExpression
  simp only [Reads.current_bind]
  refine .bind (.within (?_ : Reads _ _ _ fun (values : List Expression) _ => AllValid values))
    fun given _ _ => .pure ?_
  · simp only [Reads.isAhead_bind]
    refine .ite (fun _ => .advance_bind (.pure trivial)) fun _ => ?_
    refine .bind ((calls.enter .expression).now .callArguments (by decide)) fun given _ _ => ?_
    simp only [Reads.isAhead_bind]
    refine .ite (fun _ => .advance_bind (.pure id)) fun _ => ?_
    exact .report_bind (by simp) fun _ _ => .pure trivial
  · rintro ⟨_, valid, -⟩ functionValid
    exact ⟨⟨functionValid, valid⟩, rfl⟩

theorem applied_reads {left : Expression} (calls : Calls grammar other 4 state) :
    Reads (applied grammar left) (applied other left) state
      fun result _ => left.Valid → ∀ value ∈ result, value.Plain := by
  unfold applied
  simp only [Reads.current_bind]
  refine .ite (fun _ => ?_) fun _ => ?_
  · refine .bind (callExpression_reads calls) fun _ _ _ => .pure fun good leftValid => ?_
    simpa using good leftValid
  · refine operandMissing_bind (fun _ _ => .pure trivial) fun _ => .advance_bind ?_
    refine .bindOption (calls.onward.now (.expression _) (Nat.lt_add_of_pos_right Nat.two_pos))
      (fun _ _ => .pure fun _ _ => by simp)
      fun right _ _ => .bind joined_reads fun value _ _ => .pure ?_
    intro good operand leftValid value found
    cases found
    exact good leftValid (operand right rfl).1

/-- The sign of a negative number ahead is not its last character. -/
theorem State.Coherent.digits_ahead (coherent : state.Coherent)
    (negative : gluedNegative state.lookahead = true) :
    state.advance.current.kind = .number ∧
      state.advance.current.span.start + 1 < state.advance.lexer.before.offset := by
  simp only [gluedNegative, Bool.and_eq_true, beq_iff_eq] at negative
  obtain ⟨⟨number, -⟩, sign⟩ := negative
  obtain ⟨gap, text, reading⟩ := coherent.reading
  have signed := reading.signed number sign
  refine ⟨number, ?_⟩
  simp only [State.advance, Lexer.next_before, reading.offset, reading.stop]
  omega

/-- An operator is applied to `left` exactly when one that binds tighter is ahead. -/
theorem operatorChain_reads {left : Expression} {precedence : Precedence}
    (calls : Calls grammar other 0 state) :
    Reads (operatorChain grammar left precedence) (operatorChain other left precedence) state
      fun result _ => left.Valid → ∀ value ∈ result, value.Valid ∧
        (value.exclusives = .empty ∨ value = left ∧ ¬state.operatorAhead precedence) := by
  unfold operatorChain
  simp only [Reads.get_bind]
  refine .ite (fun ends => .pure fun valid => ?_) fun goesOn => ?_
  · rintro _ ⟨⟩
    exact ⟨valid, .inr ⟨rfl, fun ahead => by simp [ahead.1] at ends⟩⟩
  refine .ite (fun weak => .pure fun valid => ?_) fun _ => .advance_bind ?_
  · rintro _ ⟨⟩
    exact ⟨valid, .inr ⟨rfl, fun ahead => absurd ahead.2 (not_lt.2 weak)⟩⟩
  have onward := calls.ahead (State.more_of_goesOn goesOn)
  refine .iteBind (?_ : Reads _ _ _ fun (result : Option Expression) _ =>
      left.Valid → ∀ value ∈ result, value.Plain) fun next middle passage => ?_
  · refine .ite (fun negative => ?_) fun _ => applied_reads (onward.lower (by decide))
    obtain ⟨number, digits⟩ := calls.coherent.digits_ahead negative
    exact splitSubtraction_reads (onward.lower (by decide)) number digits
  · cases next with
    | none => exact .pure fun _ _ => by simp
    | some next =>
      refine ((onward.after passage).call (.operatorChain next precedence)).mono ?_
      intro _ _ _ chain applied valid value found
      have plain := applied valid next rfl
      obtain ⟨valid, free | ⟨rfl, -⟩⟩ := chain plain.valid value found
      · exact ⟨valid, .inl free⟩
      · exact ⟨valid, .inl plain.free⟩

/-! ## Commands and expressions -/

/-- A command that stands where an expression could start is read as a command
unless an operator follows it. -/
theorem startsCommand_operatorAhead
    (reading : ¬(startsCommand state.current &&
      (state.endsCommand || !Precedence.isStatementOperator state.lookahead)) = true)
    (starts : startsCommand state.current = true) : state.operatorAhead .lowest := by
  simp only [starts, Bool.true_and, Bool.or_eq_true, not_or, Bool.not_eq_true,
    Bool.not_eq_eq_eq_not] at reading
  obtain ⟨goesOn, operator⟩ := reading
  refine ⟨goesOn, ?_⟩
  unfold State.strengthAhead
  split
  · decide
  · unfold Precedence.isStatementOperator at operator
    split at operator <;> simp_all

theorem commandOrExpression_reads (calls : Calls grammar other 3 state) :
    Reads (commandOrExpression grammar) (commandOrExpression other) state fun result last =>
      ∀ value ∈ result, value.Valid ∧ value.exclusives.Within last.scopes.current := by
  unfold commandOrExpression
  simp only [Reads.get_bind]
  refine .ite (fun _ => command_reads (calls.lower (by decide))) fun reading => ?_
  refine .bindOption (calls.now (.expression .lowest) (by decide))
    (fun _ _ => .pure fun _ => by simp) fun name middle passage => ?_
  simp only [Reads.endsCommand_bind]
  refine .ite (fun _ => .pure ?_) fun _ => ?_
  · rintro good _ ⟨⟩
    obtain ⟨valid, free | ⟨starts, alone⟩⟩ := good name rfl
    · exact Expression.Plain.within ⟨valid, free⟩ _
    · exact absurd (startsCommand_operatorAhead reading starts) alone
  · refine .bind ((calls.after passage).now .arguments (by decide)) fun given _ _ => .pure ?_
    rintro valid good _ ⟨⟩
    have plain : (Expression.invocation name.token name given).Plain :=
      ⟨⟨(good name rfl).1, valid⟩, rfl⟩
    exact plain.within _

end IRule.Parser
