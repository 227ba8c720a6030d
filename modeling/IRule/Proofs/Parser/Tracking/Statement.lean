import IRule.Proofs.Parser.Tracking.Command

/-!
# Expressions, statements and the grammar

An expression is given up with an operand, and a statement with a part that it
needs; both have then been reported. What is left of a broken statement, condition
or arm is passed over after that report. The rules of the grammar track one another
as soon as the productions they call do.
-/

namespace IRule.Parser

variable {grammar other : Grammar} {permits : List Diagnostic → Prop} {state : State}

/-! ## Operands -/

/-- An operation without meaning is reported and kept. -/
theorem joined_tracks {token : Token} {left right : Expression} :
    Tracks (joined token left right) (joined token left right) state fun _ => True := by
  unfold joined
  exact .checkUnless (fun _ => .record rfl) fun _ _ => .pure trivial

/-- An operator without an operand is reported. -/
theorem operandMissing_tracks {token : Token} :
    Tracks (operandMissing token) (operandMissing token) state (· = false) := by
  unfold operandMissing
  simp only [Tracks.endsCommand_bind]
  exact .ite (fun _ => .giveUp rfl) fun _ => .pure rfl

/-- A construct is given up where an operand is missing. -/
theorem operandMissing_keep {α : Type} {token : Token} {onward further : Parse (Option α)}
    (goesOn : ∀ middle, Frame state middle → Tracks onward further middle (·.isSome)) :
    Tracks (operandMissing token >>= fun missing => if missing then pure none else onward)
      (operandMissing token >>= fun missing => if missing then pure none else further)
      state (·.isSome) := by
  refine operandMissing_tracks.bind fun missing middle frame _ => ?_
  refine .ite (fun lacks => .pure ?_) fun _ => (goesOn middle frame).mono fun _ kept _ => kept
  simp [lacks]

/-- A sign is dropped with its operand. -/
theorem unaryExpression_tracks (answers : Answers grammar other permits state) {inner : State} :
    Tracks (unaryExpression grammar) (unaryExpression other) inner (·.isSome) := by
  unfold unaryExpression
  simp only [Tracks.current_bind]
  refine operandMissing_keep fun _ _ => .advance_bind ?_
  exact (answers.call (.expression .unary) rfl).mapped

/-- An empty pair of parentheses is reported. -/
theorem groupedExpression_tracks (answers : Answers grammar other permits state) {inner : State} :
    Tracks (groupedExpression grammar) (groupedExpression other) inner (·.isSome) := by
  unfold groupedExpression
  simp only [Tracks.current_bind, Tracks.isAhead_bind]
  refine .ite (fun _ => .record_bind rfl fun _ _ _ => .advance_bind (.pure trivial)) fun _ => ?_
  refine .bind (.within (.advance_bind (answers.call (.expression .lowest) rfl)))
    fun value _ _ _ => ?_
  simp only [Tracks.isAhead_bind]
  refine .ite (fun _ => .advance_bind (.pure ?_)) fun _ => .giveUp rfl
  exact fun kept => Option.isSome_map.trans kept

/-- A bare word as an operand is kept, reported or not. -/
theorem operandWord_tracks {token : Token} :
    Tracks (operandWord token) (operandWord token) state fun _ => True := by
  unfold operandWord
  simp only [Tracks.get_bind]
  exact .ite (fun _ => .pure trivial) fun _ => standaloneWord_tracks

/-- What starts no operand is reported. -/
theorem operand_tracks (answers : Answers grammar other permits state) :
    Tracks (operand grammar) (operand other) state (·.isSome) := by
  unfold operand
  simp only [Tracks.current_bind]
  split
  case h_1 | h_2 | h_3 | h_4 => exact piece_tracks answers
  case h_5 | h_6 | h_7 => exact answers.call (.word .operand) rfl
  case h_8 => exact groupedExpression_tracks answers
  case h_9 => exact bracedWord_tracks answers
  case h_10 | h_11 | h_12 => exact unaryExpression_tracks answers
  case h_13 => exact handler_tracks answers
  case h_14 | h_15 => exact command_tracks answers
  case h_16 | h_17 | h_18 | h_19 => exact .pure rfl
  case h_20 => exact .giveUp rfl
  case h_21 =>
    refine .ite (fun _ => ?_) fun _ => .giveUp rfl
    exact operandWord_tracks.andThen fun _ _ _ => .pure rfl

/-- An expression is dropped with its operand, or in the loop behind it. -/
theorem expression_tracks {precedence : Precedence}
    (answers : Answers grammar other permits state) :
    Tracks (expression grammar precedence) (expression other precedence) state (·.isSome) := by
  unfold expression
  refine (operand_tracks answers).keep rfl rfl fun left _ _ => ?_
  exact answers.call (.operatorChain left precedence) rfl

/-! ## Operators -/

/-- A glued negative number is read again without its sign. -/
theorem splitSubtraction_tracks {left : Expression} (answers : Answers grammar other permits state)
    {inner : State} :
    Tracks (splitSubtraction grammar left) (splitSubtraction other left) inner (·.isSome) := by
  unfold splitSubtraction
  simp only [Tracks.current_bind]
  refine .run_bind rfl (.of_scopes rfl rfl rfl List.prefix_rfl) ?_
  refine numberLiteral_tracks.andThen fun first _ _ => ?_
  refine (answers.call (.operatorChain first .sum) rfl).keep rfl rfl fun right _ _ => ?_
  exact joined_tracks.andThen fun _ _ _ => .pure fun _ => rfl

/-- An argument that is dropped has been reported. -/
theorem callArguments_tracks (answers : Answers grammar other permits state) :
    Tracks (callArguments grammar) (callArguments other) state fun _ => True := by
  unfold callArguments
  refine .advance_bind ((answers.call (.expression .lowest) rfl).andThen fun _ _ _ => ?_)
  simp only [Tracks.isAhead_bind]
  refine .ite (fun _ => .advance_bind ?_) fun _ => .pure trivial
  exact (answers.call .callArguments rfl).andThen fun _ _ _ => .pure trivial

/-- A call is kept, whatever becomes of its arguments. -/
theorem callExpression_tracks {function : Expression}
    (answers : Answers grammar other permits state) {inner : State} :
    Tracks (callExpression grammar function) (callExpression other function) inner
      fun _ => True := by
  unfold callExpression
  simp only [Tracks.current_bind]
  refine .andThen (.within (?_ : Tracks _ _ _ fun _ => True)) fun _ _ _ => .pure trivial
  simp only [Tracks.isAhead_bind]
  refine .ite (fun _ => .advance_bind (.pure trivial)) fun _ => ?_
  refine (answers.call .callArguments rfl).andThen fun _ _ _ => ?_
  simp only [Tracks.isAhead_bind]
  exact .ite (fun _ => .advance_bind (.pure trivial))
    fun _ => .giveUp rfl

/-- An operator is dropped only with its right operand. -/
theorem applied_tracks {left : Expression} (answers : Answers grammar other permits state)
    {inner : State} :
    Tracks (applied grammar left) (applied other left) inner (·.isSome) := by
  unfold applied
  simp only [Tracks.current_bind]
  refine .ite (fun _ => (callExpression_tracks answers).andThen fun _ _ _ => .pure rfl) fun _ => ?_
  refine operandMissing_keep fun _ _ => .advance_bind ?_
  refine (answers.call (.expression _) rfl).keep rfl rfl fun right _ _ => ?_
  exact joined_tracks.andThen fun _ _ _ => .pure rfl

/-- The loop over the operators drops nothing but what an operator drops. -/
theorem operatorChain_tracks {left : Expression} {precedence : Precedence}
    (answers : Answers grammar other permits state) :
    Tracks (operatorChain grammar left precedence) (operatorChain other left precedence) state
      (·.isSome) := by
  unfold operatorChain
  simp only [Tracks.get_bind]
  refine .ite (fun _ => .pure rfl) fun _ => .ite (fun _ => .pure rfl) fun _ => .advance_bind ?_
  refine .ite (fun _ => (splitSubtraction_tracks answers).keep rfl rfl fun next _ _ => ?_)
    fun _ => (applied_tracks answers).keep rfl rfl fun next _ _ => ?_
  · exact answers.call (.operatorChain next precedence) rfl
  · exact answers.call (.operatorChain next precedence) rfl

/-- A command is dropped with its name, never with its arguments. -/
theorem commandOrExpression_tracks (answers : Answers grammar other permits state) :
    Tracks (commandOrExpression grammar) (commandOrExpression other) state (·.isSome) := by
  unfold commandOrExpression
  simp only [Tracks.get_bind]
  refine .ite (fun _ => command_tracks answers) fun _ => ?_
  refine (answers.call (.expression .lowest) rfl).keep rfl rfl fun name _ _ => ?_
  simp only [Tracks.endsCommand_bind]
  refine .ite (fun _ => .pure rfl) fun _ => ?_
  exact (answers.call .arguments rfl).andThen fun _ _ _ => .pure rfl

/-! ## `switch` -/

theorem switchOptions_tracks {options : SwitchOptions}
    (answers : Answers grammar other permits state) :
    Tracks (switchOptions grammar options) (switchOptions other options) state fun _ => True := by
  unfold switchOptions
  simp only [Tracks.get_bind]
  refine .ite (fun _ => .advance_bind ?_) fun _ => .pure trivial
  refine (rawWordText_tracks answers).andThen fun option _ _ => ?_
  refine .ite (fun _ => .pure trivial) fun _ => ?_
  split
  · exact (answers.call (.switchOptions _) rfl).trivial
  · exact .record_bind rfl fun _ _ _ => (answers.call (.switchOptions options) rfl).trivial

/-- A pattern that cannot be read is reported. -/
theorem casePattern_tracks {options : SwitchOptions}
    (answers : Answers grammar other permits state) :
    Tracks (casePattern grammar options) (casePattern other options) state (·.isSome) := by
  unfold casePattern
  simp only [Tracks.current_bind]
  split
  case h_1 => exact (captureBrace_tracks answers).keep rfl rfl fun _ _ _ => .pure rfl
  case h_2 => exact .pure rfl
  case h_3 => exact .giveUp rfl
  case h_4 =>
    refine .ite (fun _ => .giveUp rfl) fun _ => ?_
    exact (rawWordText_tracks answers).andThen fun _ _ _ => .pure rfl

/-- A dash behind which the patterns end is reported. -/
theorem fallThrough_tracks {options : SwitchOptions}
    (answers : Answers grammar other permits state) :
    Tracks (fallThrough grammar options) (fallThrough other options) state (·.isSome) := by
  unfold fallThrough
  simp only [Tracks.get_bind]
  refine .ite (fun _ => .advance_bind ?_) fun _ => .pure rfl
  simp only [Tracks.isAhead_bind]
  refine .ite (fun _ => .giveUp rfl) fun _ => .advance_bind ?_
  have onward := (answers.after (.advance state)).after (.advance _)
  refine (casePattern_tracks onward).keep rfl rfl fun _ _ _ => ?_
  exact (answers.call (.fallThrough options) rfl).keep rfl rfl fun _ _ _ => .pure rfl

/-- Patterns are dropped together. -/
theorem casePatterns_tracks {options : SwitchOptions}
    (answers : Answers grammar other permits state) :
    Tracks (casePatterns grammar options) (casePatterns other options) state (·.isSome) := by
  unfold casePatterns
  simp only [Tracks.current_bind]
  refine .ite (fun _ => .pure rfl) fun _ => ?_
  refine (casePattern_tracks answers).keep rfl rfl fun _ _ _ => ?_
  refine (answers.call (.fallThrough options) rfl).keep rfl rfl fun _ _ _ => ?_
  exact .ite (fun _ => .pure rfl) fun _ => .pure rfl

/-- An arm is dropped only after a report, so that the rest of its line may be passed
over. -/
theorem caseArm_tracks {options : SwitchOptions}
    (answers : Answers grammar other permits state) :
    Tracks (caseArm grammar options) (caseArm other options) state (·.isSome) := by
  unfold caseArm
  simp only [Tracks.current_bind]
  refine (casePatterns_tracks answers).keep rfl rfl fun _ _ _ => ?_
  exact (expectBlock_tracks answers).keep rfl rfl fun _ _ _ => .pure rfl

/-- The rest of the line of an arm is dropped only where the arm was reported. -/
theorem cases_tracks {options : SwitchOptions} {line : Nat}
    (answers : Answers grammar other permits state) :
    Tracks (cases grammar options line) (cases other options line) state fun _ => True := by
  unfold cases
  simp only [Tracks.lookahead_bind]
  split
  case h_1 => exact .advance_bind (.pure trivial)
  case h_2 => exact .giveUp rfl
  case h_3 =>
    have onward := answers.after (.advance state)
    refine .advance_bind ((caseArm_tracks onward).bind fun arm _ _ known => ?_)
    refine .check (fun broken => ?_) fun _ _ => ?_
    · have reported := known.resolve_left (by simpa using broken)
      exact (onward.recover reported .skipCaseLine).trivial
    · exact (answers.call (.cases options line) rfl).andThen fun _ _ _ => .pure fun _ => trivial

/-- A `switch` without a value or without arms is reported. -/
theorem switchStatement_tracks (answers : Answers grammar other permits state) {inner : State} :
    Tracks (switchStatement grammar) (switchStatement other) inner (·.isSome) := by
  unfold switchStatement
  simp only [Tracks.current_bind]
  refine (answers.call (.switchOptions {}) rfl).andThen fun options _ _ => ?_
  simp only [Tracks.endsCommand_bind]
  refine .ite (fun _ => .giveUp rfl) fun _ => .advance_bind ?_
  refine (answers.call (.word .word) rfl).keep rfl rfl fun value _ _ => ?_
  simp only [Tracks.isAhead_bind]
  refine .ite (fun _ => .advance_bind ?_) fun _ => .giveUp rfl
  simp only [Tracks.current_bind]
  exact .andThen (.within (answers.call (.cases options _) rfl)) fun _ _ _ => .pure rfl

/-! ## Statements -/

/-- A `set` is dropped with its parts. -/
theorem setStatement_tracks (answers : Answers grammar other permits state) :
    Tracks (setStatement grammar) (setStatement other) state (·.isSome) := by
  unfold setStatement
  simp only [Tracks.current_bind]
  exact (setParts_tracks answers).keep rfl rfl fun _ _ _ => .pure rfl

/-- A `return` is dropped with its value, but may have none. -/
theorem returnStatement_tracks (answers : Answers grammar other permits state) {inner : State} :
    Tracks (returnStatement grammar) (returnStatement other) inner (·.isSome) := by
  unfold returnStatement
  simp only [Tracks.current_bind, Tracks.endsCommand_bind]
  refine .ite (fun _ => .pure rfl) fun _ => .advance_bind ?_
  exact (answers.call (.word .word) rfl).keep rfl rfl fun _ _ _ => .pure rfl

/-- The rest of a condition is dropped only after it was reported. -/
theorem bracedCondition_tracks (answers : Answers grammar other permits state) :
    Tracks (bracedCondition grammar) (bracedCondition other) state (·.isSome) := by
  unfold bracedCondition
  simp only [Tracks.current_bind, Tracks.isAhead_bind]
  refine .ite (fun _ => .record_bind rfl fun _ _ _ => .advance_bind (.pure trivial)) fun _ => ?_
  refine .bind (.within (?_ : Tracks _ _ _ fun (result : Option Expression) => result.isSome))
    fun condition _ _ _ => ?_
  · have inside := (answers.enter .expression).after (.advance _)
    refine .advance_bind ((answers.call (.expression .lowest) rfl).bind fun _ _ frame _ => ?_)
    simp only [Tracks.isAhead_bind]
    refine .ite (fun _ => .pure id) fun _ => .record_bind rfl fun _ _ reported => ?_
    have recovered := (inside.after frame).recover reported .skipToCloseBrace
    exact recovered.andThen fun _ _ _ => .pure trivial
  · simp only [Tracks.isAhead_bind]
    exact .ite (fun _ => .advance_bind (.pure id)) fun _ => .giveUp rfl

/-- A missing condition is reported. -/
theorem condition_tracks (answers : Answers grammar other permits state) :
    Tracks (condition grammar) (condition other) state (·.isSome) := by
  unfold condition
  simp only [Tracks.endsCommand_bind]
  refine .ite (fun _ => .giveUp rfl) fun _ => .advance_bind ?_
  simp only [Tracks.current_bind]
  refine .ite (fun _ => bracedCondition_tracks (answers.after (.advance state))) fun _ => ?_
  exact answers.call (.word .word) rfl

/-- An alternative that is dropped has been reported, and the conditional stays. -/
theorem alternative_tracks (answers : Answers grammar other permits state) {inner : State} :
    Tracks (alternative grammar) (alternative other) inner fun _ => True := by
  unfold alternative
  simp only [Tracks.lookahead_bind]
  split
  case h_1 => exact .advance_bind (answers.call .conditional rfl).trivial
  case h_2 =>
    refine .advance_bind ?_
    simp only [Tracks.isAhead_bind]
    refine .ite (fun _ => .advance_bind (answers.call .conditional rfl).trivial) fun _ => ?_
    exact (expectBlock_tracks answers).andThen fun _ _ _ => .pure trivial
  case h_3 => exact .pure trivial

/-- A conditional is dropped with its condition or its block. -/
theorem conditional_tracks (answers : Answers grammar other permits state) :
    Tracks (conditional grammar) (conditional other) state (·.isSome) := by
  unfold conditional
  simp only [Tracks.current_bind]
  refine (condition_tracks answers).keep rfl rfl fun tested _ _ => ?_
  simp only [Tracks.lookahead_bind]
  refine .check (fun _ => .run rfl (.advance _) fun _ => trivial) fun _ _ => ?_
  refine (expectBlock_tracks answers).keep rfl rfl fun _ _ _ => ?_
  exact (alternative_tracks answers).andThen fun _ _ _ => .pure rfl

theorem loopVariables_tracks {line : Nat} {names : List (List Char)} :
    Tracks (loopVariables line names) (loopVariables line names) state fun _ => True := by
  induction names generalizing state with
  | nil => exact .pure trivial
  | cons name later ih =>
    exact declaredTarget_tracks.andThen fun _ _ _ => ih.andThen fun _ _ _ => .pure trivial

/-- The target of a `foreach` is dropped only with its list or its word. -/
theorem loopTargets_tracks (answers : Answers grammar other permits state) :
    Tracks (loopTargets grammar) (loopTargets other) state (·.isSome) := by
  unfold loopTargets
  simp only [Tracks.current_bind]
  split
  case h_1 =>
    refine (captureBrace_tracks answers).keep rfl rfl fun _ _ _ => ?_
    exact loopVariables_tracks.andThen fun _ _ _ => .pure rfl
  case h_2 | h_3 => exact answers.call (.word .word) rfl
  case h_4 =>
    refine (rawWordText_tracks answers).andThen fun _ _ _ => ?_
    exact declaredTarget_tracks.andThen fun _ _ _ => .pure rfl

/-- A `foreach` without a target, a list or a block is reported. -/
theorem foreachStatement_tracks (answers : Answers grammar other permits state) :
    Tracks (foreachStatement grammar) (foreachStatement other) state (·.isSome) := by
  unfold foreachStatement
  simp only [Tracks.current_bind, Tracks.endsCommand_bind]
  refine .ite (fun _ => .giveUp rfl) fun _ => .advance_bind ?_
  refine (loopTargets_tracks (answers.after (.advance state))).keep rfl rfl fun _ _ _ => ?_
  simp only [Tracks.endsCommand_bind]
  refine .ite (fun _ => .giveUp rfl) fun _ => .advance_bind ?_
  refine (answers.call (.word .word) rfl).keep rfl rfl fun _ _ _ => ?_
  exact (expectBlock_tracks answers).keep rfl rfl fun _ _ _ => .pure rfl

/-- A named rule without a name or a block is reported. -/
theorem ruleStatement_tracks (answers : Answers grammar other permits state) {inner : State} :
    Tracks (ruleStatement grammar) (ruleStatement other) inner (·.isSome) := by
  unfold ruleStatement
  simp only [Tracks.current_bind]
  refine .advance_bind ?_
  simp only [Tracks.endsCommand_bind, Tracks.isAhead_bind]
  refine .ite (fun _ => .giveUp rfl) fun _ => .advance_bind ?_
  simp only [Tracks.current_bind]
  refine (rawWordText_tracks answers).andThen fun _ _ _ => ?_
  exact (expectBlock_tracks answers).keep rfl rfl fun _ _ _ => .pure rfl

theorem expressionStatement_tracks (answers : Answers grammar other permits state)
    {inner : State} :
    Tracks (expressionStatement grammar) (expressionStatement other) inner (·.isSome) := by
  unfold expressionStatement
  simp only [Tracks.current_bind]
  exact (answers.call .commandOrExpression rfl).mapped

/-- Whatever starts no statement is reported. -/
theorem statementBody_tracks (answers : Answers grammar other permits state) :
    Tracks (statementBody grammar) (statementBody other) state (·.isSome) := by
  unfold statementBody
  simp only [Tracks.current_bind]
  split
  case h_1 => exact .giveUp rfl
  case h_2 | h_3 => exact .giveUp rfl
  case h_4 => exact setStatement_tracks answers
  case h_5 => exact returnStatement_tracks answers
  case h_6 => exact answers.call .conditional rfl
  case h_7 => exact switchStatement_tracks answers
  case h_8 => exact foreachStatement_tracks answers
  case h_9 => exact (block_tracks answers).andThen fun _ _ _ => .pure rfl
  case h_10 =>
    simp only [Tracks.isAhead_bind]
    exact .ite (fun _ => ruleStatement_tracks answers) fun _ => expressionStatement_tracks answers

/-- What is left of a broken statement is dropped only where it was reported. -/
theorem statement_tracks (answers : Answers grammar other permits state) :
    Tracks (statement grammar) (statement other) state (Production.statement.keeps state ·) := by
  unfold statement
  simp only [Tracks.current_bind]
  refine .ite (fun empty => .pure (by simp [Production.keeps, empty])) fun _ => ?_
  -- A body that was not kept has reported why, and that permits to drop the rest.
  refine (statementBody_tracks answers).bind fun result _ frame known => ?_
  refine (finishCommand_tracks (answers.after frame) ?_).andThen fun _ _ _ => .pure ?_
  · exact fun broken => answers.permitted (known.resolve_left (by simp [broken]))
  · intro kept
    simp [Production.keeps, kept]

/-- The statements of a rule are tracked one after the other. -/
theorem script_tracks (answers : Answers grammar other permits state) :
    Tracks (script grammar) (script other) state fun _ => True := by
  unfold script
  simp only [Tracks.current_bind]
  refine .ite (fun _ => .pure trivial) fun _ => ?_
  refine (answers.call .statement rfl).andThen fun _ _ _ => .advance_bind ?_
  exact (answers.call .script rfl).andThen fun _ _ _ => .pure trivial

/-! ## The grammar -/

/-- Every rule tracks itself over meanings of the productions that track each other. -/
theorem rules_tracks {production : Production} (answers : Answers grammar other permits state)
    (permitted : production.recovers → permits state.diagnostics) :
    Tracks (rules grammar production) (rules other production) state
      (production.keeps state ·) := by
  cases production with
  | statement => exact statement_tracks answers
  | conditional => exact conditional_tracks answers
  | fallThrough => exact fallThrough_tracks answers
  | commandOrExpression => exact commandOrExpression_tracks answers
  | expression => exact expression_tracks answers
  | operatorChain => exact operatorChain_tracks answers
  | word => exact word_tracks answers
  | drain => exact (drain_tracks answers (permitted rfl)).mono fun _ _ => rfl
  | skipCommand => exact (skipCommand_tracks answers (permitted rfl)).mono fun _ _ => rfl
  | skipToCloseBrace => exact (skipToCloseBrace_tracks answers (permitted rfl)).mono fun _ _ => rfl
  | skipCaseLine => exact (skipCaseLine_tracks answers (permitted rfl)).mono fun _ _ => rfl
  | script => exact (script_tracks answers).mono fun _ _ => rfl
  | blockBody => exact (blockBody_tracks answers).mono fun _ _ => rfl
  | rawWord => exact (rawWord_tracks answers).mono fun _ _ => rfl
  | switchOptions => exact (switchOptions_tracks answers).mono fun _ _ => rfl
  | cases => exact (cases_tracks answers).mono fun _ _ => rfl
  | callArguments => exact (callArguments_tracks answers).mono fun _ _ => rfl
  | arguments => exact (arguments_tracks answers).mono fun _ _ => rfl
  | classOptions => exact (classOptions_tracks answers).mono fun _ _ => rfl
  | regsubFlags => exact (regsubFlags_tracks answers).mono fun _ _ => rfl
  | regsubArguments => exact (regsubArguments_tracks answers).mono fun _ _ => rfl
  | pieces => exact (pieces_tracks answers).mono fun _ _ => rfl
  | bracketCommands => exact (bracketCommands_tracks answers).mono fun _ _ => rfl
  | listElements => exact (listElements_tracks answers).mono fun _ _ => rfl
  | hashPairs => exact (hashPairs_tracks answers).mono fun _ _ => rfl
  | substitutionCommands => exact (substitutionCommands_tracks answers).mono fun _ _ => rfl

/-- Where nothing is refused, every production tracks itself, at every depth. -/
theorem unfold_tracks {steps : Nat} {production : Production} :
    Tracks (unfold steps production) (unfold steps production) state
      (production.keeps state ·) := by
  induction steps generalizing production state with
  | zero =>
    intro _ _ runs
    simp [unfold, outOfSteps] at runs
  | succ steps ih =>
    have answers : Answers ⟨unfold steps⟩ ⟨unfold steps⟩ (fun _ => True) state :=
      ⟨fun _ _ => trivial, fun _ _ _ => ih⟩
    exact rules_tracks answers fun _ => trivial

/-- At every depth the productions track themselves, with recovery permitted throughout.
-/
theorem unfold_answers (steps : Nat) (state : State) :
    Answers ⟨unfold steps⟩ ⟨unfold steps⟩ (fun _ => True) state :=
  ⟨fun _ _ => trivial, fun _ _ _ => unfold_tracks⟩

end IRule.Parser
