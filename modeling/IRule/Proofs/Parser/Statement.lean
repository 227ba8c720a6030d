import IRule.Proofs.Parser.Expression

/-!
# Statements

Control structures are valid when their parts are. With them all rules of the
grammar keep their contracts.
-/

namespace IRule.Parser

variable {grammar other : Grammar} {state : State}

/-! ## `switch` -/

/-- Options of a `switch` are read up to the last; nothing is owed for them. -/
theorem switchOptions_reads {options : SwitchOptions} (calls : Calls grammar other 0 state) :
    Reads (switchOptions grammar options) (switchOptions other options) state
      fun _ _ => True := by
  unfold switchOptions
  simp only [Reads.get_bind]
  refine .ite (fun ahead => .advance_bind ?_) fun _ => .pure trivial
  have onward := calls.ahead (State.more_of_optionAhead ahead)
  refine .bind (rawWordText_reads (onward.lower (by decide))) fun option middle passage => ?_
  have onward := onward.after passage
  refine .ite (fun _ => .pure fun _ => trivial) fun _ => ?_
  cases options.add? option with
  | some more => exact (onward.call (.switchOptions more)).mono fun _ _ _ _ _ => trivial
  | none =>
    exact .reportHere_bind (by simp) fun _ reported => (onward.after reported).call
      (.switchOptions options)

/-- Nothing is owed for a pattern, which is never read as code. -/
theorem casePattern_reads {options : SwitchOptions} (calls : Calls grammar other 1 state) :
    Reads (casePattern grammar options) (casePattern other options) state fun _ _ => True := by
  unfold casePattern
  simp only [Reads.current_bind]
  split
  case h_1 => exact captureBrace_bind calls (fun _ _ => .pure trivial) fun _ _ _ _ => .pure trivial
  case h_2 => exact .pure trivial
  case h_3 => exact .reportIllegal
  case h_4 =>
    refine .ite (fun _ => .reportHere_bind (by simp) fun _ _ => .pure trivial) fun _ => ?_
    exact .bind (rawWordText_reads calls) fun _ _ _ => .pure fun _ => trivial

/-- Patterns joined by a dash are read one after the other. -/
theorem fallThrough_reads {options : SwitchOptions} (calls : Calls grammar other 0 state) :
    Reads (fallThrough grammar options) (fallThrough other options) state fun _ _ => True := by
  unfold fallThrough
  simp only [Reads.get_bind]
  refine .ite (fun dash => .advance_bind ?_) fun _ => .pure trivial
  have onward := calls.ahead (State.more_of_loneDashAhead dash)
  simp only [Reads.isAhead_bind]
  refine .ite (fun _ => .reportHere_bind (by simp) fun _ _ => .pure trivial)
    fun _ => .advance_bind ?_
  refine .bindOption (casePattern_reads (onward.onward.lower (by decide)))
    (fun _ _ => .pure fun _ => trivial) fun pattern middle passage => ?_
  refine .bindOption ((onward.onward.after passage).call (.fallThrough options))
    (fun _ _ => .pure fun _ _ => trivial) fun later _ _ => .pure fun _ _ => trivial

/-- A first pattern and those that are joined to it. -/
theorem casePatterns_reads {options : SwitchOptions} (calls : Calls grammar other 1 state) :
    Reads (casePatterns grammar options) (casePatterns other options) state fun _ _ => True := by
  unfold casePatterns
  simp only [Reads.current_bind]
  refine .ite (fun _ => .pure trivial) fun _ => ?_
  refine .bindOption (casePattern_reads calls)
    (fun _ _ => .pure fun _ => trivial) fun first middle passage => ?_
  refine .bindOption ((calls.after passage).now (.fallThrough options) Nat.one_pos)
    (fun _ _ => .pure fun _ _ => trivial)
    fun later _ _ => .ite (fun _ => .pure fun _ _ => trivial) fun _ => .pure fun _ _ => trivial

/-- An arm is as valid as its block. -/
theorem caseArm_reads {options : SwitchOptions} (calls : Calls grammar other 1 state) :
    Reads (caseArm grammar options) (caseArm other options) state
      fun result _ => CasesValid result.toList := by
  unfold caseArm
  simp only [Reads.current_bind]
  refine .bindOption (casePatterns_reads calls)
    (fun _ _ => .pure fun _ => trivial) fun pattern middle passage => ?_
  refine .bindOption (expectBlock_reads ((calls.after passage).lower (by decide)))
    (fun _ _ => .pure fun _ _ => trivial)
    fun body _ _ => .pure fun valid _ => ⟨valid body rfl, trivial⟩

/-- Arms are read up to the closing brace, and arms with a problem are left out. -/
theorem cases_reads {options : SwitchOptions} {line : Nat} (calls : Calls grammar other 0 state) :
    Reads (cases grammar options line) (cases other options line) state
      fun arms _ => CasesValid arms := by
  unfold cases
  simp only [Reads.lookahead_bind]
  split
  case h_1 => exact .advance_bind (.pure trivial)
  case h_2 => exact .report_bind (by simp) fun _ _ => .pure trivial
  case h_3 _ more =>
    have onward := calls.ahead more
    refine .advance_bind (.bind (caseArm_reads (onward.lower (by decide)))
      fun arm middle passage => ?_)
    have onward := onward.after passage
    refine .check True (fun _ => onward.call .skipCaseLine) (fun _ => trivial) fun _ skipped => ?_
    refine .bind ((onward.after skipped).call (.cases options line)) fun later _ _ => .pure ?_
    intro rest _ first
    exact casesValid_append.2 ⟨first, rest⟩

/-- A `switch` excludes nothing: its arms have scopes of their own. -/
theorem switchStatement_reads (calls : Calls grammar other 1 state) :
    Reads (switchStatement grammar) (switchStatement other) state fun result last =>
      Collected result.toList last.scopes.current := by
  unfold switchStatement
  simp only [Reads.current_bind]
  refine .bind (calls.now (.switchOptions {}) Nat.one_pos) fun options middle passage => ?_
  have calls := calls.after passage
  simp only [Reads.endsCommand_bind]
  refine .ite (fun _ => .reportAhead_bind (by simp) fun _ _ => .pure trivial) fun goesOn => ?_
  have onward := calls.ahead (State.more_of_goesOn goesOn)
  refine .advance_bind (.bindOption (onward.call (.word .word))
    (fun _ _ => .pure fun _ _ => .nil) fun value _ passage => ?_)
  have onward := onward.after passage
  simp only [Reads.isAhead_bind]
  refine .ite (fun _ => .advance_bind ?_) fun _ => .reportAhead_bind (by simp)
    fun _ _ => .pure trivial
  simp only [Reads.current_bind]
  refine .bind (.within ((onward.onward.enter .expression).call (.cases options _)))
    fun arms _ _ => .pure ?_
  rintro ⟨_, armsValid, -⟩ plain -
  exact .single ⟨(plain value rfl).valid, armsValid⟩ (Exclusives.empty_within _)

/-! ## Control structures -/

/-- A `set` excludes nothing. -/
theorem setStatement_reads (calls : Calls grammar other 0 state) :
    Reads (setStatement grammar) (setStatement other) state fun result last =>
      Collected result.toList last.scopes.current := by
  unfold setStatement
  simp only [Reads.current_bind]
  refine .bindOption (setParts_reads calls)
    (fun _ _ => .pure fun _ => .nil) fun parts _ _ => ?_
  obtain ⟨name, value⟩ := parts
  refine .pure fun valid => ?_
  exact .single (valid _ rfl) (Exclusives.empty_within _)

/-- The value of a `return` may be missing. -/
theorem returnStatement_reads (calls : Calls grammar other 0 state) :
    Reads (returnStatement grammar) (returnStatement other) state fun result last =>
      Collected result.toList last.scopes.current := by
  unfold returnStatement
  simp only [Reads.current_bind, Reads.endsCommand_bind]
  refine .ite (fun _ => .pure (.single trivial (Exclusives.empty_within _))) fun goesOn => ?_
  have onward := calls.ahead (State.more_of_goesOn goesOn)
  refine .advance_bind (.bindOption (onward.call (.word .word))
    (fun _ _ => .pure fun _ => .nil) fun value _ _ => .pure fun plain => ?_)
  exact .single (plain value rfl).valid (Exclusives.empty_within _)

/-- A condition in braces is one expression; what else stands there is reported. -/
theorem bracedCondition_reads (calls : Calls grammar other Production.top state) :
    Reads (bracedCondition grammar) (bracedCondition other) state
      fun result _ => ∀ value ∈ result, value.Valid := by
  unfold bracedCondition
  simp only [Reads.current_bind, Reads.isAhead_bind]
  refine .ite (fun _ => .reportHere_bind (by simp) fun _ _ => .advance_bind (.pure trivial))
    fun _ => ?_
  refine .bind (.within (?_ : Reads _ _ _ fun (result : Option Expression) _ =>
    ∀ value ∈ result, value.Valid)) fun condition _ _ => ?_
  · have inner := (calls.enter .expression).onward
    refine .advance_bind (.bind (inner.call (.expression .lowest))
      fun condition middle passage => ?_)
    simp only [Reads.isAhead_bind]
    refine .ite (fun _ => .pure fun good value found => (good value found).1) fun _ => ?_
    refine .reportAhead_bind (by simp) fun _ reported => ?_
    refine .bind (((inner.after passage).after reported).call .skipToCloseBrace) fun _ _ _ => ?_
    exact .pure fun _ => trivial
  · simp only [Reads.isAhead_bind]
    refine .ite (fun _ => .advance_bind (.pure ?_)) fun _ => .report_bind (by simp)
      fun _ _ => .pure trivial
    rintro ⟨_, valid, -⟩
    exact valid

/-- A condition without braces is a word. -/
theorem condition_reads (calls : Calls grammar other 0 state) :
    Reads (condition grammar) (condition other) state
      fun result _ => ∀ value ∈ result, value.Valid := by
  unfold condition
  simp only [Reads.endsCommand_bind]
  refine .ite (fun _ => .reportAhead_bind (by simp) fun _ _ => .pure trivial) fun goesOn => ?_
  have onward := calls.ahead (State.more_of_goesOn goesOn)
  refine .advance_bind ?_
  simp only [Reads.current_bind]
  refine .ite (fun _ => bracedCondition_reads onward) fun _ => ?_
  exact (onward.call (.word .word)).mono fun _ _ _ plain value found => (plain value found).valid

/-- An `else` block counts as a statement, and an `elseif` is a conditional again. -/
theorem alternative_reads (calls : Calls grammar other 0 state) :
    Reads (alternative grammar) (alternative other) state
      fun result _ => StatementsValid result.toList := by
  unfold alternative
  simp only [Reads.lookahead_bind]
  split
  case h_1 kind =>
    refine .advance_bind (((calls.ahead ?_).call .conditional).mono fun _ _ _ good => good.valid)
    simp [kind]
  case h_2 kind =>
    have onward := calls.ahead (by simp [kind])
    refine .advance_bind ?_
    simp only [Reads.isAhead_bind]
    refine .ite (fun _ => .advance_bind ?_) fun _ => ?_
    · exact (onward.onward.call .conditional).mono fun _ _ _ good => good.valid
    · refine .bindOption (expectBlock_reads (onward.lower (by decide)))
        (fun _ _ => .pure fun _ => trivial)
        fun body _ _ => .pure fun valid => ⟨valid body rfl, trivial⟩
  case h_3 => exact .pure trivial

/-- Condition, block and alternative are valid, and the blocks keep what they exclude. -/
theorem conditional_reads (calls : Calls grammar other 0 state) :
    Reads (conditional grammar) (conditional other) state fun result last =>
      Collected result.toList last.scopes.current := by
  unfold conditional
  simp only [Reads.current_bind]
  refine .bindOption (condition_reads calls)
    (fun _ _ => .pure fun _ => .nil) fun tested middle passage => ?_
  have calls := calls.after passage
  simp only [Reads.lookahead_bind]
  refine .check True (fun _ => ⟨_, _, rfl, rfl, .advance middle, fun _ => trivial⟩)
    (fun _ => trivial) fun _ skipped => ?_
  have calls := calls.after skipped
  refine .bindOption (expectBlock_reads calls)
    (fun _ _ => .pure fun _ _ _ => .nil) fun consequence _ passage => ?_
  refine .bind (alternative_reads (calls.after passage)) fun otherwise _ _ => .pure ?_
  intro alternativeValid consequenceValid _ testedValid
  refine .single ?_ (Exclusives.empty_within _)
  cases otherwise with
  | none => exact ⟨testedValid tested rfl, consequenceValid consequence rfl⟩
  | some otherwise =>
    exact ⟨testedValid tested rfl, consequenceValid consequence rfl, alternativeValid.1⟩

/-! ## Loops and rules -/

/-- The variables of a loop are bare words, each of them declared. -/
theorem loopVariables_reads {line : Nat} {names : List (List Char)} :
    Reads (loopVariables line names) (loopVariables line names) state
      fun targets _ => AllValid targets := by
  induction names generalizing state with
  | nil => exact .pure trivial
  | cons name later ih =>
    unfold loopVariables
    refine .bind declaredTarget_reads fun target _ _ => .bind ih fun targets _ _ => .pure ?_
    rintro rest ⟨rfl, -⟩
    exact ⟨trivial, rest⟩

/-- The target of a `foreach` is a list of names, one name, or a word to be evaluated. -/
theorem loopTargets_reads (calls : Calls grammar other 2 state) :
    Reads (loopTargets grammar) (loopTargets other) state
      fun result _ => ∀ value ∈ result, value.Valid := by
  unfold loopTargets
  simp only [Reads.current_bind]
  split
  case h_1 =>
    refine captureBrace_bind (calls.lower (by decide)) (fun _ _ => .pure trivial) fun _ _ _ _ => ?_
    refine .bind loopVariables_reads fun targets _ _ => .pure fun valid => ?_
    rintro _ ⟨⟩
    exact valid
  case h_2 | h_3 =>
    exact (calls.now (.word .word) Nat.one_lt_two).mono fun _ _ _ plain value found =>
      (plain value found).valid
  case h_4 =>
    refine .bind (rawWordText_reads (calls.lower (by decide))) fun text _ _ => ?_
    refine .bind declaredTarget_reads fun target _ _ => .pure ?_
    rintro ⟨rfl, -⟩ - _ ⟨⟩
    trivial

/-- A `foreach` excludes nothing outside its block. -/
theorem foreachStatement_reads (calls : Calls grammar other 0 state) :
    Reads (foreachStatement grammar) (foreachStatement other) state fun result last =>
      Collected result.toList last.scopes.current := by
  unfold foreachStatement
  simp only [Reads.current_bind, Reads.endsCommand_bind]
  refine .ite (fun _ => .reportAhead_bind (by simp) fun _ _ => .pure trivial) fun goesOn => ?_
  have onward := calls.ahead (State.more_of_goesOn goesOn)
  refine .advance_bind (.bindOption (loopTargets_reads (onward.lower (by decide)))
    (fun _ _ => .pure fun _ => .nil) fun targets _ passage => ?_)
  have onward := (onward.after passage).onward
  simp only [Reads.endsCommand_bind]
  refine .ite (fun _ => .reportAhead_bind (by simp) fun _ _ => .pure trivial)
    fun _ => .advance_bind ?_
  refine .bindOption (onward.call (.word .word))
    (fun _ _ => .pure fun _ _ => .nil) fun items _ passage => ?_
  refine .bindOption (expectBlock_reads ((onward.after passage).lower (by decide)))
    (fun _ _ => .pure fun _ _ _ => .nil)
    fun body _ _ => .pure fun bodyValid plain targetsValid => ?_
  exact .single ⟨targetsValid targets rfl, (plain items rfl).valid, bodyValid body rfl⟩
    (Exclusives.empty_within _)

/-- A named rule is valid if its block is. -/
theorem ruleStatement_reads (calls : Calls grammar other 1 state) :
    Reads (ruleStatement grammar) (ruleStatement other) state fun result last =>
      Collected result.toList last.scopes.current := by
  unfold ruleStatement
  simp only [Reads.current_bind]
  refine .advance_bind ?_
  simp only [Reads.endsCommand_bind, Reads.isAhead_bind]
  refine .ite (fun _ => .reportAhead_bind (by simp) fun _ _ => .pure trivial)
    fun _ => .advance_bind ?_
  simp only [Reads.current_bind]
  have onward := calls.onward.onward
  refine .bind (rawWordText_reads onward) fun name _ passage => ?_
  refine .bindOption (expectBlock_reads ((onward.after passage).lower (by decide)))
    (fun _ _ => .pure fun _ _ => .nil) fun body _ _ => .pure fun valid _ => ?_
  exact .single ⟨trivial, valid body rfl⟩ (Exclusives.empty_within _)

/-! ## Statements -/

/-- An expression that stands alone excludes what its command does, within the scope. -/
theorem expressionStatement_reads (calls : Calls grammar other 4 state) :
    Reads (expressionStatement grammar) (expressionStatement other) state fun result last =>
      Collected result.toList last.scopes.current := by
  unfold expressionStatement
  simp only [Reads.current_bind]
  refine .bindOption (calls.now .commandOrExpression (by decide))
    (fun _ _ => .pure fun _ => .nil) fun value _ _ => .pure fun good => ?_
  exact .single (good value rfl).1 (good value rfl).2

/-- The first token decides which statement is read. -/
theorem statementBody_reads (calls : Calls grammar other 4 state) :
    Reads (statementBody grammar) (statementBody other) state fun result last =>
      Collected result.toList last.scopes.current := by
  unfold statementBody
  simp only [Reads.current_bind]
  split
  case h_1 => exact .reportIllegal
  case h_2 | h_3 => exact .reportHere_bind (by simp) fun _ _ => .pure trivial
  case h_4 => exact setStatement_reads (calls.lower (by decide))
  case h_5 => exact returnStatement_reads (calls.lower (by decide))
  case h_6 => exact calls.now .conditional (by decide)
  case h_7 => exact switchStatement_reads (calls.lower (by decide))
  case h_8 => exact foreachStatement_reads (calls.lower (by decide))
  case h_9 opening =>
    refine .bind (block_reads (calls.lower (by decide)) opening) fun body _ _ =>
      .pure fun valid => ?_
    exact .single valid (Exclusives.empty_within _)
  case h_10 =>
    simp only [Reads.isAhead_bind]
    refine .ite (fun _ => ?_) fun _ => ?_
    · exact ruleStatement_reads (calls.lower (by decide))
    · exact expressionStatement_reads calls

/-- Ending a statement changes nothing about what was read. -/
theorem statement_reads (calls : Calls grammar other 4 state) :
    Reads (statement grammar) (statement other) state fun result last =>
      Collected result.toList last.scopes.current := by
  unfold statement
  simp only [Reads.current_bind]
  refine .ite (fun _ => .pure .nil) fun _ => ?_
  refine .bind (statementBody_reads calls) fun result middle passage => ?_
  refine .bind (finishCommand_reads ((calls.after passage).lower (by decide))) ?_
  intro _ last finishing
  refine .pure fun _ collected => ⟨collected.valid, collected.within.trans finishing.kept⟩

/-- The statements of a rule are read into the outermost scope. -/
theorem script_reads (calls : Calls grammar other 5 state) :
    Reads (script grammar) (script other) state fun statements last =>
      Collected statements last.scopes.current := by
  unfold script
  simp only [Reads.current_bind]
  refine .ite (fun _ => .pure .nil) fun more => ?_
  refine .bind (calls.now .statement (by decide)) fun next middle passage => .advance_bind ?_
  have onward := calls.beyond passage (by simpa using more)
  refine .bind (onward.call .script) fun later last reading => .pure fun rest first => ?_
  exact first.append ((Passage.advance middle).trans reading).kept rest

/-! ## All rules -/

/-- Every rule keeps its contract, over any two meanings that keep theirs alike. -/
theorem rules_reads {production : Production} (calls : Calls grammar other production.rank state) :
    Reads (rules grammar production) (rules other production) state (production.Good state) := by
  cases production with
  | script => exact script_reads calls
  | statement => exact statement_reads calls
  | conditional => exact conditional_reads calls
  | blockBody => exact blockBody_reads calls
  | drain => exact drain_reads calls
  | skipCommand => exact skipCommand_reads calls
  | skipToCloseBrace => exact skipToCloseBrace_reads calls
  | rawWord => exact rawWord_reads calls
  | switchOptions => exact switchOptions_reads calls
  | cases => exact cases_reads calls
  | fallThrough => exact fallThrough_reads calls
  | skipCaseLine => exact skipCaseLine_reads calls
  | commandOrExpression => exact commandOrExpression_reads calls
  | expression => exact expression_reads calls
  | operatorChain => exact operatorChain_reads calls
  | callArguments => exact callArguments_reads calls
  | arguments => exact arguments_reads calls
  | classOptions => exact classOptions_reads calls
  | regsubFlags => exact regsubFlags_reads calls
  | regsubArguments => exact regsubArguments_reads calls
  | word => exact word_reads calls
  | pieces => exact pieces_reads calls
  | bracketCommands => exact bracketCommands_reads calls
  | listElements => exact listElements_reads calls
  | hashPairs => exact hashPairs_reads calls
  | substitutionCommands => exact substitutionCommands_reads calls

end IRule.Parser
