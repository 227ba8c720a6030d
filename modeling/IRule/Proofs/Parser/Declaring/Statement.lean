import IRule.Proofs.Parser.Declaring.Command

/-!
# Expressions, statements and the grammar

No expression is the word `set` alone, so that words behind it make no assignment.
The loop variables of a `foreach` are declared on the spot, those of a braced list
one by one. The rules of the grammar keep to their contracts as soon as the
productions they call do, and so the productions do at every depth.
-/

namespace IRule.Parser

variable {grammar : Grammar} {state : State}

/-! ## Operands -/

/-- An operation assigns what its operands do. -/
theorem joined_grows {token : Token} {left right : Expression} :
    Grows (joined token left right) state fun value _ =>
      targetsIn value.nodes = targetsIn left.nodes ++ targetsIn right.nodes ∧
        value.isSetWord = false := by
  unfold joined
  exact .checkUnless (fun _ => .record rfl (spares_problem (by simp)))
    fun _ _ => .pure ⟨by simp, rfl⟩

/-- Looking for an operand declares nothing. -/
theorem operandMissing_grows {token : Token} :
    Grows (operandMissing token) state fun _ _ => True := by
  unfold operandMissing
  simp only [Grows.endsCommand_bind]
  exact .ite (fun _ => .record_bind rfl (spares_problem (by simp)) (.pure trivial))
    fun _ => .pure trivial

/-- A construct is given up where an operand is missing. -/
theorem operandMissing_keep_grows {α : Type} {token : Token} {onward : Parse (Option α)}
    {known : α → State → Prop}
    (goesOn : ∀ middle, Growth state middle →
      Grows onward middle fun result last => ∀ value ∈ result, known value last) :
    Grows (operandMissing token >>= fun missing => if missing then pure none else onward) state
      fun result last => ∀ value ∈ result, known value last :=
  operandMissing_grows.bind fun _ middle growth _ =>
    .ite (fun _ => .pure (by simp)) fun _ => goesOn middle growth

/-- A sign assigns what its operand does. -/
theorem unaryExpression_grows (declares : grammar.Declares) :
    Grows (unaryExpression grammar) state fun result last =>
      ∀ value ∈ result, targetsIn value.nodes ⊆ last.declared ∧ value.isSetWord = false := by
  unfold unaryExpression
  simp only [Grows.current_bind]
  refine operandMissing_keep_grows fun _ _ => .advance_bind ?_
  exact (declares (.expression .unary) _).mapped
    fun value last _ known => ⟨by simpa using known.1, rfl⟩

/-- Parentheses assign what stands in them. -/
theorem groupedExpression_grows (declares : grammar.Declares) :
    Grows (groupedExpression grammar) state fun result last =>
      ∀ value ∈ result, targetsIn value.nodes ⊆ last.declared ∧ value.isSetWord = false := by
  unfold groupedExpression
  simp only [Grows.current_bind, Grows.isAhead_bind]
  refine .ite (fun _ => ?_) fun _ => ?_
  · exact .record_bind rfl (spares_problem (by simp)) (.advance_bind (.pure (by simp)))
  refine .bind (.within
    (fun (result : Option Expression) names =>
      ∀ value ∈ result, targetsIn value.nodes ⊆ names ∧ value.isSetWord = false)
    (.advance_bind (declares (.expression .lowest) _))) fun inner middle _ known => ?_
  have group : ∀ value ∈ inner.map fun inner => Expression.group state.current inner,
      targetsIn value.nodes ⊆ middle.declared ∧ value.isSetWord = false := by
    simp only [Option.mem_def, Option.map_eq_some_iff]
    rintro value ⟨inner, rfl, rfl⟩
    exact ⟨by simpa using (known inner rfl).1, rfl⟩
  simp only [Grows.isAhead_bind]
  exact .ite (fun _ => .advance_bind (.pure group))
    fun _ => .record_bind rfl (spares_problem (by simp)) (.pure group)

/-- A bare word as an operand assigns nothing. -/
theorem operandWord_grows {token : Token} (kind : token.kind ≠ .reserved .set) :
    Grows (operandWord token) state fun value _ =>
      targetsIn value.nodes = [] ∧ value.isSetWord = false := by
  unfold operandWord
  simp only [Grows.get_bind]
  refine .ite (fun _ => .pure ?_)
    fun _ => standaloneWord_grows.mono fun _ _ _ known => ⟨known.1, known.2 kind⟩
  exact ⟨by simp [bareWord],
    by simpa [bareWord, Expression.isSetWord] using kind⟩

/-- Only the word `set` starts at its token. -/
theorem StartsAt.isSetWord_eq_false {token : Token} {value : Expression}
    (starts : StartsAt token value) (kind : token.kind ≠ .reserved .set) :
    value.isSetWord = false := by
  unfold Expression.isSetWord
  split
  · rw [starts.name _ _ _ rfl]
    simpa using kind
  · rfl

/-- An operand is never the word `set`, for that starts a command. -/
theorem operand_grows (declares : grammar.Declares) :
    Grows (operand grammar) state fun result last =>
      ∀ value ∈ result, targetsIn value.nodes ⊆ last.declared ∧ value.isSetWord = false := by
  -- What starts at a token other than `set` is not that word.
  have other {action : Parse (Option Expression)} (kind : state.current.kind ≠ .reserved .set)
      (grows : Grows action state fun result last =>
        ∀ value ∈ result, targetsIn value.nodes ⊆ last.declared ∧ StartsAt state.current value) :
      Grows action state fun result last =>
        ∀ value ∈ result, targetsIn value.nodes ⊆ last.declared ∧ value.isSetWord = false :=
    grows.mono fun _ _ _ known value found =>
      ⟨(known value found).1, (known value found).2.isSetWord_eq_false kind⟩
  have leaf (value : Expression) (none : targetsIn value.nodes = [])
      (plain : value.isSetWord = false) :
      Grows (pure (some value)) state fun result last =>
        ∀ value ∈ result, targetsIn value.nodes ⊆ last.declared ∧ value.isSetWord = false :=
    .pure (by simp [none, plain])
  unfold operand
  simp only [Grows.current_bind]
  split
  case h_1 kind | h_2 kind | h_3 kind | h_4 kind =>
    exact other (by simp [kind]) (piece_grows declares)
  case h_5 kind | h_6 kind | h_7 kind =>
    exact other (by simp [kind]) (declares (.word .operand) state)
  case h_8 => exact groupedExpression_grows declares
  case h_9 kind =>
    exact other (by simp [kind]) ((bracedWord_grows declares).mono (by simp [kind]))
  case h_10 | h_11 | h_12 => exact unaryExpression_grows declares
  case h_13 => exact handler_grows declares
  case h_14 | h_15 => exact command_grows declares
  case h_16 kind =>
    exact leaf _ (by simp) (by simp [Expression.isSetWord, kind])
  case h_17 kind | h_18 kind =>
    exact leaf _ (by simp [bareWord])
      (by simp [bareWord, Expression.isSetWord, kind])
  case h_19 => exact leaf _ (by simp) rfl
  case h_20 => exact reportIllegal_grows
  case h_21 notSet _ _ _ _ _ _ =>
    refine .ite (fun _ => ?_) fun _ => .giveUp rfl (spares_problem (by simp))
    exact (operandWord_grows (by assumption)).bind fun _ _ _ known => .pure (by simp [known])

/-- Operators applied to an operand whose assignments are declared. -/
theorem Grammar.Declares.operatorChain {left : Expression} (declares : grammar.Declares)
    (precedence : Precedence) (known : targetsIn left.nodes ⊆ state.declared)
    (plain : left.isSetWord = false) :
    Grows (grammar.operatorChain left precedence) state fun result last =>
      ∀ value ∈ result, targetsIn value.nodes ⊆ last.declared ∧ value.isSetWord = false := by
  refine (declares (.operatorChain left precedence) state).mono fun _ last growth chained => ?_
  intro value found
  obtain ⟨assigned, word⟩ := chained value found
  refine ⟨List.Subset.trans assigned ?_, word plain⟩
  exact List.append_subset.2 ⟨growth.keeps known, List.Subset.refl _⟩

/-- What an expression assigns is declared behind it. -/
theorem expression_grows {precedence : Precedence} (declares : grammar.Declares) :
    Grows (expression grammar precedence) state fun result last =>
      ∀ value ∈ result, targetsIn value.nodes ⊆ last.declared ∧ value.isSetWord = false := by
  unfold expression
  refine (operand_grows declares).keep rfl fun left middle _ known => ?_
  exact declares.operatorChain precedence known.1 known.2

/-! ## Operators

What is applied to a left operand assigns no more than the operand does and what is
declared behind it. -/

/-- The names of a left operand stay beside those of the right one. -/
theorem beside_subset {left right names : List String} (inside : right ⊆ names) :
    left ++ right ⊆ left ++ names :=
  List.append_subset.2
    ⟨List.subset_append_left _ _, List.subset_append_of_subset_right _ inside⟩

/-- The number of a glued sign assigns nothing by itself. -/
theorem splitSubtraction_grows {left : Expression} (declares : grammar.Declares) :
    Grows (splitSubtraction grammar left) state fun result last =>
      ∀ value ∈ result, targetsIn value.nodes ⊆ targetsIn left.nodes ++ last.declared ∧
        value.isSetWord = false := by
  unfold splitSubtraction
  simp only [Grows.current_bind]
  refine .run_bind rfl (.of_quiet (List.Subset.refl _) rfl) ?_
  refine numberLiteral_grows.bind fun first middle _ number => ?_
  have plain : first.isSetWord = false := by
    unfold Expression.isSetWord
    split
    · exact absurd rfl (number.2.1 _ _ _)
    · rfl
  refine (declares.operatorChain .sum (by simp [number.1]) plain).keep rfl
    fun right _ _ known => ?_
  refine joined_grows.bind fun value _ growth both => .pure ?_
  rintro _ ⟨⟩
  rw [both.1]
  exact ⟨beside_subset (growth.keeps known.1), both.2⟩

/-- What the arguments of a call assign is declared behind them. -/
theorem callArguments_grows (declares : grammar.Declares) :
    Grows (callArguments grammar) state fun given last =>
      targetsIn (nodesOf given) ⊆ last.declared := by
  unfold callArguments
  refine .advance_bind ((declares (.expression .lowest) _).bind fun argument middle _ known => ?_)
  have known : ∀ value ∈ argument, targetsIn value.nodes ⊆ middle.declared :=
    fun value found => (known value found).1
  simp only [Grows.isAhead_bind]
  refine .ite (fun _ => .advance_bind ?_) fun _ => .pure (targetsIn_toList.2 known)
  refine (declares .callArguments _).bind fun later _ onward rest => .pure ?_
  exact ((Growth.advance middle).trans onward).collect known rest

/-- A call assigns what its function and its arguments do. -/
theorem callExpression_grows {function : Expression} (declares : grammar.Declares) :
    Grows (callExpression grammar function) state fun value last =>
      targetsIn value.nodes ⊆ targetsIn function.nodes ++ last.declared ∧
        value.isSetWord = false := by
  unfold callExpression
  simp only [Grows.current_bind]
  refine .bind (.within (fun given names => targetsIn (nodesOf given) ⊆ names) ?_)
    fun given _ _ known => .pure ⟨?_, rfl⟩
  · simp only [Grows.isAhead_bind]
    refine .ite (fun _ => .advance_bind (.pure (by simp))) fun _ => ?_
    refine (declares .callArguments _).bind fun given _ _ known => ?_
    simp only [Grows.isAhead_bind]
    exact .ite (fun _ => .advance_bind (.pure known))
      fun _ => .record_bind rfl (spares_problem (by simp)) (.pure known)
  · simpa using beside_subset known

/-- An operator that was applied assigns what both operands do. -/
theorem applied_grows {left : Expression} (declares : grammar.Declares) :
    Grows (applied grammar left) state fun result last =>
      ∀ value ∈ result, targetsIn value.nodes ⊆ targetsIn left.nodes ++ last.declared ∧
        value.isSetWord = false := by
  unfold applied
  simp only [Grows.current_bind]
  refine .ite (fun _ => ?_) fun _ => operandMissing_keep_grows fun _ _ => .advance_bind ?_
  · exact (callExpression_grows declares).bind fun _ _ _ known => .pure (by simpa using known)
  · refine (declares (.expression _) _).keep rfl fun right _ _ known => ?_
    refine joined_grows.bind fun value _ growth both => .pure ?_
    rintro _ ⟨⟩
    rw [both.1]
    exact ⟨beside_subset (growth.keeps known.1), both.2⟩

/-- The loop over the operators adds what its right operands assign. -/
theorem operatorChain_grows {left : Expression} {precedence : Precedence}
    (declares : grammar.Declares) :
    Grows (operatorChain grammar left precedence) state fun result last =>
      ∀ value ∈ result, targetsIn value.nodes ⊆ targetsIn left.nodes ++ last.declared ∧
        (left.isSetWord = false → value.isSetWord = false) := by
  have unchanged : Grows (pure (some left)) state fun result last =>
      ∀ value ∈ result, targetsIn value.nodes ⊆ targetsIn left.nodes ++ last.declared ∧
        (left.isSetWord = false → value.isSetWord = false) := by
    refine .pure ?_
    rintro _ ⟨⟩
    exact ⟨List.subset_append_left _ _, id⟩
  -- What the first operator makes of the operand is the operand of the next.
  have onward (next : Expression) (middle : State)
      (known : targetsIn next.nodes ⊆ targetsIn left.nodes ++ middle.declared)
      (plain : next.isSetWord = false) :
      Grows (grammar.operatorChain next precedence) middle fun result last =>
        ∀ value ∈ result, targetsIn value.nodes ⊆ targetsIn left.nodes ++ last.declared ∧
          (left.isSetWord = false → value.isSetWord = false) := by
    refine (declares (.operatorChain next precedence) middle).mono fun _ last growth chained => ?_
    intro value found
    obtain ⟨assigned, word⟩ := chained value found
    have known : targetsIn next.nodes ⊆ targetsIn left.nodes ++ last.declared :=
      List.Subset.trans known (beside_subset growth.declared)
    refine ⟨List.Subset.trans assigned ?_, fun _ => word plain⟩
    exact List.append_subset.2 ⟨known, List.subset_append_right _ _⟩
  unfold operatorChain
  simp only [Grows.get_bind]
  refine .ite (fun _ => unchanged) fun _ => .ite (fun _ => unchanged) fun _ => .advance_bind ?_
  refine .ite (fun _ => ?_) fun _ => ?_
  · exact (splitSubtraction_grows declares).keep rfl fun next middle _ known =>
      onward next middle known.1 known.2
  · exact (applied_grows declares).keep rfl fun next middle _ known =>
      onward next middle known.1 known.2

/-- An expression with words behind it is a command, but not a `set`. -/
theorem commandOrExpression_grows (declares : grammar.Declares) :
    Grows (commandOrExpression grammar) state fun result last =>
      ∀ value ∈ result, targetsIn value.nodes ⊆ last.declared := by
  unfold commandOrExpression
  simp only [Grows.get_bind]
  refine .ite (fun _ => ?_) fun _ => ?_
  · exact (command_grows declares).mono fun _ _ _ known value found => (known value found).1
  refine (declares (.expression .lowest) _).keep rfl fun name middle _ known => ?_
  simp only [Grows.endsCommand_bind]
  refine .ite (fun _ => .pure (by simpa using known.1)) fun _ => ?_
  refine (declares .arguments _).bind fun given _ growth arguments => .pure ?_
  rintro _ ⟨⟩
  have arguments : targetsIn (nodesOf given) ⊆ _ := arguments
  simpa [known.2] using ⟨growth.keeps known.1, arguments⟩

/-! ## `switch` -/

/-- Options are cut out of the text. -/
theorem switchOptions_grows {options : SwitchOptions} (declares : grammar.Declares) :
    Grows (switchOptions grammar options) state fun _ _ => True := by
  unfold switchOptions
  simp only [Grows.get_bind]
  refine .ite (fun _ => .advance_bind ?_) fun _ => .pure trivial
  refine (rawWordText_grows declares).bind fun option _ _ _ => ?_
  refine .ite (fun _ => .pure trivial) fun _ => ?_
  split
  · exact declares (.switchOptions _) _
  · exact .record_bind rfl (spares_problem (by simp)) (declares (.switchOptions options) _)

/-- Patterns are never read as code. -/
theorem casePattern_grows {options : SwitchOptions} (declares : grammar.Declares) :
    Grows (casePattern grammar options) state fun _ _ => True := by
  unfold casePattern
  simp only [Grows.current_bind]
  split
  case h_1 =>
    refine (captureBrace_grows declares).bind fun body _ _ _ => ?_
    cases body <;> exact .pure trivial
  case h_2 => exact .pure trivial
  case h_3 => exact (@reportIllegal_grows state Pattern fun _ _ => True).trivial
  case h_4 =>
    refine .ite (fun _ => .record_bind rfl (spares_problem (by simp)) (.pure trivial)) fun _ => ?_
    exact (rawWordText_grows declares).bind fun _ _ _ _ => .pure trivial

theorem fallThrough_grows {options : SwitchOptions} (declares : grammar.Declares) :
    Grows (fallThrough grammar options) state fun _ _ => True := by
  unfold fallThrough
  simp only [Grows.get_bind]
  refine .ite (fun _ => .advance_bind ?_) fun _ => .pure trivial
  simp only [Grows.isAhead_bind]
  refine .ite (fun _ => .record_bind rfl (spares_problem (by simp)) (.pure trivial))
    fun _ => .advance_bind ?_
  refine (casePattern_grows declares).bind fun pattern _ _ _ => ?_
  cases pattern with
  | none => exact .pure trivial
  | some pattern =>
    refine (declares (.fallThrough options) _).bind fun later _ _ _ => ?_
    cases later <;> exact .pure trivial

theorem casePatterns_grows {options : SwitchOptions} (declares : grammar.Declares) :
    Grows (casePatterns grammar options) state fun _ _ => True := by
  unfold casePatterns
  simp only [Grows.current_bind]
  refine .ite (fun _ => .pure trivial) fun _ => ?_
  refine (casePattern_grows declares).bind fun pattern _ _ _ => ?_
  cases pattern with
  | none => exact .pure trivial
  | some pattern =>
    refine (declares (.fallThrough options) _).bind fun later _ _ _ => ?_
    cases later with
    | none => exact .pure trivial
    | some later => exact .ite (fun _ => .pure trivial) fun _ => .pure trivial

/-- An arm assigns what its block does. -/
theorem caseArm_grows {options : SwitchOptions} (declares : grammar.Declares) :
    Grows (caseArm grammar options) state fun result last =>
      ∀ arm ∈ result, targetsIn (caseNodes [arm]) ⊆ last.declared := by
  unfold caseArm
  simp only [Grows.current_bind]
  refine (casePatterns_grows declares).bind fun pattern _ _ _ => ?_
  cases pattern with
  | none => exact .pure (by simp)
  | some pattern =>
    refine (expectBlock_grows declares).keep rfl fun body _ _ known => .pure ?_
    rintro _ ⟨⟩
    simpa using known

/-- What an arm assigns stays declared, also when the arm behind it is dropped. -/
theorem cases_grows {options : SwitchOptions} {line : Nat} (declares : grammar.Declares) :
    Grows (cases grammar options line) state fun arms last =>
      targetsIn (caseNodes arms) ⊆ last.declared := by
  unfold cases
  simp only [Grows.lookahead_bind]
  split
  case h_1 => exact .advance_bind (.pure (by simp))
  case h_2 => exact .record_bind rfl (spares_problem (by simp)) (.pure (by simp))
  case h_3 =>
    refine .advance_bind ((caseArm_grows declares).bind fun arm middle _ known => ?_)
    refine .check (fun _ => declares .skipCaseLine _) fun _ checked => ?_
    refine (declares (.cases options line) _).bind fun later _ onward rest => .pure ?_
    cases arm with
    | none => exact rest
    | some arm =>
      rw [caseNodes_append, targetsIn_append]
      exact List.append_subset.2 ⟨(checked.trans onward).keeps (known arm rfl), rest⟩

/-- A `switch` assigns what its value and its arms do. -/
theorem switchStatement_grows (declares : grammar.Declares) :
    Grows (switchStatement grammar) state fun result last =>
      ∀ statement ∈ result, targetsIn statement.nodes ⊆ last.declared := by
  unfold switchStatement
  simp only [Grows.current_bind]
  refine (declares (.switchOptions {}) _).bind fun options _ _ _ => ?_
  simp only [Grows.endsCommand_bind]
  refine .ite (fun _ => .giveUp rfl (spares_problem (by simp))) fun _ => .advance_bind ?_
  refine (declares.word .word).keep rfl fun value middle _ known => ?_
  simp only [Grows.isAhead_bind]
  refine .ite (fun _ => .advance_bind ?_) fun _ => .giveUp rfl (spares_problem (by simp))
  simp only [Grows.current_bind]
  refine .bind (.within (fun arms names => targetsIn (caseNodes arms) ⊆ names)
    (declares (.cases options _) _)) fun arms _ onward arms => .pure ?_
  rintro _ ⟨⟩
  simpa using ⟨((Growth.advance middle).trans onward).keeps known, arms⟩

/-! ## Statements -/

/-- A `set` assigns its target and what stands in its words. -/
theorem setStatement_grows (declares : grammar.Declares) :
    Grows (setStatement grammar) state fun result last =>
      ∀ statement ∈ result, targetsIn statement.nodes ⊆ last.declared := by
  unfold setStatement
  simp only [Grows.current_bind]
  refine (setParts_grows declares).keep rfl fun parts _ _ known => ?_
  obtain ⟨name, value⟩ := parts
  refine .pure ?_
  rintro _ ⟨⟩
  simpa using known

/-- A `return` assigns what its value does. -/
theorem returnStatement_grows (declares : grammar.Declares) :
    Grows (returnStatement grammar) state fun result last =>
      ∀ statement ∈ result, targetsIn statement.nodes ⊆ last.declared := by
  unfold returnStatement
  simp only [Grows.current_bind, Grows.endsCommand_bind]
  refine .ite (fun _ => .pure (by simp)) fun _ => .advance_bind ?_
  refine (declares.word .word).keep rfl fun value _ _ known => .pure ?_
  rintro _ ⟨⟩
  simpa using known

/-- A condition stays declared behind text that is passed over. -/
theorem bracedCondition_grows (declares : grammar.Declares) :
    Grows (bracedCondition grammar) state fun result last =>
      ∀ value ∈ result, targetsIn value.nodes ⊆ last.declared := by
  unfold bracedCondition
  simp only [Grows.current_bind, Grows.isAhead_bind]
  refine .ite (fun _ => ?_) fun _ => ?_
  · exact .record_bind rfl (spares_problem (by simp)) (.advance_bind (.pure (by simp)))
  refine .bind (.within (fun (result : Option Expression) names =>
    ∀ value ∈ result, targetsIn value.nodes ⊆ names) ?_) fun condition _ _ known => ?_
  · refine .advance_bind
      ((declares (.expression .lowest) _).bind fun condition middle _ known => ?_)
    have known : ∀ value ∈ condition, targetsIn value.nodes ⊆ middle.declared :=
      fun value found => (known value found).1
    simp only [Grows.isAhead_bind]
    refine .ite (fun _ => .pure known) fun _ => .bind (.record rfl (spares_problem (by simp))) ?_
    refine fun _ _ reported _ => (declares .skipToCloseBrace _).bind fun _ _ skipped _ => .pure ?_
    exact fun value found => (reported.trans skipped).keeps (known value found)
  · simp only [Grows.isAhead_bind]
    exact .ite (fun _ => .advance_bind (.pure known))
      fun _ => .giveUp rfl (spares_problem (by simp))

/-- A condition without braces is a word. -/
theorem condition_grows (declares : grammar.Declares) :
    Grows (condition grammar) state fun result last =>
      ∀ value ∈ result, targetsIn value.nodes ⊆ last.declared := by
  unfold condition
  simp only [Grows.endsCommand_bind]
  refine .ite (fun _ => .giveUp rfl (spares_problem (by simp))) fun _ => .advance_bind ?_
  simp only [Grows.current_bind]
  exact .ite (fun _ => bracedCondition_grows declares) fun _ => declares.word .word

/-- An alternative assigns what its block does, or as a conditional. -/
theorem alternative_grows (declares : grammar.Declares) :
    Grows (alternative grammar) state fun result last =>
      ∀ statement ∈ result, targetsIn statement.nodes ⊆ last.declared := by
  unfold alternative
  simp only [Grows.lookahead_bind]
  split
  case h_1 => exact .advance_bind (declares .conditional _)
  case h_2 =>
    refine .advance_bind ?_
    simp only [Grows.isAhead_bind]
    refine .ite (fun _ => .advance_bind (declares .conditional _)) fun _ => ?_
    exact (expectBlock_grows declares).mapped fun body _ _ known => by
      simpa using known
  case h_3 => exact .pure (by simp)

/-- A conditional assigns what all of its parts do. -/
theorem conditional_grows (declares : grammar.Declares) :
    Grows (conditional grammar) state fun result last =>
      ∀ statement ∈ result, targetsIn statement.nodes ⊆ last.declared := by
  unfold conditional
  simp only [Grows.current_bind]
  refine (condition_grows declares).keep rfl fun tested middle _ known => ?_
  simp only [Grows.lookahead_bind]
  refine .check (fun _ => .run rfl (.advance _) trivial) fun _ checked => ?_
  refine (expectBlock_grows declares).keep rfl fun consequence _ toBlock body => ?_
  refine (alternative_grows declares).bind fun otherwise last onward other => .pure ?_
  rintro _ ⟨⟩
  have tested := ((checked.trans toBlock).trans onward).keeps known
  exact targetsIn_conditional_subset.2 ⟨tested, onward.keeps body, other⟩

/-- Loop variables are declared one by one. -/
theorem loopVariables_grows {line : Nat} {names : List (List Char)} :
    Grows (loopVariables line names) state fun targets last =>
      targetsIn (nodesOf targets) = [] ∧ targets.flatMap Expression.nameTarget ⊆ last.declared := by
  induction names generalizing state with
  | nil => exact .pure (by simp)
  | cons name later ih =>
    refine declaredTarget_grows.bind fun target _ _ known => ?_
    refine ih.bind fun targets _ onward rest => .pure ?_
    simpa [known.1, rest.1] using ⟨onward.keeps known.2.1, rest.2⟩

/-- A reference or a bracket is neither a name nor a list of names. -/
theorem StartsAt.loopTargets_eq_nil {token : Token} {value : Expression}
    (starts : StartsAt token value) (kind : token.kind = .reference ∨ token.kind = .openBracket) :
    value.loopTargets = [] := by
  unfold Expression.loopTargets
  split
  · have brace := starts.list _ _ rfl
    simp [brace] at kind
  · rcases kind with kind | kind
    · exact starts.literalTarget_eq_nil (.inl kind)
    · unfold Expression.literalTarget
      split
      · exact absurd kind (starts.literal rfl)
      · rfl

/-- The target of a `foreach` is declared before its list is read. -/
theorem loopTargets_grows (declares : grammar.Declares) :
    Grows (loopTargets grammar) state fun result last =>
      ∀ target ∈ result,
        target.loopTargets ⊆ last.declared ∧ targetsIn target.nodes ⊆ last.declared := by
  unfold loopTargets
  simp only [Grows.current_bind]
  have read (kind : state.current.kind = .reference ∨ state.current.kind = .openBracket) :
      Grows (grammar.word .word) state fun result last => ∀ target ∈ result,
        target.loopTargets ⊆ last.declared ∧ targetsIn target.nodes ⊆ last.declared :=
    (declares (.word .word) state).mono fun _ _ _ known target found =>
      ⟨by simp [(known target found).2.loopTargets_eq_nil kind], (known target found).1⟩
  split
  case h_1 =>
    refine (captureBrace_grows declares).bind fun body _ _ _ => ?_
    cases body with
    | none => exact .pure (by simp)
    | some body =>
      refine loopVariables_grows.bind fun targets _ _ known => .pure ?_
      rintro _ ⟨⟩
      simpa [Expression.loopTargets, known.1] using known.2
  case h_2 kind => exact read (.inl kind)
  case h_3 kind => exact read (.inr kind)
  case h_4 =>
    refine (rawWordText_grows declares).bind fun text _ _ _ => ?_
    refine declaredTarget_grows.bind fun target _ _ known => .pure ?_
    rintro _ ⟨⟩
    have known : targetsIn target.nodes = [] ∧ target.nameTarget ⊆ _ ∧ _ := known
    exact ⟨List.Subset.trans (Expression.loopTargets_subset known.2.2) known.2.1, by simp [known.1]⟩

/-- A `foreach` assigns its variables, and what its list and its block do. -/
theorem foreachStatement_grows (declares : grammar.Declares) :
    Grows (foreachStatement grammar) state fun result last =>
      ∀ statement ∈ result, targetsIn statement.nodes ⊆ last.declared := by
  unfold foreachStatement
  simp only [Grows.current_bind, Grows.endsCommand_bind]
  refine .ite (fun _ => .giveUp rfl (spares_problem (by simp))) fun _ => .advance_bind ?_
  refine (loopTargets_grows declares).keep rfl fun targets targeted _ target => ?_
  simp only [Grows.endsCommand_bind]
  refine .ite (fun _ => .giveUp rfl (spares_problem (by simp))) fun _ => .advance_bind ?_
  refine (declares.word .word).keep rfl fun items _ toItems known => ?_
  refine (expectBlock_grows declares).keep rfl fun body _ onward inside => .pure ?_
  rintro _ ⟨⟩
  have growth := ((Growth.advance targeted).trans toItems).trans onward
  simpa using
    ⟨growth.keeps target.1, growth.keeps target.2, onward.keeps known, inside⟩

/-- The name of a rule is no variable. -/
theorem ruleStatement_grows (declares : grammar.Declares) :
    Grows (ruleStatement grammar) state fun result last =>
      ∀ statement ∈ result, targetsIn statement.nodes ⊆ last.declared := by
  unfold ruleStatement
  simp only [Grows.current_bind]
  refine .advance_bind ?_
  simp only [Grows.endsCommand_bind, Grows.isAhead_bind]
  refine .ite (fun _ => .giveUp rfl (spares_problem (by simp))) fun _ => .advance_bind ?_
  simp only [Grows.current_bind]
  refine (rawWordText_grows declares).bind fun _ _ _ _ => ?_
  refine (expectBlock_grows declares).keep rfl fun body _ _ known => .pure ?_
  rintro _ ⟨⟩
  simpa [bareWord] using known

theorem expressionStatement_grows (declares : grammar.Declares) :
    Grows (expressionStatement grammar) state fun result last =>
      ∀ statement ∈ result, targetsIn statement.nodes ⊆ last.declared := by
  unfold expressionStatement
  simp only [Grows.current_bind]
  exact (declares .commandOrExpression _).mapped fun value _ _ known => by
    simpa using known

/-- Whatever starts no statement assigns nothing. -/
theorem statementBody_grows (declares : grammar.Declares) :
    Grows (statementBody grammar) state fun result last =>
      ∀ statement ∈ result, targetsIn statement.nodes ⊆ last.declared := by
  unfold statementBody
  simp only [Grows.current_bind]
  split
  case h_1 => exact reportIllegal_grows
  case h_2 | h_3 => exact .giveUp rfl (spares_problem (by simp))
  case h_4 => exact setStatement_grows declares
  case h_5 => exact returnStatement_grows declares
  case h_6 => exact declares .conditional _
  case h_7 => exact switchStatement_grows declares
  case h_8 => exact foreachStatement_grows declares
  case h_9 =>
    refine (block_grows declares).bind fun body _ _ known => .pure ?_
    rintro _ ⟨⟩
    simpa using known
  case h_10 =>
    simp only [Grows.isAhead_bind]
    exact .ite (fun _ => ruleStatement_grows declares) fun _ => expressionStatement_grows declares

/-- What a statement assigns stays declared when its end is passed over. -/
theorem statement_grows (declares : grammar.Declares) :
    Grows (statement grammar) state fun result last =>
      ∀ statement ∈ result, targetsIn statement.nodes ⊆ last.declared := by
  unfold statement
  simp only [Grows.current_bind]
  refine .ite (fun _ => .pure (by simp)) fun _ => ?_
  refine (statementBody_grows declares).bind fun result _ _ known => ?_
  refine (finishCommand_grows declares).bind fun _ _ finished _ => .pure ?_
  exact fun statement found => finished.keeps (known statement found)

/-- What the statements of a rule assign is declared at its end. -/
theorem script_grows (declares : grammar.Declares) :
    Grows (script grammar) state fun statements last =>
      targetsIn (statementNodes statements) ⊆ last.declared := by
  unfold script
  simp only [Grows.current_bind]
  refine .ite (fun _ => .pure (by simp)) fun _ => ?_
  refine (declares .statement _).bind fun next middle _ known => .advance_bind ?_
  refine (declares .script _).bind fun later _ onward rest => .pure ?_
  exact ((Growth.advance middle).trans onward).collectStatement known rest

/-! ## The grammar -/

/-- Every rule keeps to its contract over productions that do. -/
theorem rules_grows (declares : grammar.Declares) (production : Production) :
    Grows (rules grammar production) state (production.Declared state) := by
  cases production with
  | script => exact script_grows declares
  | statement => exact statement_grows declares
  | conditional => exact conditional_grows declares
  | blockBody => exact blockBody_grows declares
  | drain => exact drain_grows declares
  | skipCommand => exact skipCommand_grows declares
  | skipToCloseBrace => exact skipToCloseBrace_grows declares
  | rawWord => exact rawWord_grows declares
  | switchOptions => exact switchOptions_grows declares
  | cases => exact cases_grows declares
  | fallThrough => exact fallThrough_grows declares
  | skipCaseLine => exact skipCaseLine_grows declares
  | commandOrExpression => exact commandOrExpression_grows declares
  | expression => exact expression_grows declares
  | operatorChain => exact operatorChain_grows declares
  | callArguments => exact callArguments_grows declares
  | arguments => exact arguments_grows declares
  | classOptions => exact classOptions_grows declares
  | regsubFlags => exact regsubFlags_grows declares
  | regsubArguments => exact regsubArguments_grows declares
  | word => exact word_grows declares
  | pieces => exact pieces_grows declares
  | bracketCommands => exact bracketCommands_grows declares
  | listElements => exact listElements_grows declares
  | hashPairs => exact hashPairs_grows declares
  | substitutionCommands => exact substitutionCommands_grows declares

/-- The productions keep to their contracts, at every depth. -/
theorem unfold_declares (steps : Nat) : Grammar.Declares ⟨unfold steps⟩ := by
  induction steps with
  | zero =>
    intro production state _ _ runs
    simp [unfold, outOfSteps] at runs
  | succ steps ih => exact fun production _ => rules_grows ih production

end IRule.Parser
