import IRule.Proofs.Parser.Accounting.Command
import IRule.Proofs.Parser.Expression

/-!
# Expressions, statements and the grammar

The tokens that an expression makes up stand on the line of the token they are made
from. The rules of the grammar account for their results as soon as the productions they
call do, and so the productions do at every depth.
-/

namespace IRule.Parser

variable {source : List Char} {declared : List String} {grammar other : Grammar} {state : State}

/-! ## Operands -/

/-- The names of the kinds are on one line, those of namespaced commands apart, which are
read off the text. -/
theorem kindName_oneLine {kind : TokenKind} (plain : ∀ family short, kind ≠ .command family short) :
    '\n' ∉ kind.name.toList := by
  cases kind with
  | command family short => exact absurd rfl (plain family short)
  | reserved known =>
    change '\n' ∉ known.kindName.toList
    cases known <;> simp [ReservedWord.kindName, ReservedWord.text]
  | core known =>
    change '\n' ∉ known.kindName.toList
    cases known <;> simp [CoreCommand.kindName, CoreCommand.text]
  | _ => decide

/-- The report of an operation without meaning quotes its operator. -/
theorem joined_accounts {token : Token} {left right : Expression}
    (sound : Sound source declared state) (real : HasLine source token.line)
    (quotes : Quotes source token.literal) (first : left.WordFrom source)
    (second : right.WordFrom source) :
    Accounts source declared (joined token left right) (joined token left right) state
      fun value _ => value.WordFrom source := by
  have named (node : Expression) : Quotes source (OperandClass.ofExpression node).name := by
    refine quotes_of_oneLine ?_
    cases OperandClass.ofExpression node <;> decide
  unfold joined
  refine .checkUnless sound (fun _ => .report sound real ?_ (by simp)) fun _ sound => .pure sound ?_
  · exact .of_quotes (by simpa [Problem.quoted] using ⟨quotes, named left, named right⟩)
  · refine .of_node ?_ ?_ rfl
    · simpa [Expression.tokens] using ⟨real, first.lines, second.lines⟩
    · simpa [Expression.texts] using ⟨quotes.lineFeed, first.texts, second.texts⟩

/-- A construct is given up where an operand is missing. -/
theorem operandMissing_keep_accounts {α : Type} {token : Token} {onward further : Parse (Option α)}
    {known : α → State → Prop} (sound : Sound source declared state)
    (quotes : Quotes source token.literal)
    (goesOn : ∀ middle, Sound source declared middle →
      Accounts source declared onward further middle fun result last =>
        ∀ value ∈ result, known value last) :
    Accounts source declared
      (operandMissing token >>= fun missing => if missing then pure none else onward)
      (operandMissing token >>= fun missing => if missing then pure none else further) state
      fun result last => ∀ value ∈ result, known value last := by
  have missing : Accounts source declared (operandMissing token) (operandMissing token) state
      fun _ _ => True := by
    unfold operandMissing
    simp only [Accounts.endsCommand_bind]
    refine .ite (fun _ => ?_) fun _ => .pure sound trivial
    refine (Accounts.reportHere sound ?_ (by simp)).bind fun _ _ sound _ => .pure sound trivial
    exact .one rfl quotes
  exact missing.bind fun _ middle sound _ =>
    .ite (fun _ => .pure sound (by simp)) fun _ => goesOn middle sound

/-- A sign has a line of the rule, and so has its operand. -/
theorem unaryExpression_accounts (lawful : Lawful source declared grammar other)
    (sound : Sound source declared state) :
    Accounts source declared (unaryExpression grammar) (unaryExpression other) state
      fun result _ => ∀ value ∈ result, value.WordFrom source := by
  have line := sound.line
  have literal := sound.literal
  unfold unaryExpression
  simp only [Accounts.current_bind]
  refine operandMissing_keep_accounts sound literal fun _ sound => .advance_bind ?_
  refine .mapped (lawful (.expression .unary) _ sound.advance trivial)
    fun operand _ _ (known : operand.WordFrom source) => .of_node ?_ ?_ rfl
  · simpa [Expression.tokens] using ⟨line, known.lines⟩
  · simpa [Expression.texts] using ⟨literal.lineFeed, known.texts⟩

/-- An expression in parentheses is drawn from the rule with what stands in it. -/
theorem groupedExpression_accounts (lawful : Lawful source declared grammar other)
    (sound : Sound source declared state) :
    Accounts source declared (groupedExpression grammar) (groupedExpression other) state
      fun result _ => ∀ value ∈ result, value.WordFrom source := by
  have line := sound.line
  unfold groupedExpression
  simp only [Accounts.current_bind, Accounts.isAhead_bind]
  refine .ite (fun _ => ?_) fun _ => ?_
  · exact (Accounts.reportHere sound (.silent rfl) (by simp)).bind
      fun _ _ sound _ => .advance_bind (.pure sound.advance (by simp))
  refine (Accounts.within sound fun sound => .advance_bind
    (lawful (.expression .lowest) _ sound.advance trivial)).bind fun inner _ sound known => ?_
  have group : ∀ value ∈ inner.map fun inner => Expression.group state.current inner,
      value.WordFrom source := by
    simp only [Option.mem_def, Option.map_eq_some_iff]
    rintro value ⟨inner, rfl, rfl⟩
    have known := known inner rfl
    refine .of_node ?_ ?_ rfl
    · simpa [Expression.tokens] using ⟨line, known.lines⟩
    · simpa [Expression.texts] using known.texts
  simp only [Accounts.isAhead_bind]
  refine .ite (fun _ => .advance_bind (.pure sound.advance group)) fun _ => ?_
  exact (Accounts.report sound line (.silent rfl) (by simp)).bind
    fun _ _ sound _ => .pure sound group

/-- A bare word as an operand is quoted when it must not stand alone. -/
theorem operandWord_accounts (sound : Sound source declared state) :
    Accounts source declared (operandWord state.current) (operandWord state.current) state
      fun value _ => value.WordFrom source := by
  unfold operandWord
  simp only [Accounts.get_bind]
  exact .ite (fun _ => .pure sound (bareWord_wordFrom sound.line sound.literal))
    fun _ => standaloneWord_accounts sound sound.line sound.literal

/-- Whatever an expression starts with is drawn from the rule. -/
theorem operand_accounts (lawful : Lawful source declared grammar other)
    (sound : Sound source declared state) :
    Accounts source declared (operand grammar) (operand other) state
      fun result _ => ∀ value ∈ result, value.WordFrom source := by
  have line := sound.line
  have literal := sound.literal
  have leaf {value : Expression} (known : value.WordFrom source) :
      Accounts source declared (pure (some value)) (pure (some value)) state
        fun result _ => ∀ value ∈ result, value.WordFrom source :=
    .pure sound (by simpa using known)
  unfold operand
  simp only [Accounts.current_bind]
  split
  case h_1 | h_2 | h_3 | h_4 => exact piece_accounts lawful sound
  case h_5 | h_6 | h_7 => exact lawful (.word .operand) state sound trivial
  case h_8 => exact groupedExpression_accounts lawful sound
  case h_9 => exact bracedWord_accounts lawful sound
  case h_10 | h_11 | h_12 => exact unaryExpression_accounts lawful sound
  case h_13 => exact handler_accounts lawful sound
  case h_14 | h_15 => exact command_accounts lawful sound
  case h_16 =>
    exact leaf (Expression.wordFrom_leaf line literal rfl (by simp [Expression.texts])
      (by simp [Expression.wordText?]))
  case h_17 | h_18 => exact leaf (bareWord_wordFrom line literal)
  case h_19 =>
    refine leaf (.of_node ?_ ?_ rfl)
    · simpa [Expression.tokens, tokensOf] using line
    · simpa [Expression.texts, textsOf] using literal.lineFeed
  case h_20 illegal => exact .reportIllegal sound illegal
  case h_21 =>
    refine .ite (fun _ => ?_) fun _ => ?_
    · exact (operandWord_accounts sound).bind fun _ _ sound known =>
        .pure sound (by simpa using known)
    · refine (Accounts.reportHere sound ?_ (by simp)).bind fun _ _ sound _ => .pure sound (by simp)
      have named := kindName_oneLine (by assumption)
      exact .one rfl (quotes_of_oneLine named)

/-- The operand of an expression is drawn from the rule, and the operators keep it so. -/
theorem expression_accounts {precedence : Precedence}
    (lawful : Lawful source declared grammar other)
    (sound : Sound source declared state) :
    Accounts source declared (expression grammar precedence) (expression other precedence) state
      fun result _ => ∀ value ∈ result, value.WordFrom source := by
  unfold expression
  refine (operand_accounts lawful sound).keep rfl rfl fun left _ sound known => ?_
  exact lawful (.operatorChain left precedence) _ sound known

/-! ## Operators -/

/-- The number behind a glued sign starts one character later, where its digits are. -/
theorem splitSubtraction_accounts {left : Expression}
    (lawful : Lawful source declared grammar other)
    (sound : Sound source declared state) (first : left.WordFrom source)
    (number : state.current.kind = .number)
    (digits : state.current.span.start + 1 < state.lexer.before.offset) :
    Accounts source declared (splitSubtraction grammar left) (splitSubtraction other left) state
      fun result _ => ∀ value ∈ result, value.WordFrom source := by
  have line := sound.line
  have unsigned := sound.step (.unsign number digits) rfl
  unfold splitSubtraction
  simp only [Accounts.current_bind]
  refine .run_bind rfl ((numberLiteral_accounts unsigned).bind fun value _ sound known => ?_)
  refine (lawful (.operatorChain value .sum) _ sound known).keep rfl rfl
    fun right _ sound second => ?_
  refine .bind (joined_accounts sound ?_ ?_ first second) fun _ _ sound known =>
    .pure sound (by simpa using known)
  · exact line
  · exact quotes_of_oneLine (by simp)

/-- The arguments of a call are drawn from the rule. -/
theorem callArguments_accounts (lawful : Lawful source declared grammar other)
    (sound : Sound source declared state) :
    Accounts source declared (callArguments grammar) (callArguments other) state
      fun given _ => AllWords source given := by
  unfold callArguments
  refine .advance_bind ((lawful (.expression .lowest) _ sound.advance trivial).bind
    fun argument _ sound known => ?_)
  simp only [Accounts.isAhead_bind]
  refine .ite (fun _ => .advance_bind ?_) fun _ => .pure sound ?_
  · refine (lawful .callArguments _ sound.advance trivial).bind fun later _ sound rest => ?_
    exact .pure sound (AllWords.collect rest known)
  · simpa using AllWords.collect allWords_nil known

/-- A call is drawn from the rule with its function and its arguments. -/
theorem callExpression_accounts {function : Expression}
    (lawful : Lawful source declared grammar other) (sound : Sound source declared state)
    (named : function.WordFrom source) :
    Accounts source declared (callExpression grammar function) (callExpression other function)
      state fun value _ => value.WordFrom source := by
  have line := sound.line
  unfold callExpression
  simp only [Accounts.current_bind]
  refine Accounts.bind (.within sound fun sound => ?_)
    fun given _ sound (known : AllWords source given) => .pure sound (.of_node ?_ ?_ rfl)
  · simp only [Accounts.isAhead_bind]
    refine .ite (fun _ => .advance_bind (.pure sound.advance allWords_nil)) fun _ => ?_
    refine (lawful .callArguments _ sound trivial).bind fun given _ sound known => ?_
    simp only [Accounts.isAhead_bind]
    refine .ite (fun _ => .advance_bind (.pure sound.advance known)) fun _ => ?_
    exact (Accounts.report sound line (.silent rfl) (by simp)).bind
      fun _ _ sound _ => .pure sound known
  · simpa [Expression.tokens] using ⟨line, named.lines, known.drawn.onLines⟩
  · simpa [Expression.texts] using ⟨named.texts, known.drawn.keepsLines⟩

/-- An operator that was applied is drawn from the rule with both operands. -/
theorem applied_accounts {left : Expression} (lawful : Lawful source declared grammar other)
    (sound : Sound source declared state) (first : left.WordFrom source) :
    Accounts source declared (applied grammar left) (applied other left) state
      fun result _ => ∀ value ∈ result, value.WordFrom source := by
  have line := sound.line
  have literal := sound.literal
  unfold applied
  simp only [Accounts.current_bind]
  refine .ite (fun _ => ?_) fun _ =>
    operandMissing_keep_accounts sound literal fun _ sound => .advance_bind ?_
  · exact (callExpression_accounts lawful sound first).bind fun _ _ sound known =>
      .pure sound (by simpa using known)
  · refine (lawful (.expression _) _ sound.advance trivial).keep rfl rfl
      fun right _ sound second => ?_
    exact (joined_accounts sound line literal first second).bind fun _ _ sound known =>
      .pure sound (by simpa using known)

/-- The loop over the operators keeps its left operand drawn from the rule. -/
theorem operatorChain_accounts {left : Expression} {precedence : Precedence}
    (lawful : Lawful source declared grammar other) (sound : Sound source declared state)
    (first : left.WordFrom source) :
    Accounts source declared (operatorChain grammar left precedence)
      (operatorChain other left precedence) state
      fun result _ => ∀ value ∈ result, value.WordFrom source := by
  unfold operatorChain
  simp only [Accounts.get_bind]
  refine .ite (fun _ => .pure sound (by simpa using first)) fun _ =>
    .ite (fun _ => .pure sound (by simpa using first)) fun _ => .advance_bind ?_
  refine .ite (fun negative => ?_) fun _ => ?_
  · obtain ⟨number, digits⟩ := sound.coherent.digits_ahead negative
    exact (splitSubtraction_accounts lawful sound.advance first number digits).keep rfl rfl
      fun next _ sound known => lawful (.operatorChain next precedence) _ sound known
  · exact (applied_accounts lawful sound.advance first).keep rfl rfl
      fun next _ sound known => lawful (.operatorChain next precedence) _ sound known

/-- Words behind an expression make it the name of a command. -/
theorem commandOrExpression_accounts (lawful : Lawful source declared grammar other)
    (sound : Sound source declared state) :
    Accounts source declared (commandOrExpression grammar) (commandOrExpression other) state
      fun result _ => ∀ value ∈ result, value.WordFrom source := by
  unfold commandOrExpression
  simp only [Accounts.get_bind]
  refine .ite (fun _ => command_accounts lawful sound) fun _ => ?_
  refine (lawful (.expression .lowest) _ sound trivial).keep rfl rfl fun name _ sound known => ?_
  simp only [Accounts.endsCommand_bind]
  refine .ite (fun _ => .pure sound (by simpa using known)) fun _ => ?_
  refine (lawful .arguments _ sound trivial).bind fun given _ sound words => .pure sound ?_
  rintro _ ⟨⟩
  refine .of_node ?_ ?_ rfl
  · simpa [Expression.tokens] using ⟨known.line, known.lines, words.drawn.onLines⟩
  · simpa [Expression.texts] using ⟨known.texts, words.drawn.keepsLines⟩

/-! ## `switch` -/

/-- An option of a `switch` that is not known is quoted. -/
theorem switchOptions_accounts {options : SwitchOptions}
    (lawful : Lawful source declared grammar other) (sound : Sound source declared state) :
    Accounts source declared (switchOptions grammar options) (switchOptions other options) state
      fun _ _ => True := by
  unfold switchOptions
  simp only [Accounts.get_bind]
  refine .ite (fun _ => .advance_bind ?_) fun _ => .pure sound trivial
  refine (rawWordText_accounts lawful sound.advance).bind fun option _ sound quotes => ?_
  refine .ite (fun _ => .pure sound trivial) fun _ => ?_
  split
  · exact lawful (.switchOptions _) _ sound trivial
  · refine (Accounts.reportHere sound ?_ (by simp)).bind fun _ _ sound _ =>
      lawful (.switchOptions options) _ sound trivial
    exact .one rfl quotes

/-- A pattern keeps its token, whichever kind of pattern it becomes. -/
theorem patternOf_token (options : SwitchOptions) (token : Token) (text : String) (braced : Bool) :
    (patternOf options token text braced).token = token := by
  unfold patternOf
  split_ifs <;> rfl

/-- A pattern has a line of the rule. -/
theorem casePattern_accounts {options : SwitchOptions}
    (lawful : Lawful source declared grammar other) (sound : Sound source declared state) :
    Accounts source declared (casePattern grammar options) (casePattern other options) state
      fun result _ => ∀ pattern ∈ result, HasLine source pattern.token.line := by
  have line := sound.line
  have kept (text : String) (braced : Bool) :
      ∀ pattern ∈ some (patternOf options state.current text braced),
        HasLine source pattern.token.line := by
    rintro _ ⟨⟩
    rwa [patternOf_token]
  unfold casePattern
  simp only [Accounts.current_bind]
  split
  case h_1 =>
    refine (captureBrace_accounts lawful sound).bind fun body _ sound _ => ?_
    cases body with
    | none => exact .pure sound (by simp)
    | some body => exact .pure sound (kept _ true)
  case h_2 => exact .pure sound (kept _ false)
  case h_3 illegal => exact .reportIllegal sound illegal
  case h_4 =>
    refine .ite (fun _ => ?_) fun _ => ?_
    · exact .giveUp (.reportHere sound (.one rfl sound.description) (by simp))
    · exact (rawWordText_accounts lawful sound).bind fun _ _ sound _ => .pure sound (kept _ false)

/-- So have the patterns that are joined to it. -/
theorem fallThrough_accounts {options : SwitchOptions}
    (lawful : Lawful source declared grammar other) (sound : Sound source declared state) :
    Accounts source declared (fallThrough grammar options) (fallThrough other options) state
      fun result _ => ∀ patterns ∈ result, OnLines source (patterns.map Pattern.token) := by
  unfold fallThrough
  simp only [Accounts.get_bind]
  refine .ite (fun _ => .advance_bind ?_) fun _ => .pure sound (by simp)
  have sound := sound.advance
  simp only [Accounts.isAhead_bind]
  refine .ite (fun _ => .giveUp (.reportHere sound (.silent rfl) (by simp))) fun _ =>
    .advance_bind ?_
  refine (casePattern_accounts lawful sound.advance).keep rfl rfl fun pattern _ sound first => ?_
  refine (lawful (.fallThrough options) _ sound trivial).keep rfl rfl fun later _ sound rest => ?_
  exact .pure sound (by simpa using ⟨first, rest⟩)

/-- All patterns of an arm have lines of the rule. -/
theorem casePatterns_accounts {options : SwitchOptions}
    (lawful : Lawful source declared grammar other) (sound : Sound source declared state) :
    Accounts source declared (casePatterns grammar options) (casePatterns other options) state
      fun result _ => ∀ patterns ∈ result, ∀ pattern ∈ patterns,
        OnLines source (CasePattern.tokens pattern) := by
  have line := sound.line
  unfold casePatterns
  simp only [Accounts.current_bind]
  refine .ite (fun _ => .pure sound (by simp)) fun _ => ?_
  refine (casePattern_accounts lawful sound).keep rfl rfl fun pattern _ sound first => ?_
  refine (lawful (.fallThrough options) _ sound trivial).keep rfl rfl fun later _ sound rest => ?_
  refine .ite (fun _ => .pure sound ?_) fun _ => .pure sound ?_
  · simpa [CasePattern.tokens] using first
  · simpa [CasePattern.tokens] using ⟨line, first, rest⟩

/-- An arm has lines of the rule with its patterns and its block. -/
theorem caseArm_accounts {options : SwitchOptions} (lawful : Lawful source declared grammar other)
    (sound : Sound source declared state) :
    Accounts source declared (caseArm grammar options) (caseArm other options) state
      fun result _ => ∀ arm ∈ result, OnLines source (caseTokens [arm]) := by
  have line := sound.line
  unfold caseArm
  simp only [Accounts.current_bind]
  refine (casePatterns_accounts lawful sound).keep rfl rfl fun pattern _ sound known => ?_
  refine (expectBlock_accounts lawful sound).keep rfl rfl fun body _ sound inner => ?_
  refine .pure sound ?_
  rintro _ ⟨⟩
  cases pattern with
  | none => simpa [caseTokens] using ⟨line, inner⟩
  | some pattern => simpa [caseTokens] using ⟨line, known pattern rfl, inner⟩

/-- A missing brace is reported where the arms start. -/
theorem cases_accounts {options : SwitchOptions} {line : Nat}
    (lawful : Lawful source declared grammar other) (sound : Sound source declared state)
    (real : HasLine source line) :
    Accounts source declared (cases grammar options line) (cases other options line) state
      fun arms _ => OnLines source (caseTokens arms) := by
  unfold cases
  simp only [Accounts.lookahead_bind]
  split
  case h_1 => exact .advance_bind (.pure sound.advance (by simp [caseTokens]))
  case h_2 =>
    exact (Accounts.report sound real (.silent rfl) (by simp)).bind
      fun _ _ sound _ => .pure sound (by simp [caseTokens])
  case h_3 =>
    refine .advance_bind ((caseArm_accounts lawful sound.advance).bind fun arm _ sound known => ?_)
    refine .check sound (fun _ => lawful .skipCaseLine _ sound trivial) fun _ sound => ?_
    refine (lawful (.cases options line) _ sound real).bind fun later _ sound rest => ?_
    refine .pure sound ?_
    cases arm with
    | none => exact rest
    | some arm => exact onLines_caseTokens_append.2 ⟨known arm rfl, rest⟩

/-- A `switch` has lines of the rule with its value and its arms. -/
theorem switchStatement_accounts (lawful : Lawful source declared grammar other)
    (sound : Sound source declared state) :
    Accounts source declared (switchStatement grammar) (switchStatement other) state
      fun result _ => ∀ statement ∈ result, OnLines source statement.tokens := by
  have line := sound.line
  unfold switchStatement
  simp only [Accounts.current_bind]
  refine (lawful (.switchOptions {}) _ sound trivial).bind fun options _ sound _ => ?_
  simp only [Accounts.endsCommand_bind]
  refine .ite (fun _ => ?_) fun _ => .advance_bind ?_
  · exact .giveUp (.reportAhead sound (.one rfl sound.descriptionAhead) (by simp))
  refine (lawful (.word .word) _ sound.advance trivial).keep rfl rfl fun value _ sound known => ?_
  simp only [Accounts.isAhead_bind]
  refine .ite (fun _ => .advance_bind ?_) fun _ => ?_
  · have sound := sound.advance
    simp only [Accounts.current_bind]
    refine (Accounts.within sound fun inner => lawful (.cases options _) _ inner sound.line).bind
      fun arms _ sound arms => .pure sound ?_
    rintro _ ⟨⟩
    simpa [Statement.tokens] using ⟨line, known.lines, arms⟩
  · exact .giveUp (.reportAhead sound (.one rfl sound.descriptionAhead) (by simp))

/-! ## Statements -/

/-- A `set` has lines of the rule with its target and its value. -/
theorem setStatement_accounts (lawful : Lawful source declared grammar other)
    (sound : Sound source declared state) :
    Accounts source declared (setStatement grammar) (setStatement other) state
      fun result _ => ∀ statement ∈ result, OnLines source statement.tokens := by
  have line := sound.line
  unfold setStatement
  simp only [Accounts.current_bind]
  refine (setParts_accounts lawful sound).keep rfl rfl fun parts _ sound known => ?_
  obtain ⟨name, value⟩ := parts
  refine .pure sound ?_
  rintro _ ⟨⟩
  simpa [Statement.tokens] using ⟨line, known.1.lines, known.2.lines⟩

theorem returnStatement_accounts (lawful : Lawful source declared grammar other)
    (sound : Sound source declared state) :
    Accounts source declared (returnStatement grammar) (returnStatement other) state
      fun result _ => ∀ statement ∈ result, OnLines source statement.tokens := by
  have line := sound.line
  unfold returnStatement
  simp only [Accounts.current_bind, Accounts.endsCommand_bind]
  refine .ite (fun _ => .pure sound (by simpa [Statement.tokens] using line)) fun _ =>
    .advance_bind ?_
  refine (lawful (.word .word) _ sound.advance trivial).keep rfl rfl fun value _ sound known => ?_
  refine .pure sound ?_
  rintro _ ⟨⟩
  simpa [Statement.tokens] using ⟨line, known.lines⟩

/-- What stands behind a condition is passed over, and reported before. -/
theorem bracedCondition_accounts (lawful : Lawful source declared grammar other)
    (sound : Sound source declared state) :
    Accounts source declared (bracedCondition grammar) (bracedCondition other) state
      fun result _ => ∀ value ∈ result, value.WordFrom source := by
  have line := sound.line
  unfold bracedCondition
  simp only [Accounts.current_bind, Accounts.isAhead_bind]
  refine .ite (fun _ => ?_) fun _ => ?_
  · exact (Accounts.reportHere sound (.silent rfl) (by simp)).bind
      fun _ _ sound _ => .advance_bind (.pure sound.advance (by simp))
  refine Accounts.bind (.within sound fun sound => ?_) fun condition _ sound
    (known : ∀ value ∈ condition, value.WordFrom source) => ?_
  · refine .advance_bind ((lawful (.expression .lowest) _ sound.advance trivial).bind
      fun condition _ sound known => ?_)
    simp only [Accounts.isAhead_bind]
    refine .ite (fun _ => .pure sound known) fun _ => ?_
    refine (Accounts.reportAhead sound ?_ (by simp)).bind fun _ _ sound _ => ?_
    · exact .one rfl sound.descriptionAhead
    · exact (lawful .skipToCloseBrace _ sound trivial).bind fun _ _ sound _ => .pure sound known
  · simp only [Accounts.isAhead_bind]
    refine .ite (fun _ => .advance_bind (.pure sound.advance known)) fun _ => ?_
    exact (Accounts.report sound line (.silent rfl) (by simp)).bind
      fun _ _ sound _ => .pure sound (by simp)

/-- A condition is drawn from the rule, in braces or as a word. -/
theorem condition_accounts (lawful : Lawful source declared grammar other)
    (sound : Sound source declared state) :
    Accounts source declared (condition grammar) (condition other) state
      fun result _ => ∀ value ∈ result, value.WordFrom source := by
  unfold condition
  simp only [Accounts.endsCommand_bind]
  refine .ite (fun _ => ?_) fun _ => .advance_bind ?_
  · exact .giveUp (.reportAhead sound (.one rfl sound.descriptionAhead) (by simp))
  simp only [Accounts.current_bind]
  exact .ite (fun _ => bracedCondition_accounts lawful sound.advance)
    fun _ => lawful (.word .word) _ sound.advance trivial

theorem alternative_accounts (lawful : Lawful source declared grammar other)
    (sound : Sound source declared state) :
    Accounts source declared (alternative grammar) (alternative other) state
      fun result _ => ∀ statement ∈ result, OnLines source statement.tokens := by
  unfold alternative
  simp only [Accounts.lookahead_bind]
  split
  case h_1 => exact .advance_bind (lawful .conditional _ sound.advance trivial)
  case h_2 =>
    have sound := sound.advance
    refine .advance_bind ?_
    simp only [Accounts.isAhead_bind]
    refine .ite (fun _ => .advance_bind (lawful .conditional _ sound.advance trivial)) fun _ => ?_
    exact .mapped (expectBlock_accounts lawful sound) fun body _ _ known => by
      simpa [Statement.tokens] using known
  case h_3 => exact .pure sound (by simp)

/-- A conditional has lines of the rule, the alternative with it. -/
theorem conditional_accounts (lawful : Lawful source declared grammar other)
    (sound : Sound source declared state) :
    Accounts source declared (conditional grammar) (conditional other) state
      fun result _ => ∀ statement ∈ result, OnLines source statement.tokens := by
  have line := sound.line
  unfold conditional
  simp only [Accounts.current_bind]
  refine (condition_accounts lawful sound).keep rfl rfl fun tested _ sound known => ?_
  simp only [Accounts.lookahead_bind]
  refine .check sound (fun _ => .advance sound) fun _ sound => ?_
  refine (expectBlock_accounts lawful sound).keep rfl rfl fun consequence _ sound body => ?_
  refine (alternative_accounts lawful sound).bind fun otherwise _ sound other => .pure sound ?_
  rintro _ ⟨⟩
  exact onLines_conditional.2 ⟨line, known.lines, body, other⟩

/-- The words of a text take one line each. -/
theorem wordsFrom_oneLine {run text word : List Char} (oneLine : '\n' ∉ run)
    (mem : word ∈ Text.wordsFrom run text) : '\n' ∉ word := by
  fun_induction Text.wordsFrom run text with
  | case1 => simp at mem
  | case2 run => simpa [List.mem_singleton.1 mem] using oneLine
  | case3 run char rest _ _ ih => exact ih (by simp) mem
  | case4 run char rest _ _ ih =>
    rcases List.mem_cons.1 mem with rfl | later
    · simpa using oneLine
    · exact ih (by simp) later
  | case5 run char rest visible ih =>
    have shown : '\n' ≠ char := by
      rintro rfl
      exact visible (by decide)
    exact ih (by simpa using ⟨shown, oneLine⟩) mem

/-- Words are parted at line feeds. -/
theorem words_oneLine {text word : List Char} (mem : word ∈ Text.words text) : '\n' ∉ word :=
  wordsFrom_oneLine (by simp) mem

/-- The variables of a loop stand on one line, and a wrong one is quoted. -/
theorem loopVariables_accounts {line : Nat} {names : List (List Char)}
    (sound : Sound source declared state) (real : HasLine source line)
    (oneLine : ∀ name ∈ names, '\n' ∉ name) :
    Accounts source declared (loopVariables line names) (loopVariables line names) state
      fun targets _ => AllWords source targets := by
  induction names generalizing state with
  | nil => exact .pure sound allWords_nil
  | cons name later ih =>
    obtain ⟨here, rest⟩ := List.forall_mem_cons.1 oneLine
    refine .bind (declaredTarget_accounts sound ?_ ?_) fun target _ sound first => ?_
    · exact real
    · exact quotes_of_oneLine (by simpa using here)
    · exact (ih sound rest).bind fun targets _ sound known =>
        .pure sound (List.forall_mem_cons.2 ⟨first, known⟩)

/-- The target of a `foreach` is drawn from the rule, as a list or as a word. -/
theorem loopTargets_accounts (lawful : Lawful source declared grammar other)
    (sound : Sound source declared state) :
    Accounts source declared (loopTargets grammar) (loopTargets other) state
      fun result _ => ∀ target ∈ result, target.WordFrom source := by
  have line := sound.line
  unfold loopTargets
  simp only [Accounts.current_bind]
  split
  case h_1 =>
    refine (captureBrace_accounts lawful sound).keep rfl rfl fun body _ sound _ => ?_
    refine (loopVariables_accounts sound line fun _ => words_oneLine).bind
      fun targets _ sound known => .pure sound ?_
    rintro _ ⟨⟩
    refine .of_node ?_ ?_ rfl
    · simpa [Expression.tokens] using ⟨line, known.drawn.onLines⟩
    · simpa [Expression.texts] using known.drawn.keepsLines
  case h_2 | h_3 => exact lawful (.word .word) state sound trivial
  case h_4 =>
    refine (rawWordText_accounts lawful sound).bind fun text _ sound quotes => ?_
    exact (declaredTarget_accounts sound line quotes).bind fun target _ sound known =>
      .pure sound (by simpa using known)

/-- A `foreach` has lines of the rule with its target, its list and its block. -/
theorem foreachStatement_accounts (lawful : Lawful source declared grammar other)
    (sound : Sound source declared state) :
    Accounts source declared (foreachStatement grammar) (foreachStatement other) state
      fun result _ => ∀ statement ∈ result, OnLines source statement.tokens := by
  have line := sound.line
  unfold foreachStatement
  simp only [Accounts.current_bind, Accounts.endsCommand_bind]
  refine .ite (fun _ => ?_) fun _ => .advance_bind ?_
  · exact .giveUp (.reportAhead sound (.one rfl sound.descriptionAhead) (by simp))
  refine (loopTargets_accounts lawful sound.advance).keep rfl rfl fun targets _ sound target => ?_
  simp only [Accounts.endsCommand_bind]
  refine .ite (fun _ => ?_) fun _ => .advance_bind ?_
  · exact .giveUp (.reportAhead sound (.one rfl sound.descriptionAhead) (by simp))
  refine (lawful (.word .word) _ sound.advance trivial).keep rfl rfl fun items _ sound known => ?_
  refine (expectBlock_accounts lawful sound).keep rfl rfl fun body _ sound inside => ?_
  refine .pure sound ?_
  rintro _ ⟨⟩
  simpa [Statement.tokens] using ⟨line, target.lines, known.lines, inside⟩

/-- A named rule has lines of the rule with its block. -/
theorem ruleStatement_accounts (lawful : Lawful source declared grammar other)
    (sound : Sound source declared state) :
    Accounts source declared (ruleStatement grammar) (ruleStatement other) state
      fun result _ => ∀ statement ∈ result, OnLines source statement.tokens := by
  have line := sound.line
  unfold ruleStatement
  simp only [Accounts.current_bind]
  refine .advance_bind ?_
  have sound := sound.advance
  simp only [Accounts.endsCommand_bind, Accounts.isAhead_bind]
  refine .ite (fun _ => ?_) fun _ => .advance_bind ?_
  · exact .giveUp (.reportAhead sound (.one rfl sound.descriptionAhead) (by simp))
  have sound := sound.advance
  have name := sound.line
  simp only [Accounts.current_bind]
  refine (rawWordText_accounts lawful sound).bind fun _ _ sound _ => ?_
  refine (expectBlock_accounts lawful sound).keep rfl rfl fun body _ sound known => ?_
  refine .pure sound ?_
  rintro _ ⟨⟩
  simpa [Statement.tokens, bareWord, Expression.tokens] using ⟨line, name, known⟩

theorem expressionStatement_accounts (lawful : Lawful source declared grammar other)
    (sound : Sound source declared state) :
    Accounts source declared (expressionStatement grammar) (expressionStatement other) state
      fun result _ => ∀ statement ∈ result, OnLines source statement.tokens := by
  have line := sound.line
  unfold expressionStatement
  simp only [Accounts.current_bind]
  refine .mapped (lawful .commandOrExpression _ sound trivial)
    fun value _ _ (known : value.WordFrom source) => ?_
  simpa [Statement.tokens] using ⟨line, known.lines⟩

/-- The first token of a statement is reported where no statement starts with it. -/
theorem statementBody_accounts (lawful : Lawful source declared grammar other)
    (sound : Sound source declared state) :
    Accounts source declared (statementBody grammar) (statementBody other) state
      fun result _ => ∀ statement ∈ result, OnLines source statement.tokens := by
  have stray : Accounts source declared
      (reportHere (.unexpected state.current.description) >>= fun _ => pure none)
      (reportHere (.unexpected state.current.description) >>= fun _ => pure none) state
      fun (result : Option Statement) _ =>
        ∀ statement ∈ result, OnLines source statement.tokens := by
    exact .giveUp (.reportHere sound (.one rfl sound.description) (by simp))
  unfold statementBody
  simp only [Accounts.current_bind]
  split
  case h_1 illegal => exact .reportIllegal sound illegal
  case h_2 | h_3 => exact stray
  case h_4 => exact setStatement_accounts lawful sound
  case h_5 => exact returnStatement_accounts lawful sound
  case h_6 => exact lawful .conditional _ sound trivial
  case h_7 => exact switchStatement_accounts lawful sound
  case h_8 => exact foreachStatement_accounts lawful sound
  case h_9 =>
    refine (block_accounts lawful sound).bind fun body _ sound known => .pure sound ?_
    rintro _ ⟨⟩
    simpa [Statement.tokens] using known
  case h_10 =>
    simp only [Accounts.isAhead_bind]
    exact .ite (fun _ => ruleStatement_accounts lawful sound)
      fun _ => expressionStatement_accounts lawful sound

/-- Words behind a statement are passed over. -/
theorem statement_accounts (lawful : Lawful source declared grammar other)
    (sound : Sound source declared state) :
    Accounts source declared (statement grammar) (statement other) state
      fun result _ => ∀ statement ∈ result, OnLines source statement.tokens := by
  unfold statement
  simp only [Accounts.current_bind]
  refine .ite (fun _ => .pure sound (by simp)) fun _ => ?_
  refine (statementBody_accounts lawful sound).bind fun result _ sound known => ?_
  exact (finishCommand_accounts lawful sound).bind fun _ _ sound _ => .pure sound known

/-- The statements of a rule have lines of the rule. -/
theorem script_accounts (lawful : Lawful source declared grammar other)
    (sound : Sound source declared state) :
    Accounts source declared (script grammar) (script other) state
      fun statements _ => OnLines source (statementTokens statements) := by
  unfold script
  simp only [Accounts.current_bind]
  refine .ite (fun _ => .pure sound onLines_nil) fun _ => ?_
  refine (lawful .statement _ sound trivial).bind fun next _ sound known => .advance_bind ?_
  refine (lawful .script _ sound.advance trivial).bind fun later _ sound rest => ?_
  exact .pure sound (onLines_collect known rest)

/-! ## The grammar -/

/-- Every rule accounts for its result over productions that do. -/
theorem rules_accounts (lawful : Lawful source declared grammar other)
    (sound : Sound source declared state) {production : Production}
    (admitted : production.Admits source) :
    Accounts source declared (rules grammar production) (rules other production) state
      fun result _ => production.Drawn source result := by
  cases production with
  | script => exact script_accounts lawful sound
  | statement => exact statement_accounts lawful sound
  | conditional => exact conditional_accounts lawful sound
  | blockBody => exact blockBody_accounts lawful sound admitted
  | drain => exact drain_accounts lawful sound
  | skipCommand => exact skipCommand_accounts lawful sound
  | skipToCloseBrace => exact skipToCloseBrace_accounts lawful sound
  | rawWord => exact rawWord_accounts lawful sound
  | switchOptions => exact switchOptions_accounts lawful sound
  | cases => exact cases_accounts lawful sound admitted
  | fallThrough => exact fallThrough_accounts lawful sound
  | skipCaseLine => exact skipCaseLine_accounts lawful sound
  | commandOrExpression => exact commandOrExpression_accounts lawful sound
  | expression => exact expression_accounts lawful sound
  | operatorChain => exact operatorChain_accounts lawful sound admitted
  | callArguments => exact callArguments_accounts lawful sound
  | arguments => exact arguments_accounts lawful sound
  | classOptions => exact classOptions_accounts lawful sound
  | regsubFlags => exact regsubFlags_accounts lawful sound
  | regsubArguments => exact regsubArguments_accounts lawful sound
  | word => exact word_accounts lawful sound
  | pieces => exact pieces_accounts lawful sound
  | bracketCommands => exact bracketCommands_accounts lawful sound admitted
  | listElements => exact listElements_accounts lawful sound
  | hashPairs => exact hashPairs_accounts lawful sound
  | substitutionCommands => exact substitutionCommands_accounts lawful sound

end IRule.Parser
