import IRule.Proofs.Parser.Vouching.Command

/-!
# Calls and flags in expressions

The loop that folds operators applies a parenthesis to all that it has folded so far. An
operand that an operator weaker than a call has taken is not among that, for the operator
took the calls glued to its operand as well. Operands are read where the expression starts,
so a command among them starts in a sound state when the expression does.
-/

namespace IRule.Parser

variable {transcript : Transcript} {grammar : Grammar} {state : State}

/-! ## Operands -/

/-- An operation is made of two operands, and what is ahead stays ahead. -/
theorem joined_vouches {token : Token} {left right : Expression} :
    Vouches transcript (joined token left right) state fun value last =>
      value = .binary token left token.literal right ∧ last.lookahead = state.lookahead := by
  unfold joined
  refine .ite (fun _ => .pure ⟨rfl, rfl⟩) fun _ => .bind .reported fun _ _ => .pure ?_
  rintro ⟨-, rfl⟩
  exact ⟨rfl, rfl⟩

/-- A sign takes the calls that are glued to its operand. -/
theorem unaryExpression_vouches (vouching : Vouching transcript grammar) :
    Vouches transcript (unaryExpression grammar) state fun result last =>
      ∀ value ∈ result, AllVouched transcript value.nodes ∧ ¬last.parenGlued := by
  unfold unaryExpression
  simp only [Vouches.current_bind]
  refine .after operandMissing_grows.vouches fun _ _ => .ite (fun _ => .pure (by simp)) fun _ => ?_
  simp only [Vouches.advance_bind]
  exact .mapped (vouching.vouches (.expression .unary) _) fun operand last known =>
    ⟨by simpa using known.nodes, known.not_parenGlued (by decide)⟩

/-- Parentheses make a word of an operation. -/
theorem groupedExpression_vouches (vouching : Vouching transcript grammar) :
    Vouches transcript (groupedExpression grammar) state
      fun result _ => ∀ value ∈ result, WordVouched transcript state.current value := by
  unfold groupedExpression
  simp only [Vouches.current_bind, Vouches.isAhead_bind]
  refine .ite (fun _ => .after .reportedHere fun _ _ => ?_) fun _ => ?_
  · simp only [Vouches.advance_bind]
    exact .pure (by simp)
  have read : Vouches transcript (advance >>= fun _ => grammar.expression .lowest)
      (state.enter .expression)
      fun result _ => ∀ value ∈ result, AllVouched transcript value.nodes :=
    Vouches.advance_bind.2 vouching.closed
  refine (Vouches.within read).bind fun inner _ => ?_
  have group (token : Token) (last : State) :
      Vouches transcript (pure (inner.map fun inner => Expression.group token inner)) last
        fun result _ => (∀ value ∈ inner, AllVouched transcript value.nodes) →
          ∀ value ∈ result, WordVouched transcript token value := by
    refine .pure fun known => ?_
    simp only [Option.mem_def, Option.map_eq_some_iff]
    rintro _ ⟨inner, found, rfl⟩
    exact ⟨by simpa using known inner found, rfl, rfl⟩
  simp only [Vouches.isAhead_bind]
  refine .ite (fun _ => ?_) fun _ => .after .reported fun _ _ => group _ _
  simp only [Vouches.advance_bind]
  exact group _ _

/-- A bare word as an operand is a word, reported or not. -/
theorem operandWord_vouches {token : Token} :
    Vouches transcript (operandWord token) state
      fun value _ => WordVouched transcript token value := by
  unfold operandWord
  simp only [Vouches.get_bind]
  exact .ite (fun _ => .pure (wordVouched_bareWord _ _)) fun _ => standaloneWord_vouches

/-- Only a sign makes an operation of an operand, and then no parenthesis is glued to it. -/
theorem operand_vouches (vouching : Vouching transcript grammar)
    (sound : Sound transcript.source transcript.declared state) :
    Vouches transcript (operand grammar) state fun result last => ∀ value ∈ result,
      AllVouched transcript value.nodes ∧
        (last.parenGlued → WordVouched transcript state.current value) := by
  have word {action : Parse (Option Expression)}
      (vouches : Vouches transcript action state
        fun result _ => ∀ value ∈ result, WordVouched transcript state.current value) :
      Vouches transcript action state fun result last => ∀ value ∈ result,
        AllVouched transcript value.nodes ∧
          (last.parenGlued → WordVouched transcript state.current value) :=
    vouches.mono fun _ _ known value found =>
      ⟨(known value found).nodes, fun _ => known value found⟩
  have leaf {value : Expression} (known : WordVouched transcript state.current value) :
      Vouches transcript (pure (some value)) state
        fun result _ => ∀ value ∈ result, WordVouched transcript state.current value :=
    .pure (by simpa using known)
  unfold operand
  simp only [Vouches.current_bind]
  split
  case h_1 | h_2 | h_3 | h_4 => exact word (piece_vouches vouching)
  case h_5 | h_6 | h_7 => exact word (vouching.vouches (.word .operand) state)
  case h_8 => exact word (groupedExpression_vouches vouching)
  case h_9 => exact word (bracedWord_vouches vouching)
  case h_10 | h_11 | h_12 =>
    exact (unaryExpression_vouches vouching).mono fun _ _ known value found =>
      ⟨(known value found).1, fun glued => absurd glued (known value found).2⟩
  case h_13 => exact word (handler_vouches vouching)
  case h_14 | h_15 => exact word (command_vouches vouching sound)
  case h_16 => exact word (leaf ⟨by simp, rfl, rfl⟩)
  case h_17 | h_18 => exact word (leaf (wordVouched_bareWord _ _))
  case h_19 => exact word (leaf ⟨by simp, rfl, rfl⟩)
  case h_20 => exact word (.grows reportIllegal_grows)
  case h_21 =>
    exact word (.ite (fun _ => .kept operandWord_vouches) fun _ => .giveUp .reportedHere)

/-- The operand that was read is what a parenthesis behind it can be glued to. -/
theorem operand_leftOperand (vouching : Vouching transcript grammar)
    (sound : Sound transcript.source transcript.declared state) :
    Vouches transcript (operand grammar) state
      fun result last => ∀ value ∈ result, LeftOperand transcript value last := by
  intro result last runs within
  obtain ⟨before, known⟩ := operand_vouches vouching sound result last runs within
  refine ⟨before, ?_⟩
  rintro value ⟨⟩
  obtain ⟨reads, -, drawn⟩ := operand_accounts vouching.lawful sound _ last runs
  obtain ⟨nodes, word⟩ := known value rfl
  refine ⟨⟨nodes, fun glued => ?_⟩, drawn value rfl⟩
  exact .operand sound.visited reads (word glued).starts (word glued).single

/-- A number is an operand. -/
theorem numberLiteral_leftOperand (sound : Sound transcript.source transcript.declared state)
    (number : state.current.kind = .number) :
    Vouches transcript numberLiteral state
      fun value last => LeftOperand transcript value last := by
  intro value last runs within
  obtain ⟨before, known⟩ := numberLiteral_vouches value last runs within
  obtain ⟨-, -, drawn⟩ := numberLiteral_accounts sound value last runs
  have reads : operand language state = some (some value, last) := by
    unfold operand piece
    simp only [current_bind_apply, number]
    exact bind_apply runs
  exact ⟨before, ⟨known.nodes, fun _ =>
    .operand sound.visited reads known.starts known.single⟩, drawn⟩

/-- The operand is what the loop over the operators starts with. -/
theorem expression_vouches {precedence : Precedence} (vouching : Vouching transcript grammar)
    (sound : Sound transcript.source transcript.declared state) :
    Vouches transcript (expression grammar precedence) state
      fun result last => ∀ value ∈ result, Chained transcript precedence value last := by
  unfold expression
  exact (operand_leftOperand vouching sound).keep rfl fun left middle =>
    vouching.vouches (.operatorChain left precedence) middle

/-! ## Operators -/

/-- What was folded and is accounted for is a left operand again. -/
theorem Vouches.leftOperand {action other : Parse (Option Expression)}
    (accounts : Accounts transcript.source transcript.declared action other state
      fun result _ => ∀ value ∈ result, value.WordFrom transcript.source)
    (vouches : Vouches transcript action state
      fun result last => ∀ value ∈ result, Folded transcript value last) :
    Vouches transcript action state
      fun result last => ∀ value ∈ result, LeftOperand transcript value last := by
  intro result last runs within
  obtain ⟨before, folded⟩ := vouches result last runs within
  obtain ⟨-, -, drawn⟩ := accounts result last runs
  exact ⟨before, fun value found => ⟨folded value found, drawn value found⟩⟩

/-- Whether a parenthesis is glued depends on the token ahead only. -/
theorem parenGlued_congr {last : State} (same : last.lookahead = state.lookahead) :
    last.parenGlued = state.parenGlued := by
  rw [State.parenGlued, State.parenGlued, same]

/-- Behind a difference no parenthesis is glued, for its right operand took the call. -/
theorem splitSubtraction_vouches {left : Expression} (vouching : Vouching transcript grammar)
    (sound : Sound transcript.source transcript.declared state)
    (nodes : AllVouched transcript left.nodes) (number : state.current.kind = .number)
    (digits : state.current.span.start + 1 < state.lexer.before.offset) :
    Vouches transcript (splitSubtraction grammar left) state
      fun result last => ∀ value ∈ result, Folded transcript value last := by
  have unsigned := sound.step (.unsign number digits) rfl
  unfold splitSubtraction
  simp only [Vouches.current_bind]
  refine .modify_bind (List.Subset.refl _) ?_
  refine (numberLiteral_leftOperand unsigned rfl).bind fun first middle => ?_
  refine (vouching.vouches (.operatorChain first .sum) middle).bind fun right turned => ?_
  cases right with
  | none => exact .pure (by simp)
  | some right =>
    refine joined_vouches.bind fun value last => .pure ?_
    rintro ⟨rfl, same⟩ known operand _ ⟨⟩
    have chained := known operand right rfl
    refine ⟨by simpa using ⟨nodes, chained.nodes⟩, fun glued => ?_⟩
    rw [parenGlued_congr same] at glued
    exact absurd glued (chained.not_parenGlued (by decide))

/-- The arguments of a call are closed expressions. -/
theorem callArguments_vouches (vouching : Vouching transcript grammar) :
    Vouches transcript (callArguments grammar) state
      fun given _ => AllVouched transcript (nodesOf given) := by
  unfold callArguments
  simp only [Vouches.advance_bind]
  refine vouching.closed.bind fun argument _ => ?_
  simp only [Vouches.isAhead_bind]
  refine .ite (fun _ => ?_) fun _ => .pure fun known => ?_
  · simp only [Vouches.advance_bind]
    exact (vouching.vouches .callArguments _).bind
      fun later _ => .pure fun rest first => rest.collect first
  · exact allVouched_nodesOf.2 (by simpa using known)

/-- A call has the nodes of its function and of its arguments, and its own place. -/
theorem callExpression_vouches {function : Expression} (vouching : Vouching transcript grammar)
    (site : Glued transcript.source transcript.declared ⟨state.current, function⟩)
    (nodes : AllVouched transcript function.nodes) :
    Vouches transcript (callExpression grammar function) state
      fun value _ => AllVouched transcript value.nodes := by
  unfold callExpression
  simp only [Vouches.current_bind]
  refine Vouches.bind (.within ?_ : Vouches transcript _ _ fun given _ =>
    AllVouched transcript (nodesOf given)) fun given _ => .pure fun known => ?_
  · simp only [Vouches.isAhead_bind]
    refine .ite (fun _ => ?_) fun _ => ?_
    · simp only [Vouches.advance_bind]
      exact .pure (by simp)
    refine (vouching.vouches .callArguments _).bind fun given _ => ?_
    simp only [Vouches.isAhead_bind]
    refine .ite (fun _ => ?_) fun _ => .after .reported fun _ _ => .pure id
    simp only [Vouches.advance_bind]
    exact .pure id
  · simpa using ⟨site, nodes, known⟩

/-- A parenthesis is an operator only where it is glued to what it is applied to. -/
theorem adjacent_of_strong {token : Token} (paren : token.kind = .openParen)
    (strong : Precedence.lowest.rank < (Precedence.ofToken token).rank) :
    token.spacing.isAdjacent := by
  by_contra apart
  simp [Precedence.ofToken, Token.isPlus, paren, apart] at strong

/-- An operator, with the current token on it, applied to what the loop has folded. -/
theorem applied_vouches {left : Expression} (vouching : Vouching transcript grammar)
    (sound : Sound transcript.source transcript.declared state)
    (known : LeftOperand transcript left state)
    (strong : Precedence.lowest.rank < (Precedence.ofToken state.lookahead).rank) :
    Vouches transcript (applied grammar left) state.advance
      fun result last => ∀ value ∈ result, Folded transcript value last := by
  unfold applied
  simp only [Vouches.current_bind]
  refine .ite (fun paren => ?_) fun notParen => ?_
  · have paren : state.lookahead.kind = .openParen := beq_iff_eq.1 paren
    have adjacent := adjacent_of_strong paren strong
    have callee := known.callee (State.parenGlued_iff.2 ⟨paren, adjacent⟩)
    have meets := Visited.stop_eq_of_adjacent sound.visited adjacent
    have site : Glued transcript.source transcript.declared ⟨state.lookahead, left⟩ :=
      ⟨paren, adjacent, ⟨state, sound.visited, rfl, meets⟩, callee⟩
    have called : Vouches transcript (callExpression grammar left) state.advance
        fun value last => Folded transcript value last := by
      intro value last runs within
      obtain ⟨before, nodes⟩ :=
        callExpression_vouches vouching site known.nodes value last runs within
      obtain ⟨reads, -⟩ :=
        callExpression_accounts vouching.lawful sound.advance known.drawn value last runs
      exact ⟨before, nodes, fun _ => .call sound.advance.visited paren callee reads⟩
    exact .kept called
  · have notParen : state.lookahead.kind ≠ .openParen := fun paren => notParen (beq_iff_eq.2 paren)
    refine .after operandMissing_grows.vouches fun _ _ =>
      .ite (fun _ => .pure (by simp)) fun _ => ?_
    simp only [Vouches.advance_bind]
    refine (vouching.vouches (.expression _) _).keep rfl fun right _ => ?_
    refine joined_vouches.bind fun value last => .pure ?_
    rintro ⟨rfl, same⟩ chained _ ⟨⟩
    refine ⟨by simpa using ⟨known.nodes, chained.nodes⟩, fun glued => ?_⟩
    rw [parenGlued_congr same] at glued
    rw [same]
    -- A weaker operator would have left no parenthesis behind its right operand.
    refine .operation (bindsTighter_of_rank notParen fun weak => ?_) (chained.callee glued)
    exact chained.not_parenGlued weak glued

/-- What the first operator makes of the operand is the operand of the next. -/
theorem operatorChain_vouches {left : Expression} {precedence : Precedence}
    (vouching : Vouching transcript grammar)
    (sound : Sound transcript.source transcript.declared state) :
    Vouches transcript (operatorChain grammar left precedence) state fun result last =>
      LeftOperand transcript left state →
        ∀ value ∈ result, Chained transcript precedence value last := by
  refine .given (operatorChain_grows vouching.declares) fun known => ?_
  have onward (next : Expression) (middle : State) :=
    vouching.vouches (.operatorChain next precedence) middle
  unfold operatorChain
  simp only [Vouches.get_bind]
  refine .ite (fun ends => .pure ?_) fun goesOn => .ite (fun weak => .pure ?_) fun strong => ?_
  · rintro _ ⟨⟩
    exact ⟨known.toFolded, fun ahead => by simp [ahead.1] at ends⟩
  · rintro _ ⟨⟩
    exact ⟨known.toFolded, fun ahead => absurd ahead.2 (not_lt.2 weak)⟩
  simp only [Vouches.advance_bind]
  refine .ite (fun negative => ?_) fun plain => ?_
  · obtain ⟨number, digits⟩ := sound.coherent.digits_ahead negative
    have accounts :=
      splitSubtraction_accounts vouching.lawful sound.advance known.drawn number digits
    have folded := splitSubtraction_vouches vouching sound.advance known.nodes number digits
    exact (Vouches.leftOperand accounts folded).keep rfl onward
  · rw [if_neg plain, not_le] at strong
    have lowest : Precedence.lowest.rank ≤ precedence.rank := by cases precedence <;> decide
    have accounts := applied_accounts vouching.lawful sound.advance known.drawn
    have folded := applied_vouches vouching sound known (lowest.trans_lt strong)
    exact (Vouches.leftOperand accounts folded).keep rfl onward

/-- Words behind an expression make it the name of a command, which is no call. -/
theorem commandOrExpression_vouches (vouching : Vouching transcript grammar)
    (sound : Sound transcript.source transcript.declared state) :
    Vouches transcript (commandOrExpression grammar) state
      fun result _ => ∀ value ∈ result, AllVouched transcript value.nodes := by
  unfold commandOrExpression
  simp only [Vouches.get_bind]
  refine .ite (fun _ => ?_) fun _ => ?_
  · exact (command_vouches vouching sound).mono fun _ _ known value found =>
      (known value found).nodes
  refine vouching.closed.keep rfl fun name _ => ?_
  simp only [Vouches.endsCommand_bind]
  refine .ite (fun _ => .pure (by simp)) fun _ => ?_
  refine (vouching.vouches .arguments _).bind fun given _ => .pure fun words name => ?_
  simpa using ⟨name, words⟩

end IRule.Parser
