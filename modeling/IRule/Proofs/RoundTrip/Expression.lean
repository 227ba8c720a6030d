import IRule.Proofs.RoundTrip.Option

/-!
# Expressions read back

Operators are written without parentheses. An expression is read back when each
of its operators stands where its strength puts it: what is read behind an
operand goes on from there with the operator that follows, so the statement
that is proved about every expression leaves open what that will be.
-/

namespace IRule

/-! ## Operands -/

namespace Lexeme

/-- The sign in front of an operand is a token of its own. -/
theorem Spells.sign {braces brackets : Nat} {char : Char} {rest : List Char}
    (starts : startsOperand char ∨ char = ' ') :
    Spells braces brackets ['!'] (char :: rest) .bang ∧
      Spells braces brackets ['*'] (char :: rest) .asterisk ∧
      (char.isDigit = false → Spells braces brackets ['-'] (char :: rest) .minus) := by
  have other : '=' ≠ char := by
    rintro rfl
    rcases starts with starts | starts
    · exact absurd starts (by decide)
    · exact absurd starts (by decide)
  refine ⟨⟨?_, Trivia.scan_tight _ rfl⟩, ⟨?_, Trivia.scan_tight _ rfl⟩,
    fun noDigit => ⟨?_, Trivia.scan_tight _ rfl⟩⟩
  · simp [Lexeme.scan, startsNumeral, isNameStart, symbol?, symbols, List.isPrefixOf, other]
  · simp [Lexeme.scan, startsNumeral, isNameStart, symbol?, symbols, List.isPrefixOf]
  · simp [Lexeme.scan, startsNumeral, isNameStart, symbol?, symbols, List.isPrefixOf, noDigit]

end Lexeme

namespace Parser

open Lexeme (Breaks Severs Spells)

variable {names : Names} {setting : Setting} {rest : List Char}

/-- An operand is not missing where one is ahead on the same line. -/
theorem endsCommand_of_startsOperand {state : State} {reported : List Diagnostic → Prop}
    {gap text : List Char} {spacing : Spacing}
    (awaits : state.Awaits reported setting (gap ++ (text ++ rest))) (gapped : Gap gap spacing)
    (inLine : spacing.newline = false) (starts : text.head?.any Lexeme.startsOperand) :
    state.endsCommand = false := by
  obtain ⟨kind, apart⟩ :
      state.lookahead.kind ∉ Lexeme.closers ∧ state.lookahead.spacing = spacing :=
    awaits.stands.toFaces.startsOperand gapped starts
  have goesOn : state.lookahead.kind.isTerminator = false := by
    cases known : state.lookahead.kind <;> simp_all [TokenKind.isTerminator, Lexeme.closers]
  simp [State.endsCommand, goesOn, apart, inLine]

/-! ## Operators -/

/-- Behind an operand nothing is glued to it and no operator binds tighter than
`rank`. -/
structure Setting.Follows (setting : Setting) (rank : Nat) (rest : List Char) : Prop
    extends setting.Stops .operand rest where
  weak : ∀ state : State, state.Faces setting rest → state.endsCommand = true ∨
    gluedNegative state.lookahead = false ∧ (Precedence.ofToken state.lookahead).rank ≤ rank

theorem Setting.Follows.mono {rank more : Nat} (follows : setting.Follows rank rest)
    (le : rank ≤ more) : setting.Follows more rest := by
  refine ⟨follows.toStops, fun state faces => ?_⟩
  rcases follows.weak state faces with ends | ⟨plain, weak⟩
  · exact .inl ends
  · exact .inr ⟨plain, weak.trans le⟩

/-- What follows an operand is no matter of the variables that are known. -/
theorem Setting.Follows.knowing {rank : Nat} (follows : setting.Follows rank rest)
    (names : List String) : (setting.knowing names).Follows rank rest :=
  ⟨follows.toStops.knowing names, fun state faces => follows.weak state faces.forget⟩

/-- An operand that no stronger operator follows is complete. -/
theorem yields_operatorChain_of_follows {state : State} {reported : List Diagnostic → Prop}
    {left : Expression} {precedence : Precedence} {post : Option Expression → State → Prop}
    (follows : setting.Follows precedence.rank rest) (awaits : state.Awaits reported setting rest)
    (holds : post (some left) state) :
    Yields (language.operatorChain left precedence) state post := by
  have ahead : state.endsCommand = true ∨ gluedNegative state.lookahead = false ∧
      (Precedence.ofToken state.lookahead).rank ≤ precedence.rank :=
    follows.weak state.quiet awaits.stands.toFaces
  change Yields (language.parse (.operatorChain left precedence)) _ _
  refine .rule awaits.coherent ?_
  change Yields (operatorChain language left precedence) _ _
  simp only [operatorChain, Yields.get_bind]
  rcases ahead with ends | ⟨plain, weak⟩
  · simp only [ends, if_true]
    exact .pure holds
  · split
    · exact .pure holds
    · simp only [plain, Bool.false_eq_true, if_false, weak, if_true]
      exact .pure holds

/-- A stronger operator takes the operand in front of it. -/
theorem yields_operatorChain {state : State} {left : Expression} {precedence : Precedence}
    {post : Option Expression → State → Prop} (coherent : state.Coherent)
    (goesOn : state.endsCommand = false) (plain : gluedNegative state.lookahead = false)
    (strong : precedence.rank < (Precedence.ofToken state.lookahead).rank)
    (yields : Yields (applied language left) state.advance fun result last =>
      ∃ next, result = some next ∧ Yields (language.operatorChain next precedence) last post) :
    Yields (language.operatorChain left precedence) state post := by
  change Yields (language.parse (.operatorChain left precedence)) _ _
  refine .rule coherent ?_
  change Yields (operatorChain language left precedence) _ _
  simp only [operatorChain, Yields.get_bind, goesOn, plain, Bool.false_eq_true, if_false,
    Nat.not_le.2 strong, Yields.advance_bind]
  refine yields.bind ?_
  rintro _ last ⟨next, rfl, later⟩
  exact later

/-- The token of an operator between its operands. -/
theorem State.Faces.operator {state : State} {operator : Operator}
    (faces : state.Faces setting ([' '] ++ (operator.text.toList ++ (' ' :: rest)))) :
    state.lookahead.kind = operator.tokenKind ∧ state.lookahead.literal = operator.text ∧
      (Precedence.ofToken state.lookahead).rank = operator.rank ∧
      state.lookahead.spacing = { space := true } ∧ state.advance.Stands setting (' ' :: rest) := by
  obtain ⟨kind, literal, apart, stands⟩ := faces.token .space (.operator operator)
  have notString : operator.tokenKind ≠ .string := by cases operator <;> decide
  have notParen : operator.tokenKind ≠ .openParen := by cases operator <;> decide
  have plain : operator.tokenKind ∉ [.openBrace, .closeBrace, .openBracket, .closeBracket] := by
    cases operator <;> decide
  rw [Lexeme.literalOf_eq _ notString, String.ofList_toList] at literal
  rw [setting.delimit_of_plain plain] at stands
  exact ⟨kind, literal, congrArg Precedence.rank (ofToken_congr kind literal notParen),
    apart, stands⟩

/-- An operator follows the operands it is not stronger than. -/
theorem Setting.follows_operator {operator : Operator} {rank : Nat} (weak : operator.rank ≤ rank) :
    setting.Follows rank ([' '] ++ (operator.text.toList ++ (' ' :: rest))) where
  toStops := Setting.stops_space .operand
  weak := fun state faces => by
    obtain ⟨kind, -, strength, apart, -⟩ := faces.operator
    refine .inr ⟨?_, strength ▸ weak⟩
    simp [gluedNegative, apart, Spacing.isAdjacent]

/-- A token that is no operator ends an expression. -/
theorem Setting.follows_token {char : Char} {kind : TokenKind} {rank : Nat}
    (spells : Spells setting.braces setting.brackets [char] rest kind)
    (listed : kind ∈ [.closeParen, .comma, .closeBrace]) (severs : Severs (char :: rest))
    (positive : 0 < rank) : setting.Follows rank (char :: rest) := by
  have ahead : ∀ state : State, state.Faces setting (char :: rest) →
      state.lookahead.kind = kind := by
    intro state faces
    have faced : state.Faces setting ([] ++ ([char] ++ rest)) := faces
    exact (faced.token .none spells).1
  simp only [List.mem_cons, List.not_mem_nil, or_false] at listed
  refine ⟨⟨severs, fun state faces => ?_, fun state faces => ?_⟩, fun state faces => .inr ?_⟩
  · rcases listed with rfl | rfl | rfl <;> simp [Glue.holds, ahead state faces, continuesOperand]
  · rcases listed with rfl | rfl | rfl <;> simp [State.parenGlued, ahead state faces]
  · rcases listed with rfl | rfl | rfl <;>
      simp [gluedNegative, Precedence.ofToken, Token.isPlus, ahead state faces, Precedence.rank] <;>
      omega

theorem Setting.follows_closeParen {rank : Nat} (positive : 0 < rank) :
    setting.Follows rank (')' :: rest) :=
  follows_token .closeParen (by simp) (by simp [Severs, Lexeme.isWordChar, Lexeme.isNameChar])
    positive

theorem Setting.follows_comma {rank : Nat} (positive : 0 < rank) :
    setting.Follows rank (',' :: rest) :=
  follows_token .comma (by simp) (by simp [Severs, Lexeme.isWordChar, Lexeme.isNameChar]) positive

theorem Setting.follows_closeBrace {rank : Nat} (opened : 0 < setting.braces)
    (positive : 0 < rank) :
    setting.Follows rank ('\x7d' :: rest) :=
  follows_token (.closeBrace opened) (by simp)
    (by simp [Severs, Lexeme.isWordChar, Lexeme.isNameChar]) positive

/-! ## Reading back -/

/-- An expression is read back in front of operators that leave its operands alone,
and what is read behind it goes on from its copy. -/
def ReadsExpression (names : Names) (expression : Expression) : Prop :=
  ∀ ⦃setting : Setting⦄ ⦃state : State⦄ ⦃gap rest : List Char⦄ ⦃spacing : Spacing⦄
    ⦃precedence : Precedence⦄ ⦃post : Option Expression → State → Prop⦄,
    setting.Admits names → Gap gap spacing →
    state.Faces setting (gap ++ (expression.written.toList ++ rest)) →
    setting.Follows expression.rightRank rest → precedence.rank < expression.leftRank →
    (∀ (copy : Expression) (last : State), copy.shape = expression.shape →
      last.Stands (setting.knowing expression.names) rest →
      Yields (language.operatorChain copy precedence) last post) →
    Yields (language.expression precedence) state.advance post

/-- An expression in front of something that is no operator at all. -/
theorem ReadsExpression.yields {expression : Expression} (reads : ReadsExpression names expression)
    {state : State} {gap : List Char} {spacing : Spacing} {precedence : Precedence}
    (admits : setting.Admits names) (gapped : Gap gap spacing)
    (faces : state.Faces setting (gap ++ (expression.written.toList ++ rest)))
    (follows : setting.Follows (min precedence.rank expression.rightRank) rest)
    (strong : precedence.rank < expression.leftRank) :
    Yields (language.expression precedence) state.advance fun result last =>
      ∃ copy : Expression, result = some copy ∧ copy.shape = expression.shape ∧
        last.Stands (setting.knowing expression.names) rest := by
  refine reads admits gapped faces (follows.mono (Nat.min_le_right ..)) strong ?_
  intro copy last same stands
  exact yields_operatorChain_of_follows ((follows.mono (Nat.min_le_left ..)).knowing _)
    (State.awaits_iff_stands.2 stands) ⟨copy, rfl, same, stands⟩

/-- An expression that is one operand. -/
theorem readsExpression_of_operand {expression : Expression}
    (reads : ∀ ⦃setting : Setting⦄ ⦃state : State⦄ ⦃gap rest : List Char⦄ ⦃spacing : Spacing⦄,
      setting.Admits names → Gap gap spacing →
      state.Faces setting (gap ++ (expression.written.toList ++ rest)) →
      setting.Follows expression.rightRank rest →
      Yields (operand language) state.advance fun result last =>
        ∃ copy : Expression, result = some copy ∧ copy.shape = expression.shape ∧
          last.Stands (setting.knowing expression.names) rest) :
    ReadsExpression names expression := by
  intro setting state gap rest spacing precedence post admits gapped faces follows _ goesOn
  change Yields (language.parse (.expression precedence)) _ _
  refine .rule faces.ahead.advance ?_
  change Yields (Parser.expression language precedence) _ _
  unfold Parser.expression
  refine (reads admits gapped faces follows).bind ?_
  rintro _ last ⟨copy, rfl, same, stands⟩
  exact goesOn copy last same stands

/-- An expression that is read back between parentheses or braces. -/
structure Stated (names : Names) (expression : Expression) : Prop where
  reads : ReadsExpression names expression
  starts : expression.written.toList.head?.any Lexeme.startsOperand
  strong : Precedence.lowest.rank < expression.leftRank
  positive : 0 < expression.rightRank

/-- An expression in which no operator is in sight from the right. -/
theorem Stated.of_ranks {expression : Expression} (rank : Nat)
    (reads : ReadsExpression names expression)
    (starts : expression.written.toList.head?.any Lexeme.startsOperand)
    (leftRank : expression.leftRank = rank) (rightRank : expression.rightRank = topRank)
    (strong : Precedence.lowest.rank < rank) : Stated names expression :=
  ⟨reads, starts, leftRank ▸ strong, rightRank ▸ by decide⟩

/-- Expressions are read back one behind the other, each where the variables of those before it
are known. -/
inductive StatedAll : Names → List Expression → Prop where
  | nil {names : Names} : StatedAll names []
  | cons {names : Names} {expression : Expression} {rest : List Expression}
      (stated : Stated names expression) (later : StatedAll (names.plus expression.names) rest) :
      StatedAll names (expression :: rest)

/-- A whole expression. -/
theorem Stated.yields {expression : Expression} (stated : Stated names expression) {state : State}
    {gap : List Char} {spacing : Spacing} (admits : setting.Admits names) (gapped : Gap gap spacing)
    (faces : state.Faces setting (gap ++ (expression.written.toList ++ rest)))
    (follows : ∀ rank, 0 < rank → setting.Follows rank rest) :
    Yields (language.expression .lowest) state.advance fun result last =>
      ∃ copy : Expression, result = some copy ∧ copy.shape = expression.shape ∧
        last.Stands (setting.knowing expression.names) rest :=
  stated.reads.yields admits gapped faces (follows _ (lt_min (by decide) stated.positive))
    stated.strong

/-! ## Single operands -/

/-- Words that are operands. -/
theorem readsExpression_of_readsBack {word : Expression} (reads : ReadsBack names word)
    (opens : ∀ (braces brackets : Nat) (rest : List Char), Severs rest →
      ∃ kind ∈ operandKinds, ∃ first later, word.written.toList ++ rest = first ++ later ∧
        Spells braces brackets first later kind ∧
          (kind = .openBrace → word.opensStatement = false)) :
    ReadsExpression names word := by
  refine readsExpression_of_operand fun setting state gap rest spacing admits gapped
    faces follows => ?_
  have here : state.advance.current.kind ∈ operandKinds := by
    obtain ⟨kind, listed, first, later, text, spells, -⟩ :=
      opens setting.braces setting.brackets rest follows.severs
    rw [text] at faces
    have known : state.advance.current.kind = kind := (faces.token gapped spells).1
    rwa [known]
  have copied : ∀ result last, Copied word setting rest result last →
      ∃ copy : Expression, result = some copy ∧ copy.shape = word.shape ∧
        last.Stands (setting.knowing word.names) rest :=
    fun _ _ ⟨copy, same, copies, stands⟩ => ⟨copy, same, copies.shape, stands⟩
  have pieceRead := (reads admits gapped faces follows.breaks follows.noParen).mono copied
  have wordRead := (reads.word admits gapped faces follows.toStops).mono copied
  simp only [operandKinds, List.mem_cons, List.not_mem_nil, or_false] at here
  unfold operand
  simp only [Yields.current_bind]
  rcases here with kind | kind | kind | kind | kind | kind | kind | kind <;> simp only [kind]
  · exact pieceRead
  · exact pieceRead
  · exact pieceRead
  · exact pieceRead
  · exact wordRead
  · exact wordRead
  · exact wordRead
  · simpa only [piece, Yields.current_bind, kind] using pieceRead

/-- What is read at the name of an operand, unless it has to be declared. -/
theorem yields_operand_word {state : State} {name : String} (known : isOperandKind
    (Lexeme.wordKind name.toList)) (kind : state.current.kind = Lexeme.wordKind name.toList)
    (text : state.current.literal = name) (notPlus : state.current.isPlus = false)
    (allowed : Lexeme.wordKind name.toList = .word → state.parenGlued = false →
      Naming.isStandaloneWord state.declared name) :
    Yields (operand language) state fun result last =>
      ∃ token isReserved, result = some (.identifier token name false isReserved) ∧
        last = state := by
  have wordRead (word : state.current.kind = .word) : Yields (operandWord state.current) state
      fun result last => ∃ isReserved,
        result = .identifier state.current name false isReserved ∧ last = state := by
    simp only [operandWord, Yields.get_bind, text]
    cases glued : state.parenGlued with
    | true =>
      simp only [if_true]
      exact .pure ⟨false, rfl, rfl⟩
    | false =>
      simp only [Bool.false_eq_true, if_false, standaloneWord, Yields.get_bind, text,
        allowed (kind.symm.trans word) glued, if_true]
      exact .pure ⟨_, rfl, rfl⟩
  rw [← kind] at known
  unfold isOperandKind at known
  split at known
  · rename_i word
    simp only [operand, Yields.current_bind, word, notPlus]
    refine (wordRead word).bind ?_
    rintro _ _ ⟨isReserved, rfl, rfl⟩
    exact .pure ⟨_, isReserved, rfl, rfl⟩
  · rename_i word
    simp only [operand, Yields.current_bind, word, text]
    exact .pure ⟨_, false, rfl, rfl⟩
  · rename_i word
    simp only [operand, Yields.current_bind, word, text]
    exact .pure ⟨_, false, rfl, rfl⟩
  · rename_i word
    simp only [operand, Yields.current_bind, word, text]
    exact .pure ⟨_, true, rfl, rfl⟩
  · simp at known

/-- Bare words that are operands. -/
theorem readsExpression_bare {token : Token} {name : String} {isReserved : Bool}
    (bare : Lexeme.isBareWord name.toList) (known : isOperandKind (Lexeme.wordKind name.toList))
    (standalone : Lexeme.wordKind name.toList = .word → Naming.isStandaloneWord names.known name) :
    ReadsExpression names (.identifier token name false isReserved) := by
  refine readsExpression_of_operand fun setting state gap rest spacing admits gapped
    faces follows => ?_
  simp only [Expression.written, Bool.false_eq_true, if_false] at faces
  obtain ⟨kind, text, notPlus, stands⟩ := faces.name gapped bare follows.breaks
  refine (yields_operand_word known kind text notPlus fun word _ => ?_).mono ?_
  · exact isStandaloneWord_mono
      (fun other inside => stands.knows.known other (admits.known other inside)) (standalone word)
  · rintro _ _ ⟨other, reserved, rfl, rfl⟩
    exact ⟨_, rfl, rfl, by simpa [Expression.names, Node.declares] using stands⟩

/-- Commands of the families that are operands. -/
theorem readsExpression_namespaced {token : Token} {family : Family} {name : String}
    (bare : Lexeme.isBareWord name.toList)
    (known : (Lexeme.wordKind name.toList).family? = some family) :
    ReadsExpression names (.namespaced token family name []) := by
  refine readsExpression_of_operand fun setting state gap rest spacing admits gapped
    faces follows => ?_
  have faced : state.Faces setting (gap ++ (name.toList ++ rest)) := by
    simpa [Expression.written, writtenAll, spacedWords_eq_followed] using faces
  obtain ⟨kind, text, -, stands⟩ := faced.name gapped bare follows.breaks
  obtain ⟨listed, here⟩ : ∃ listed, state.advance.current.kind = .command family listed := by
    rw [kind]
    cases word : Lexeme.wordKind name.toList <;> simp_all [TokenKind.family?]
  simp only [operand, Yields.current_bind, here, text]
  exact .pure ⟨_, rfl, rfl, by simpa [Expression.names, Node.declares] using stands⟩

/-! ## Parentheses and signs -/

/-- A group is what is read between its parentheses. -/
theorem yields_group {reported later : List Diagnostic → Prop} {accepts : Expression → Prop}
    {ending : Setting} {state : State} {text before behind : List Char} {spacing final : Spacing}
    (kind : state.current.kind = .openParen) (gapped : Gap before spacing)
    (closing : Gap behind final) (starts : text.head?.any Lexeme.startsOperand)
    (awaits : state.Awaits reported setting (before ++ (text ++ (behind ++ ([')'] ++ rest)))))
    (reads : ∀ inner : State, inner.Awaits reported (setting.inside .expression)
        (before ++ (text ++ (behind ++ ([')'] ++ rest)))) →
      Yields (language.expression .lowest) inner.advance fun result last =>
        ∃ tree, result = some tree ∧ accepts tree ∧
          last.Awaits later (ending.inside .expression) (behind ++ ([')'] ++ rest))) :
    Yields (operand language) state fun result last =>
      ∃ tree, result = some (.group state.current tree) ∧ accepts tree ∧
        last.Awaits later ending rest := by
  have notClosed : (state.lookahead.kind == .closeParen) = false := by
    have inner : state.lookahead.kind ∉ Lexeme.closers :=
      (awaits.stands.toFaces.startsOperand gapped starts).1
    rw [beq_eq_false_iff_ne]
    intro same
    simp [same, Lexeme.closers] at inner
  have innerRead : Yields (within .expression do advance; language.expression .lowest)
      state fun result last => ∃ tree, result = some tree ∧ accepts tree ∧
        last.Awaits later ending (behind ++ ([')'] ++ rest)) := by
    refine .within ?_
    rw [Yields.advance_bind]
    refine (reads _ (awaits.enter .expression)).mono ?_
    rintro _ last ⟨tree, rfl, accepted, awaits⟩
    exact ⟨tree, rfl, accepted, awaits.leave⟩
  simp only [operand, Yields.current_bind, kind, groupedExpression, Yields.isAhead_bind, notClosed,
    Bool.false_eq_true, if_false]
  refine innerRead.bind ?_
  rintro _ last ⟨tree, rfl, accepted, awaits⟩
  obtain ⟨ended, -, -, closed⟩ := awaits.token closing .closeParen
  simp only [Yields.isAhead_bind, ended, beq_self_eq_true, if_true, Yields.advance_bind]
  exact .pure ⟨tree, rfl, accepted, closed⟩

/-- Expressions in parentheses are read back. -/
theorem readsExpression_group {token : Token} {inner : Expression} (stated : Stated names inner) :
    ReadsExpression names (.group token inner) := by
  refine readsExpression_of_operand fun setting state gap rest spacing admits gapped
    faces follows => ?_
  have faced : state.Faces setting (gap ++ (['('] ++ ([] ++ (inner.written.toList ++
      ([] ++ ([')'] ++ rest)))))) := by
    simpa [Expression.written] using faces
  obtain ⟨kind, -, -, opened⟩ := faced.token gapped .openParen
  have reads : ∀ later : State, later.Awaits (· = []) (setting.inside .expression)
      ([] ++ (inner.written.toList ++ ([] ++ ([')'] ++ rest)))) →
      Yields (language.expression .lowest) later.advance fun result last =>
        ∃ copy : Expression, result = some copy ∧ copy.shape = inner.shape ∧
          last.Awaits (· = []) ((setting.knowing inner.names).inside .expression)
            ([] ++ ([')'] ++ rest)) := by
    intro later awaits
    refine (stated.yields (admits.inside (by decide)) .none
      (State.awaits_iff_stands.1 awaits).toFaces fun _ => Setting.follows_closeParen).mono ?_
    rintro _ last ⟨copy, rfl, same, stands⟩
    exact ⟨copy, rfl, same, State.awaits_iff_stands.2 stands⟩
  refine (yields_group kind .none .none stated.starts (State.awaits_iff_stands.2 opened)
    reads).mono ?_
  rintro _ last ⟨copy, rfl, same, awaits⟩
  exact ⟨_, rfl, by simp [Expression.shape, same],
    by simpa [Expression.names, Node.declares] using State.awaits_iff_stands.1 awaits⟩

/-- A sign is written in front of its operand so that it stays a sign. -/
theorem written_unary {operator : String} {operand : Expression} (token : Token)
    (prefixed : isPrefixOf operator operand)
    (starts : operand.written.toList.head?.any Lexeme.startsOperand) (rest : List Char)
    (braces brackets : Nat) :
    ∃ (middle : List Char) (spacing : Spacing) (kind : TokenKind), Gap middle spacing ∧
      spacing.newline = false ∧
      (Expression.unary token operator operand).written.toList =
        operator.toList ++ (middle ++ operand.written.toList) ∧
      Spells braces brackets operator.toList (middle ++ (operand.written.toList ++ rest)) kind ∧
      kind ∈ [.bang, .minus, .asterisk] := by
  obtain ⟨char, later, text, first⟩ : ∃ char later, operand.written.toList = char :: later ∧
      Lexeme.startsOperand char := by
    cases text : operand.written.toList with
    | nil => simp [text] at starts
    | cons char later => exact ⟨char, later, rfl, by simpa [text] using starts⟩
  obtain ⟨bang, asterisk, minus⟩ : Spells braces brackets ['!'] (char :: (later ++ rest)) .bang ∧
      Spells braces brackets ['*'] (char :: (later ++ rest)) .asterisk ∧
      (char.isDigit = false → Spells braces brackets ['-'] (char :: (later ++ rest)) .minus) :=
    Lexeme.Spells.sign (.inl first)
  simp only [isPrefixOf, Bool.or_eq_true, Bool.and_eq_true, beq_iff_eq] at prefixed
  rcases prefixed with (rfl | rfl) | ⟨rfl, number | noDigit⟩
  · exact ⟨[], _, _, .none, rfl, by simp [Expression.written], by simpa [text] using bang, by simp⟩
  · exact ⟨[], _, _, .none, rfl, by simp [Expression.written], by simpa [text] using asterisk,
      by simp⟩
  · refine ⟨[' '], _, .minus, .space, rfl, by simp [Expression.written, number], ?_, by simp⟩
    simpa using (Lexeme.Spells.sign (.inr rfl)).2.2 (by decide)
  · by_cases number : operand.isNumber
    · refine ⟨[' '], _, .minus, .space, rfl, by simp [Expression.written, number], ?_, by simp⟩
      simpa using (Lexeme.Spells.sign (.inr rfl)).2.2 (by decide)
    · refine ⟨[], _, .minus, .none, rfl, by simp [Expression.written, number], ?_, by simp⟩
      simpa [text] using minus (by simpa [text] using noDigit)

theorem yields_operandMissing {state : State} {token : Token} (goesOn : state.endsCommand = false) :
    Yields (operandMissing token) state fun missing last => missing = false ∧ last = state := by
  simp only [operandMissing, Yields.endsCommand_bind, goesOn, Bool.false_eq_true, if_false]
  exact .pure ⟨rfl, rfl⟩

/-- A sign and the expression behind it are one operand. -/
theorem yields_sign {state : State} {post : Option Expression → State → Prop}
    (sign : state.current.kind ∈ [.bang, .minus, .asterisk]) (goesOn : state.endsCommand = false)
    (reads : Yields (language.expression .unary) state.advance fun result last =>
      ∃ inner, result = some inner ∧
        post (some (.unary state.current state.current.literal inner)) last) :
    Yields (operand language) state post := by
  have unaryRead : Yields (unaryExpression language) state post := by
    simp only [unaryExpression, Yields.current_bind]
    refine (yields_operandMissing goesOn).bind ?_
    rintro _ _ ⟨rfl, rfl⟩
    simp only [Bool.false_eq_true, if_false, Yields.advance_bind]
    refine reads.bind ?_
    rintro _ last ⟨inner, rfl, holds⟩
    exact .pure holds
  simp only [List.mem_cons, List.not_mem_nil, or_false] at sign
  unfold operand
  simp only [Yields.current_bind]
  rcases sign with kind | kind | kind <;> simp only [kind] <;> exact unaryRead

/-- Signs and their operands are read back. -/
theorem readsExpression_unary {token : Token} {operator : String} {operand : Expression}
    (prefixed : isPrefixOf operator operand) (reads : ReadsExpression names operand)
    (starts : operand.written.toList.head?.any Lexeme.startsOperand)
    (strong : Precedence.unary.rank < operand.leftRank) :
    ReadsExpression names (.unary token operator operand) := by
  refine readsExpression_of_operand fun setting state gap rest spacing admits gapped
    faces follows => ?_
  obtain ⟨middle, apart, kind, between, inLine, written, spells, sign⟩ :=
    written_unary token prefixed starts rest setting.braces setting.brackets
  rw [written] at faces
  simp only [List.append_assoc] at faces
  obtain ⟨known, literal, -, signed⟩ := faces.token gapped spells
  have plain : kind ∉ [.openBrace, .closeBrace, .openBracket, .closeBracket] := by
    intro delimiter
    simp only [List.mem_cons, List.not_mem_nil, or_false] at sign delimiter
    rcases sign with rfl | rfl | rfl <;> simp at delimiter
  have notString : kind ≠ .string := by
    rintro rfl
    simp at sign
  rw [Lexeme.literalOf_eq _ notString, String.ofList_toList] at literal
  rw [setting.delimit_of_plain plain] at signed
  have text : state.advance.current.literal = operator := literal
  have here : state.advance.current.kind = kind := known
  refine yields_sign (here ▸ sign)
    (endsCommand_of_startsOperand (State.awaits_iff_stands.2 signed) between inLine starts) ?_
  refine (reads.yields admits between signed.toFaces follows strong).mono ?_
  rintro _ last ⟨copy, rfl, same, stands⟩
  exact ⟨copy, rfl, _, rfl, by simp [Expression.shape, text, same],
    by simpa [Expression.names, Node.declares] using stands⟩

/-! ## Operators between operands -/

/-- The class of an operand is a matter of its shape. -/
theorem ofExpression_shape : (expression : Expression) →
    OperandClass.ofExpression expression.shape = OperandClass.ofExpression expression
  | .group _ inner => by
    simp only [Expression.shape, OperandClass.ofExpression, ofExpression_shape inner]
  | .unary _ _ operand => by
    simp only [Expression.shape, OperandClass.ofExpression, operand.isNumber_shape]
  | .identifier .. | .invalid .. | .number .. | .string .. | .boolean .. | .address ..
  | .binary .. | .computed .. | .element .. | .call .. | .invocation .. | .bracket .. | .list ..
  | .hash .. | .mapping .. | .handler .. | .namespaced .. | .stringOperation .. | .classCommand ..
  | .regsub .. | .substitution .. | .interpolated .. | .regex .. | .target .. => by
    simp only [Expression.shape, OperandClass.ofExpression]

/-- Operators accept the copies of the operands they accept. -/
theorem acceptsOperands_of_shape {operator : String} {left right first second : Expression}
    (leftSame : first.shape = left.shape) (rightSame : second.shape = right.shape)
    (accepts : acceptsOperands operator left right) : acceptsOperands operator first second := by
  unfold acceptsOperands at accepts ⊢
  rwa [← ofExpression_shape first, ← ofExpression_shape second, leftSame, rightSame,
    ofExpression_shape left, ofExpression_shape right]

theorem yields_joined {state : State} {token : Token} {left right : Expression}
    (accepts : acceptsOperands token.literal left right) :
    Yields (joined token left right) state fun result last =>
      result = .binary token left token.literal right ∧ last = state := by
  simp only [joined, accepts, if_true]
  exact .pure ⟨rfl, rfl⟩

theorem operatorRank_text (operator : Operator) : operatorRank operator.text = operator.rank := by
  cases operator <;> decide

/-- An operator that is strong enough takes the operand in front of it and the one that is
read behind it. -/
theorem yields_operator {reported : List Diagnostic → Prop} {state : State} {operator : Operator}
    {left : Expression} {precedence : Precedence} {text : List Char}
    {post : Option Expression → State → Prop}
    (awaits : state.Awaits reported setting
      ([' '] ++ (operator.text.toList ++ (' ' :: (text ++ rest)))))
    (starts : text.head?.any Lexeme.startsOperand) (strong : precedence.rank < operator.rank)
    (reads : ∀ next : State, next.Awaits reported setting ([' '] ++ (text ++ rest)) →
      next.current.literal = operator.text →
      (Precedence.ofToken next.current).rank = operator.rank →
      Yields (language.expression (.ofToken next.current)) next.advance fun result last =>
        ∃ right, result = some right ∧ Yields (joined next.current left right) last
          fun tree final => Yields (language.operatorChain tree precedence) final post) :
    Yields (language.operatorChain left precedence) state post := by
  obtain ⟨kind, literal, strength, apart, operated⟩ := awaits.stands.toFaces.operator
  have behind : state.advance.Awaits reported setting ([' '] ++ (text ++ rest)) :=
    ⟨operated, awaits.found⟩
  have inLine : state.lookahead.spacing = { space := true } := apart
  have ahead : state.lookahead.kind = operator.tokenKind := kind
  have unended : state.endsCommand = false := by
    have goesOn : operator.tokenKind.isTerminator = false := by cases operator <;> decide
    simp [State.endsCommand, ahead, goesOn, inLine]
  have plain : gluedNegative state.lookahead = false := by
    simp [gluedNegative, inLine, Spacing.isAdjacent]
  have rank : (Precedence.ofToken state.advance.current).rank = operator.rank := strength
  refine yields_operatorChain awaits.coherent unended plain (strong.trans_eq rank.symm) ?_
  have here : (state.advance.current.kind == .openParen) = false := by
    have known : state.advance.current.kind = operator.tokenKind := kind
    rw [known]
    cases operator <;> rfl
  simp only [applied, Yields.current_bind, here, Bool.false_eq_true, if_false]
  refine (yields_operandMissing (endsCommand_of_startsOperand behind .space rfl starts)).bind ?_
  rintro _ _ ⟨rfl, rfl⟩
  simp only [Bool.false_eq_true, if_false, Yields.advance_bind]
  refine (reads _ behind literal rank).bind ?_
  rintro _ last ⟨right, rfl, joins⟩
  refine joins.bind fun tree final later => ?_
  exact .pure ⟨tree, rfl, later⟩

/-- Operators between their operands are read back. -/
theorem readsExpression_binary {token : Token} {left right : Expression} {operator : Operator}
    (leftReads : ReadsExpression names left)
    (rightReads : ReadsExpression (names.plus left.names) right)
    (starts : right.written.toList.head?.any Lexeme.startsOperand)
    (weak : operator.rank ≤ left.rightRank) (strong : operator.rank < right.leftRank)
    (accepts : acceptsOperands operator.text left right) :
    ReadsExpression names (.binary token left operator.text right) := by
  intro setting state gap rest spacing precedence post admits gapped faces follows stronger goesOn
  simp only [Expression.leftRank, Expression.rightRank, operatorRank_text, lt_min_iff]
    at follows stronger
  have faced : state.Faces setting (gap ++ (left.written.toList ++ ([' '] ++
      (operator.text.toList ++ (' ' :: (right.written.toList ++ rest)))))) := by
    simpa [Expression.written] using faces
  refine leftReads admits gapped faced (Setting.follows_operator weak) stronger.1 ?_
  intro first next leftSame stands
  refine yields_operator (State.awaits_iff_stands.2 stands) starts stronger.2 ?_
  intro next awaits text rank
  have behind := State.awaits_iff_stands.1 awaits
  refine (rightReads.yields (admits.knowing _) .space behind.toFaces (rank ▸ follows.knowing _)
    (rank ▸ strong)).mono ?_
  rintro _ last ⟨second, rfl, rightSame, stands⟩
  refine ⟨second, rfl, (yields_joined
    (text ▸ acceptsOperands_of_shape leftSame rightSame accepts)).mono ?_⟩
  rintro _ _ ⟨rfl, rfl⟩
  rw [Setting.knowing_knowing] at stands
  exact goesOn _ _ (by simp [Expression.shape, leftSame, rightSame, text])
    (by simpa [Expression.names, Node.declares] using stands)

/-! ## Calls -/

section Calls

/-- The arguments behind one are separated from it, or the call ends. -/
theorem follows_arguments (arguments : List Expression) (rank : Nat) (positive : 0 < rank) :
    setting.Follows rank ((followed ", " (writtenAll arguments)).toList ++ ')' :: rest) := by
  cases arguments with
  | nil => simpa [writtenAll] using Setting.follows_closeParen positive
  | cons argument arguments => simpa [writtenAll] using Setting.follows_comma positive

/-- Arguments of a call are read back. -/
theorem yields_callArguments {argument : Expression} {arguments : List Expression} {state : State}
    {gap : List Char} {spacing : Spacing} (stated : Stated names argument)
    (later : StatedAll (names.plus argument.names) arguments) (admits : setting.Admits names)
    (gapped : Gap gap spacing)
    (stands : state.Stands setting (gap ++ (argument.written.toList ++
      ((followed ", " (writtenAll arguments)).toList ++ ')' :: rest)))) :
    Yields language.callArguments state fun result last =>
      shapeAll result = shapeAll (argument :: arguments) ∧
        last.Stands (setting.knowing (wordNames (argument :: arguments))) (')' :: rest) := by
  induction arguments generalizing names setting argument state gap spacing with
  | nil =>
    change Yields (language.parse .callArguments) _ _
    refine .rule stands.coherent ?_
    change Yields (callArguments language) _ _
    simp only [callArguments, Yields.advance_bind]
    refine (stated.yields admits gapped stands.toFaces (follows_arguments [])).bind ?_
    rintro _ next ⟨copy, rfl, same, stands⟩
    have faced : next.Stands (setting.knowing argument.names) ([] ++ ([')'] ++ rest)) := by
      simpa [writtenAll] using stands
    obtain ⟨closing, -⟩ := faced.token .none .closeParen
    have noComma : (next.lookahead.kind == .comma) = false := by simp [closing]
    simp only [Yields.isAhead_bind, noComma, Bool.false_eq_true, if_false]
    exact .pure ⟨by simp [shapeAll, same], by simpa using faced⟩
  | cons other arguments ih =>
    cases later with | cons statedOther later => ?_
    change Yields (language.parse .callArguments) _ _
    refine .rule stands.coherent ?_
    change Yields (callArguments language) _ _
    simp only [callArguments, Yields.advance_bind]
    refine (stated.yields admits gapped stands.toFaces
      (follows_arguments (other :: arguments))).bind ?_
    rintro _ next ⟨copy, rfl, same, stands⟩
    have faced : next.Stands (setting.knowing argument.names) ([] ++ ([','] ++ ([' '] ++
        (other.written.toList ++
          ((followed ", " (writtenAll arguments)).toList ++ ')' :: rest))))) := by
      simpa [writtenAll] using stands
    obtain ⟨comma, -, -, separated⟩ := faced.token .none .comma
    have isComma : (next.lookahead.kind == .comma) = true := by simp [comma]
    simp only [Yields.isAhead_bind, isComma, if_true, Yields.advance_bind]
    refine (ih statedOther later (admits.knowing _) .space separated).bind ?_
    rintro copies last ⟨shapes, stands⟩
    refine .pure ⟨by simp [shapeAll, same, shapes], ?_⟩
    simpa [Setting.knowing, Setting.delimit] using stands

/-- The parentheses of a call are read back. -/
theorem yields_callExpression {arguments : List Expression} {state : State} {function : Expression}
    (stated : StatedAll names arguments) (admits : setting.Admits names)
    (stands : state.Stands setting
      ((separated ", " (writtenAll arguments)).toList ++ ')' :: rest)) :
    Yields (callExpression language function) state fun result last =>
      ∃ copies, result = .call state.current function copies ∧
        shapeAll copies = shapeAll arguments ∧
        last.Stands (setting.knowing (wordNames arguments)) rest := by
  have closed : ∀ (setting : Setting) (last : State),
      last.Stands (setting.inside .expression) (')' :: rest) →
      (last.lookahead.kind == .closeParen) = true ∧ last.advance.leave.Stands setting rest := by
    intro setting last stands
    have faced : last.Stands (setting.inside .expression) ([] ++ ([')'] ++ rest)) := stands
    obtain ⟨closing, -, -, closed⟩ := faced.token .none .closeParen
    exact ⟨by simp [closing], State.Stands.leave closed⟩
  have inside := stands.enter .expression
  unfold callExpression
  simp only [Yields.current_bind]
  cases stated with
  | nil =>
    obtain ⟨closing, stands⟩ := closed setting _ (by simpa [writtenAll, separated] using inside)
    refine Yields.bind (@Yields.within _ _ _ _
      (fun given last => given = [] ∧ last.Stands setting rest) ?_) ?_
    · simp only [Yields.isAhead_bind, closing, if_true, Yields.advance_bind]
      exact .pure ⟨rfl, stands⟩
    · rintro _ last ⟨rfl, stands⟩
      exact .pure ⟨[], rfl, rfl, by simpa using stands⟩
  | @cons _ argument arguments stated later =>
    have faced : (state.enter .expression).Stands (setting.inside .expression)
        ([] ++ (argument.written.toList ++
          ((followed ", " (writtenAll arguments)).toList ++ ')' :: rest))) := by
      simpa [writtenAll, separated_cons] using inside
    have notClosed : ((state.enter .expression).lookahead.kind == .closeParen) = false := by
      have inner := (faced.toFaces.startsOperand .none stated.starts).1
      rw [beq_eq_false_iff_ne]
      intro same
      simp [same, Lexeme.closers] at inner
    refine Yields.bind (@Yields.within _ _ _ _ (fun given last =>
      shapeAll given = shapeAll (argument :: arguments) ∧
        last.Stands (setting.knowing (wordNames (argument :: arguments))) rest) ?_) ?_
    · simp only [Yields.isAhead_bind, notClosed, Bool.false_eq_true, if_false]
      refine (yields_callArguments stated later (admits.inside (by decide)) .none faced).bind ?_
      rintro copies last ⟨shapes, stands⟩
      obtain ⟨closing, stands⟩ := closed (setting.knowing _) last stands
      simp only [Yields.isAhead_bind, closing, if_true, Yields.advance_bind]
      exact .pure ⟨shapes, stands⟩
    · rintro copies last ⟨shapes, stands⟩
      exact .pure ⟨copies, rfl, shapes, stands⟩

/-- Calls are read back. -/
theorem readsExpression_call {token inner : Token} {name : String} {isReserved : Bool}
    {arguments : List Expression} (bare : Lexeme.isBareWord name.toList)
    (known : isOperandKind (Lexeme.wordKind name.toList)) (stated : StatedAll names arguments) :
    ReadsExpression names (.call token (.identifier inner name false isReserved) arguments) := by
  intro setting state gap rest spacing precedence post admits gapped faces follows stronger goesOn
  have faced : state.Faces setting (gap ++ (name.toList ++ ([] ++ (['('] ++
      ((separated ", " (writtenAll arguments)).toList ++ ')' :: rest))))) := by
    simpa [Expression.written] using faces
  have opens : Breaks ([] ++ (['('] ++
      ((separated ", " (writtenAll arguments)).toList ++ ')' :: rest))) := by
    simp [Breaks, Lexeme.isWordChar, Lexeme.isNameChar]
  obtain ⟨kind, text, notPlus, stands⟩ := faced.name gapped bare opens
  obtain ⟨paren, -, adjacent, opened⟩ := stands.toFaces.token .none .openParen
  have glued : state.advance.parenGlued = true := by
    simp [State.parenGlued, paren, adjacent, Spacing.isAdjacent, Spacing.none]
  change Yields (language.parse (.expression precedence)) _ _
  refine .rule faces.ahead.advance ?_
  change Yields (Parser.expression language precedence) _ _
  unfold Parser.expression
  refine (yields_operand_word known kind text notPlus (by simp [glued])).bind ?_
  rintro _ _ ⟨other, reserved, rfl, rfl⟩
  have unended : state.advance.endsCommand = false := by
    simp [State.endsCommand, paren, adjacent, TokenKind.isTerminator, Spacing.none]
  have strength : Precedence.ofToken state.advance.lookahead = .call := by
    simp [Precedence.ofToken, Token.isPlus, paren, adjacent, Spacing.isAdjacent, Spacing.none]
  refine yields_operatorChain stands.coherent unended (by simp [gluedNegative, paren])
    (strength ▸ stronger) ?_
  have isParen : (state.advance.advance.current.kind == .openParen) = true := by
    have current : state.advance.advance.current.kind = .openParen := paren
    simp [current]
  simp only [applied, Yields.current_bind, isParen, if_true]
  refine (yields_callExpression stated admits opened).bind ?_
  rintro _ last ⟨copies, rfl, shapes, stands⟩
  refine .pure ⟨_, rfl, goesOn _ _ ?_ ?_⟩
  · simp [Expression.shape, shapes]
  · simpa [Expression.names, Node.declares, wordNames] using stands

end Calls

/-! ## All expressions -/

theorem startsOperand_append {first second : List Char}
    (starts : first.head?.any Lexeme.startsOperand) :
    (first ++ second).head?.any Lexeme.startsOperand := by
  cases first with
  | nil => simp at starts
  | cons char later => simpa using starts

end Parser

end IRule
