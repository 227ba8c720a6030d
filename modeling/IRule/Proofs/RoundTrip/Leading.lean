import IRule.Proofs.RoundTrip.Expression

/-!
# Expressions in the place of commands

Where a command may stand, an expression is read if its first token starts no command or if
an operator stands behind that token. Words behind an expression make it the name of a command.
-/

namespace IRule

namespace Parser

open Lexeme (Breaks Severs Spells)

variable {names : Names} {setting : Setting} {rest : List Char}

/-! ## First characters -/

/-- The sign of a prefix operator starts an operand. -/
theorem startsOperand_of_isPrefixOf {operator : String} {operand : Expression}
    (prefixed : isPrefixOf operator operand) : operator.toList.head?.any Lexeme.startsOperand := by
  simp only [isPrefixOf, Bool.or_eq_true, Bool.and_eq_true, beq_iff_eq] at prefixed
  rcases prefixed with (rfl | rfl) | ⟨rfl, -⟩ <;> decide

theorem startsOperand_of_isBareWord {text : List Char} (bare : Lexeme.isBareWord text) :
    text.head?.any Lexeme.startsOperand :=
  Lexeme.startsOperand_of_starts (starts_of_isBareWord bare)

/-- Words other than bare ones start like operands. -/
theorem startsOperand_of_legibleArgument {word : Expression} (legible : word.legibleArgument names)
    (notBare : word.isBare = false) : word.written.toList.head?.any Lexeme.startsOperand := by
  rcases starts_of_legibleArgument legible notBare with starts | brace
  · exact Lexeme.startsOperand_of_starts starts
  · rw [brace]
    rfl

/-- Expressions start like operands. -/
theorem startsOperand_of_legible : (expression : Expression) →
    expression.legibleExpression names → expression.written.toList.head?.any Lexeme.startsOperand
  | .binary _ left operator right => by
    intro legible
    simp only [Expression.legibleExpression, Bool.and_eq_true] at legible
    simp only [Expression.written, String.toList_append, List.append_assoc]
    exact startsOperand_append (startsOperand_of_legible left legible.1.1.1.2)
  | .unary _ operator operand => by
    intro legible
    simp only [Expression.legibleExpression, Bool.and_eq_true] at legible
    simp only [Expression.written]
    split <;> rw [String.toList_append]
    · exact startsOperand_append (by decide)
    · exact startsOperand_append (startsOperand_of_isPrefixOf legible.1.1)
  | .group _ inner => fun _ => by simp [Expression.written, Lexeme.startsOperand]
  | .call _ function arguments => by
    intro legible
    rcases function with ⟨_, name, _ | _, _⟩ | _
    case identifier.false =>
      simp only [Expression.legibleExpression, Bool.and_eq_true] at legible
      simp only [Expression.written, String.toList_append, List.append_assoc, Bool.false_eq_true,
        if_false]
      exact startsOperand_append (startsOperand_of_isBareWord legible.1.1)
    all_goals simp [Expression.legibleExpression] at legible
  | .identifier _ name false _ => by
    intro legible
    simp only [Expression.legibleExpression, Bool.and_eq_true] at legible
    simpa [Expression.written] using startsOperand_of_isBareWord legible.1.1
  | .namespaced _ family name arguments => by
    intro legible
    cases arguments with
    | nil =>
      simp only [Expression.legibleExpression, Bool.and_eq_true] at legible
      simp only [Expression.written, String.toList_append]
      exact startsOperand_append (startsOperand_of_isBareWord legible.1.1)
    | cons => simp [Expression.legibleExpression] at legible
  | .element _ array _ => by
    intro legible
    rcases array with ⟨_, _, _ | _, _⟩ | _
    case identifier.true =>
      exact startsOperand_of_legibleArgument
        (by simpa [Expression.legibleExpression, Expression.legibleArgument] using legible) rfl
    all_goals simp [Expression.legibleExpression] at legible
  | .number .. | .boolean .. => fun _ =>
    startsOperand_of_legibleArgument
      (show Expression.legibleArgument names _ by simp [Expression.legibleArgument]) rfl
  | .identifier _ _ true _ | .string .. | .address .. | .bracket .. | .interpolated .. | .list ..
  | .hash .. => fun legible =>
    startsOperand_of_legibleArgument (show Expression.legibleArgument names _ by
      simpa [Expression.legibleExpression, Expression.legibleArgument] using legible) rfl
  | .invalid .. | .computed .. | .invocation .. | .mapping .. | .handler .. | .stringOperation ..
  | .classCommand .. | .regsub .. | .substitution .. | .regex .. | .target .. => fun legible => by
    simp [Expression.legibleExpression] at legible

/-! ## First tokens -/

/-- Kinds of tokens that start commands. -/
def isCommandKind : TokenKind → Bool
  | .word | .core _ | .command _ _ | .reserved .classWord | .reserved .when | .reserved .set
  | .reserved .ifWord | .reserved .switch | .reserved .foreach | .reserved .returnWord => true
  | _ => false

theorem startsCommand_of_not_isCommandKind {token : Token}
    (other : isCommandKind token.kind = false) : startsCommand token = false := by
  unfold isCommandKind at other
  unfold startsCommand
  split at other <;> simp_all

/-- Kinds of tokens that start a statement of another form than a command, or none. -/
def structureKinds : List TokenKind :=
  [.illegal, .closeBrace, .closeBracket, .semicolon, .endOfInput, .openBrace, .reserved .set,
    .reserved .returnWord, .reserved .ifWord, .reserved .elseIf, .reserved .elseWord,
    .reserved .switch, .reserved .foreach, .reserved .ltm]

/-- The first token of an expression in front of `rest` has the kind, and `later` is behind it. -/
structure Fronts (expression : Expression) (braces brackets : Nat) (rest : List Char)
    (kind : TokenKind) (later : List Char) : Prop where
  text : ∃ first, expression.written.toList ++ rest = first ++ later ∧
    Spells braces brackets first later kind
  whole : expression.isCommandWord → later = rest
  leads : expression.leads → isCommandKind kind = false ∨
    ∃ (operator : Operator) (behind : List Char),
      later = ' ' :: (operator.text.toList ++ ' ' :: behind) ∧
        startsWithOperator operator.text.toList
  opens : expression.opensStatement → kind ∉ structureKinds

/-- An expression that is no name of a command starts with a token of its own. -/
theorem Fronts.of_kind {expression : Expression} {braces brackets : Nat} {kind : TokenKind}
    {first later : List Char} (text : expression.written.toList ++ rest = first ++ later)
    (spells : Spells braces brackets first later kind) (unnamed : expression.isCommandWord = false)
    (leads : isCommandKind kind = false)
    (opens : expression.opensStatement → kind ∉ structureKinds) :
    Fronts expression braces brackets rest kind later :=
  ⟨⟨first, text, spells⟩, fun named => by simp [unnamed] at named, fun _ => .inl leads, opens⟩

/-- Words that are operands start no command, and only a list starts a block. -/
theorem kinds_of_operandKinds : ∀ kind ∈ operandKinds, isCommandKind kind = false ∧
    (kind ≠ .openBrace → kind ∉ structureKinds) := by
  decide

/-- An operand that is a word starts with a literal or a brace. -/
theorem fronts_of_legibleArgument {word : Expression} (legible : word.legibleArgument names)
    (notBare : word.isBare = false) (unnamed : word.isCommandWord = false)
    (braces brackets : Nat) (severs : Severs rest) :
    ∃ kind later, Fronts word braces brackets rest kind later := by
  obtain ⟨kind, listed, first, later, text, spells, brace⟩ :=
    opens_of_legibleArgument legible notBare braces brackets rest severs
  obtain ⟨leads, opens⟩ := kinds_of_operandKinds kind listed
  refine ⟨kind, later, .of_kind text spells unnamed leads fun starts => opens fun isBrace => ?_⟩
  simp [brace isBrace] at starts

/-- The kind of an operand that is a bare word. -/
theorem not_mem_structureKinds_of_isOperandKind {kind : TokenKind} (operand : isOperandKind kind) :
    kind ∉ structureKinds := by
  unfold isOperandKind at operand
  split at operand <;> simp_all [structureKinds]

/-- The first token of an expression. -/
theorem fronts_of_legible (braces brackets : Nat) : (expression : Expression) →
    expression.legibleExpression names → ∀ rest, Severs rest →
      ∃ kind later, Fronts expression braces brackets rest kind later
  | .binary _ left operator right => by
    intro legible rest severs
    simp only [Expression.legibleExpression, Bool.and_eq_true, Option.isSome_iff_exists] at legible
    obtain ⟨⟨⟨⟨⟨known, found⟩, leftLegible⟩, -⟩, -⟩, -⟩ := legible
    obtain rfl : known.text = operator := by
      simpa [Operator.ofText?] using List.find?_some found
    obtain ⟨kind, later, fronts⟩ := fronts_of_legible braces brackets left leftLegible
      (' ' :: (known.text.toList ++ ' ' :: (right.written.toList ++ rest))) severs_space
    refine ⟨kind, later, ?_, fun named => by simp [Expression.isCommandWord] at named, ?_,
      fronts.opens⟩
    · simpa [Expression.written] using fronts.text
    · intro leads
      simp only [Expression.leads] at leads
      split at leads
      · rename_i named
        exact .inr ⟨known, _, fronts.whole named, leads⟩
      · exact fronts.leads leads
  | .unary token operator operand => by
    intro legible rest severs
    simp only [Expression.legibleExpression, Bool.and_eq_true] at legible
    obtain ⟨middle, -, kind, -, -, written, spells, sign⟩ := written_unary token legible.1.1
      (startsOperand_of_legible operand legible.1.2) rest braces brackets
    refine ⟨kind, _, .of_kind (by rw [written, List.append_assoc, List.append_assoc]) spells rfl
      ?_ fun _ => ?_⟩
    all_goals
      simp only [List.mem_cons, List.not_mem_nil, or_false] at sign
      rcases sign with rfl | rfl | rfl <;> decide
  | .group token inner => fun _ rest _ =>
    have written : (Expression.group token inner).written.toList ++ rest =
        ['('] ++ (inner.written.toList ++ ')' :: rest) := by simp [Expression.written]
    ⟨.openParen, inner.written.toList ++ ')' :: rest,
      .of_kind written .openParen rfl rfl fun _ => by decide⟩
  | .call _ function arguments => by
    intro legible rest _
    rcases function with ⟨_, name, _ | _, _⟩ | _
    case identifier.false =>
      simp only [Expression.legibleExpression, Bool.and_eq_true] at legible
      have opens :
          Breaks ('(' :: ((separated ", " (writtenAll arguments)).toList ++ ')' :: rest)) := by
        simp [Breaks, Lexeme.isWordChar, Lexeme.isNameChar]
      exact ⟨_, _, ⟨name.toList, by simp [Expression.written], .bareWord legible.1.1 opens⟩,
        fun named => by simp [Expression.isCommandWord] at named,
        fun leads => by simp [Expression.leads] at leads,
        fun _ => not_mem_structureKinds_of_isOperandKind legible.1.2⟩
    all_goals simp [Expression.legibleExpression] at legible
  | .identifier _ name false _ => by
    intro legible rest severs
    simp only [Expression.legibleExpression, Bool.and_eq_true] at legible
    refine ⟨_, rest, ⟨name.toList, by simp [Expression.written],
      .bareWord legible.1.1 severs.breaks⟩,
      fun _ => rfl, fun leads => .inl ?_,
      fun _ => not_mem_structureKinds_of_isOperandKind legible.1.2⟩
    have word : Lexeme.wordKind name.toList = .reserved .defaultWord := by
      simpa [Expression.leads, Expression.isCommandWord] using leads
    rw [word]
    rfl
  | .namespaced _ family name arguments => by
    intro legible rest severs
    cases arguments with
    | nil =>
      simp only [Expression.legibleExpression, Bool.and_eq_true, beq_iff_eq] at legible
      refine ⟨_, rest,
        ⟨name.toList, by simp [Expression.written, writtenAll, spacedWords_eq_followed],
        .bareWord legible.1.1 severs.breaks⟩, fun _ => rfl,
        fun leads => by simp [Expression.leads, Expression.isCommandWord] at leads, fun _ => ?_⟩
      have known := legible.1.2
      cases kind : Lexeme.wordKind name.toList <;>
        simp_all [TokenKind.family?, structureKinds]
    | cons => simp [Expression.legibleExpression] at legible
  | .element _ array _ => by
    intro legible rest severs
    rcases array with ⟨_, _, _ | _, _⟩ | _
    case identifier.true =>
      exact fronts_of_legibleArgument
        (by simpa [Expression.legibleExpression, Expression.legibleArgument] using legible) rfl rfl
        braces brackets severs
    all_goals simp [Expression.legibleExpression] at legible
  | .number .. | .boolean .. => fun _ _ severs =>
    fronts_of_legibleArgument
      (show Expression.legibleArgument names _ by simp [Expression.legibleArgument]) rfl rfl
      braces brackets severs
  | .identifier _ _ true _ | .string .. | .address .. | .bracket .. | .interpolated .. | .list ..
  | .hash .. => fun legible _ severs =>
    fronts_of_legibleArgument (show Expression.legibleArgument names _ by
      simpa [Expression.legibleExpression, Expression.legibleArgument] using legible) rfl rfl
      braces brackets severs
  | .invalid .. | .computed .. | .invocation .. | .mapping .. | .handler .. | .stringOperation ..
  | .classCommand .. | .regsub .. | .substitution .. | .regex .. | .target .. => fun legible => by
    simp [Expression.legibleExpression] at legible

/-! ## Expressions that are no commands -/

/-- An operator that is no argument is known by its text. -/
theorem isStatementOperator_of_startsWithOperator {operator : Operator} {token : Token}
    (kind : token.kind = operator.tokenKind) (literal : token.literal = operator.text)
    (starts : startsWithOperator operator.text.toList) : Precedence.isStatementOperator token := by
  have same : Precedence.isStatementOperator token =
      Precedence.isStatementOperator (firstToken operator.text.toList) :=
    isStatementOperator_congr (kind.trans (by cases operator <;> decide))
      (literal.trans (by cases operator <;> decide))
  rw [same]
  exact starts

/-- An expression that leads is not taken for a command. -/
theorem State.Faces.leads {state : State} {gap : List Char} {spacing : Spacing}
    {expression : Expression}
    (faces : state.Faces setting (gap ++ (expression.written.toList ++ rest)))
    (gapped : Gap gap spacing) (legible : expression.legibleExpression names)
    (leads : expression.leads) (severs : Severs rest) :
    (startsCommand state.advance.current && (state.advance.endsCommand ||
      !Precedence.isStatementOperator state.advance.lookahead)) = false := by
  obtain ⟨kind, later, fronts⟩ :=
    fronts_of_legible setting.braces setting.brackets expression legible rest severs
  obtain ⟨first, text, spells⟩ := fronts.text
  rw [text] at faces
  obtain ⟨known, -, -, stands⟩ := faces.token gapped spells
  have here : state.advance.current.kind = kind := known
  rcases fronts.leads leads with other | ⟨operator, behind, rfl, starts⟩
  · simp [startsCommand_of_not_isCommandKind (here ▸ other)]
  · obtain ⟨kind, literal, -, apart, -⟩ := stands.toFaces.operator
    have goesOn : operator.tokenKind.isTerminator = false := by cases operator <;> decide
    simp [isStatementOperator_of_startsWithOperator kind literal starts, State.endsCommand, kind,
      goesOn, apart]

theorem exclusives_of_leads {expression : Expression} (leads : expression.leads)
    (legible : expression.legibleExpression names) : expression.exclusives = .empty := by
  cases expression with
  | namespaced => simp [Expression.leads, Expression.isCommandWord] at leads
  | target => simp [Expression.legibleExpression] at legible
  | _ => rfl

/-- Nothing follows an operand where its command ends. -/
theorem Setting.Closes.follows {rank : Nat} (closes : setting.Closes rest) :
    setting.Follows rank rest :=
  ⟨closes.stops .operand, fun state faces => .inl (closes.ends state faces)⟩

/-- What is no command is an expression, which may be the name of one. -/
theorem Yields.nameOrExpression {state : State} {post : Option Expression → State → Prop}
    (coherent : state.Coherent)
    (leads : (startsCommand state.current && (state.endsCommand ||
      !Precedence.isStatementOperator state.lookahead)) = false)
    (read : Yields (language.expression .lowest) state fun result next =>
      ∃ name, result = some name ∧ (next.endsCommand = true ∧ post (some name) next ∨
        next.endsCommand = false ∧ Yields language.arguments next fun given last =>
          post (some (.invocation name.token name given)) last)) :
    Yields language.commandOrExpression state post := by
  change Yields (language.parse .commandOrExpression) _ _
  refine .rule coherent ?_
  change Yields (commandOrExpression language) _ _
  simp only [commandOrExpression, Yields.get_bind, leads, Bool.false_eq_true, if_false]
  refine read.bind ?_
  rintro _ next ⟨name, rfl, ⟨ends, holds⟩ | ⟨goesOn, given⟩⟩
  · simp only [Yields.endsCommand_bind, ends, if_true]
    exact .pure holds
  · simp only [Yields.endsCommand_bind, goesOn, Bool.false_eq_true, if_false]
    exact given.bind fun copies last holds => .pure holds

/-- An expression is read in the place of a command. -/
theorem readsCommand_expression {expression : Expression} (stated : Stated names expression)
    (legible : expression.legibleExpression names) (leads : expression.leads) :
    ReadsCommand names expression := by
  intro setting state gap rest spacing admits gapped faces closes _ _
  refine .nameOrExpression faces.ahead.advance
    (State.Faces.leads faces gapped legible leads closes.severs) ?_
  refine (stated.yields admits gapped faces fun _ _ => closes.follows).mono ?_
  rintro _ last ⟨copy, rfl, same, stands⟩
  refine ⟨copy, rfl, .inl ⟨(closes.knowing _).ends last stands.toFaces, copy, rfl, same, ?_⟩⟩
  rwa [exclusives_of_leads leads legible, Setting.after, Setting.excluding_empty]

/-! ## Commands that are named by an expression -/

/-- Words leave the expression in front of them alone. -/
theorem follows_arguments_of_legible {word : Expression} {words : List Expression} {rank : Nat}
    (legible : word.legibleArgument names) (loose : isLooseArgument word) (positive : 0 < rank)
    (closes : setting.Closes rest) :
    setting.Follows rank ((spacedWords (writtenAll (word :: words))).toList ++ rest) := by
  have text : (spacedWords (writtenAll (word :: words))).toList ++ rest =
      [' '] ++ (word.written.toList ++ ((spacedWords (writtenAll words)).toList ++ rest)) := by
    simp [writtenAll, spacedWords_eq_followed]
  rw [text]
  refine ⟨Setting.stops_space .operand, fun state faces => .inr ⟨?_, ?_⟩⟩
  · simp [gluedNegative, Spacing.isAdjacent, faces.space_of_cons]
  · rw [ofToken_lookahead faces legible loose (severs_spacedWords closes.severs)]
    exact positive

/-- A command that is named by an expression is read back. -/
theorem readsCommand_named {token : Token} {name : Expression} {arguments : List Expression}
    (stated : Stated names name) (legible : name.legibleExpression names) (leads : name.leads)
    (notBare : name.isBare = false) (argues : ArguesAll (names.plus name.names) arguments)
    (legibleWords : legibleArguments (names.plus name.names) arguments)
    (loose : arguments.head?.any isLooseArgument) :
    ReadsCommand names (.invocation token name arguments) := by
  intro setting state gap rest spacing admits gapped faces closes _ _
  cases argues with
  | nil => simp at loose
  | @cons _ word words argues later =>
    simp only [legibleArguments, Bool.and_eq_true] at legibleWords
    have faced : state.Faces setting (gap ++ (name.written.toList ++
        ((spacedWords (writtenAll (word :: words))).toList ++ rest))) := by
      simpa [Expression.written] using faces
    refine .nameOrExpression faces.ahead.advance
      (State.Faces.leads faced gapped legible leads (severs_spacedWords closes.severs)) ?_
    refine (stated.yields admits gapped faced fun _ positive =>
      follows_arguments_of_legible legibleWords.1 (by simpa using loose) positive closes).mono ?_
    rintro _ next ⟨copy, rfl, same, stands⟩
    have spaced : next.Faces (setting.knowing name.names) ([' '] ++ (word.written.toList ++
        ((spacedWords (writtenAll words)).toList ++ rest))) := by
      simpa [writtenAll, spacedWords_eq_followed] using stands.toFaces
    refine ⟨copy, rfl, .inr ⟨argues.begins.goesOn spaced (severs_spacedWords closes.severs), ?_⟩⟩
    refine (readsWords_arguments.yields (.cons argues later) (admits.knowing _) (closes.knowing _)
      stands).mono ?_
    rintro copies last ⟨alike, stands⟩
    have declares : (Expression.invocation token name (word :: words)).names =
        name.names ++ wordNames (word :: words) := by
      rcases name with ⟨_, _, _ | _, _⟩ | _
      case identifier.false => simp [Expression.isBare] at notBare
      all_goals simp [Expression.names, Node.declares, wordNames]
    refine ⟨_, rfl, by simp [Expression.shape, same, shapeAll_of_copies alike], ?_⟩
    rw [Setting.knowing_knowing, ← declares] at stands
    simpa [Expression.exclusives, Setting.after] using stands

/-! ## Statements that are commands or expressions -/

/-- A command starts with the word, and what is behind the word does not go on with it. -/
structure StartsWord (command : Expression) (name : String) (later : List Char) : Prop where
  written : command.written.toList = name.toList ++ later
  bare : Lexeme.isBareWord name.toList
  severs : ∀ ⦃rest : List Char⦄, Severs rest → Severs (later ++ rest)
  opens : command.opensStatement → Lexeme.wordKind name.toList ∉ structureKinds

/-- Words behind a name do not go on with it. -/
theorem StartsWord.spaced {command : Expression} {name : String} {words : List String}
    (written : command.written = name ++ spacedWords words) (bare : Lexeme.isBareWord name.toList)
    (opens : command.opensStatement → Lexeme.wordKind name.toList ∉ structureKinds) :
    StartsWord command name (spacedWords words).toList :=
  ⟨by rw [written, String.toList_append], bare, fun _ => severs_spacedWords, opens⟩

theorem not_mem_structureKinds_of_isFamilyCommand {family : Family} {name : String}
    (known : isFamilyCommand family name) : Lexeme.wordKind name.toList ∉ structureKinds := by
  unfold isFamilyCommand at known
  split at known
  · rename_i kind
    simp [kind, structureKinds]
  · rename_i kind
    simp [kind, structureKinds]
  · simp at known

/-- A command starts with a word, unless an expression names it. -/
theorem startsWord_of_legibleCommand {command : Expression}
    (legible : command.legibleCommand names) :
    (∃ name later, StartsWord command name later) ∨
      ∃ token name arguments, command = .invocation token name arguments ∧
        name.legibleExpression names := by
  cases command with
  | invocation token name arguments =>
    rcases name with ⟨inner, name, _ | _, isReserved⟩ | _
    case identifier.false =>
      refine .inl ⟨name, _, .spaced (by simp [Expression.written]; rfl) ?_ ?_⟩
      · simp only [Expression.legibleCommand] at legible
        split at legible
        · rename_i isSet
          rw [beq_iff_eq.1 isSet]
          decide
        · simp only [isLegibleWord, Bool.and_eq_true] at legible
          exact legible.1.1.1.1.1.1.1
      · intro opens
        exact not_mem_structureKinds_of_isOperandKind
          (by simpa [Expression.opensStatement] using opens)
    all_goals
      simp only [Expression.legibleCommand, Bool.and_eq_true] at legible
      exact .inr ⟨token, _, arguments, rfl, legible.1.1.1⟩
  | namespaced token family name arguments =>
    simp only [Expression.legibleCommand, isLegibleWord, Bool.and_eq_true] at legible
    exact .inl ⟨name, _, .spaced (by rw [Expression.written]) legible.1.1.1.1.1.1
      fun _ => not_mem_structureKinds_of_isFamilyCommand legible.1.1.1.2⟩
  | stringOperation token operation arguments =>
    exact .inl ⟨"string", ' ' :: (operation.toList ++ (spacedWords (writtenAll arguments)).toList),
      by simp [Expression.written], by decide, fun _ _ => severs_space, fun _ => by decide⟩
  | classCommand token subcommand options arguments =>
    exact .inl ⟨"class", ' ' :: (subcommand.toList ++ ((spacedWords options).toList ++
      (spacedWords (writtenAll arguments)).toList)), by simp [Expression.written], by decide,
      fun _ _ => severs_space, fun _ => by decide⟩
  | regsub token flags pattern input replacement result =>
    exact .inl ⟨"regsub", (spacedWords flags).toList ++ (' ' :: (pattern.written.toList ++
      (' ' :: (input.written.toList ++ (' ' :: (replacement.written.toList ++
        ' ' :: result.written.toList)))))), by simp [Expression.written], by decide,
      fun rest _ => by rw [List.append_assoc]; exact severs_spacedWords severs_space,
      fun _ => by decide⟩
  | target token kind arguments =>
    exact .inl ⟨kind.keyword, _, .spaced (by rw [Expression.written]) (by cases kind <;> decide)
      fun _ => by cases kind <;> decide⟩
  | _ => simp [Expression.legibleCommand] at legible

/-- Commands start like operands. -/
theorem startsOperand_of_legibleCommand {command : Expression}
    (legible : command.legibleCommand names) :
    command.written.toList.head?.any Lexeme.startsOperand := by
  rcases startsWord_of_legibleCommand legible with
    ⟨name, later, starts⟩ | ⟨token, name, arguments, rfl, named⟩
  · rw [starts.written]
    exact startsOperand_append (startsOperand_of_isBareWord starts.bare)
  · rw [Expression.written, String.toList_append]
    exact startsOperand_append (startsOperand_of_legible name named)

/-- What stands for a command is not taken for another statement. -/
theorem opens_of_opensStatement {value : Expression}
    (legible : value.legibleCommand names ∨ value.legibleExpression names)
    (opens : value.opensStatement) (braces brackets : Nat) (severs : Severs rest) :
    ∃ kind first later, value.written.toList ++ rest = first ++ later ∧
      Spells braces brackets first later kind ∧ kind ∉ structureKinds := by
  rcases legible with legible | legible
  · rcases startsWord_of_legibleCommand legible with
      ⟨name, later, starts⟩ | ⟨token, name, arguments, rfl, named⟩
    · exact ⟨_, _, _, by rw [starts.written, List.append_assoc],
        .bareWord starts.bare (starts.severs severs).breaks, starts.opens opens⟩
    · obtain ⟨kind, later, fronts⟩ := fronts_of_legible braces brackets name named
        ((spacedWords (writtenAll arguments)).toList ++ rest) (severs_spacedWords severs)
      obtain ⟨first, text, spells⟩ := fronts.text
      exact ⟨kind, first, later, by rw [← text]; simp [Expression.written], spells,
        fronts.opens opens⟩
  · obtain ⟨kind, later, fronts⟩ := fronts_of_legible braces brackets value legible rest severs
    obtain ⟨first, text, spells⟩ := fronts.text
    exact ⟨kind, first, later, text, spells, fronts.opens opens⟩

end Parser

end IRule
