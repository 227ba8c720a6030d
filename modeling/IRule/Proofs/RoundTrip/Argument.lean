import IRule.Proofs.RoundTrip.Braced
import IRule.Proofs.RoundTrip.Target

/-!
# Arguments read back

The words behind the name of a command, up to where it ends. A command stays one as long as
the first of them is no operator.
-/

namespace IRule

namespace Parser

variable {names : Names} {setting : Setting} {rest : List Char}

/-- What starts a piece of a word on the same line goes on with the command. -/
theorem endsCommand_of_starts {state : State} {text : List Char}
    (faces : state.Faces setting ([' '] ++ (text ++ rest))) (starts : Lexeme.Starts text) :
    state.endsCommand = false := by
  obtain ⟨kind, spacing⟩ := faces.startsPiece .space starts
  have goesOn : state.lookahead.kind.isTerminator = false := by
    cases known : state.lookahead.kind <;> simp_all [TokenKind.isTerminator, Lexeme.boundaries]
  simp [State.endsCommand, goesOn, spacing]

/-! ## Words up to the end of a command -/

theorem stops_spacedWords {words : List String} (stops : setting.Stops .word rest) :
    setting.Stops .word ((spacedWords words).toList ++ rest) := by
  cases words with
  | nil => simpa [spacedWords_eq_followed] using stops
  | cons => simpa [spacedWords_eq_followed] using Setting.stops_space .word

theorem severs_spacedWords {words : List String} (severs : Lexeme.Severs rest) :
    Lexeme.Severs ((spacedWords words).toList ++ rest) := by
  cases words with
  | nil => simpa [spacedWords_eq_followed] using severs
  | cons => simpa [spacedWords_eq_followed] using severs_space

theorem breaks_spacedWords {words : List String} (breaks : Lexeme.Breaks rest) :
    Lexeme.Breaks ((spacedWords words).toList ++ rest) := by
  cases words with
  | nil => simpa [spacedWords_eq_followed] using breaks
  | cons => simpa [spacedWords_eq_followed] using breaks_space

/-- The production reads words up to the end of a command. -/
structure ReadsWords (production : Parse (List Expression)) : Prop where
  none : ∀ ⦃state : State⦄ ⦃post : List Expression → State → Prop⦄, state.Coherent →
    state.endsCommand = true → post [] state → Yields production state post
  one : ∀ ⦃state : State⦄ ⦃post : List Expression → State → Prop⦄
    ⦃holds : Expression → State → Prop⦄, state.Coherent → state.endsCommand = false →
    Yields (language.word .word) state.advance (fun result next =>
      ∃ value, result = some value ∧ holds value next) →
    (∀ value next, holds value next →
      Yields production next fun values last => post (value :: values) last) →
    Yields production state post

theorem readsWords_arguments : ReadsWords language.arguments := by
  refine ⟨fun state post coherent ends holds => ?_,
    fun state post holds coherent goesOn read later => ?_⟩
  · change Yields (language.parse .arguments) _ _
    refine .rule coherent ?_
    change Yields (arguments language) _ _
    simp only [arguments, Yields.endsCommand_bind, ends, if_true]
    exact .pure holds
  · change Yields (language.parse .arguments) _ _
    refine .rule coherent ?_
    change Yields (arguments language) _ _
    simp only [arguments, Yields.endsCommand_bind, goesOn, Bool.false_eq_true, if_false,
      Yields.advance_bind]
    refine read.bind ?_
    rintro _ next ⟨value, rfl, held⟩
    refine (later value next held).bind ?_
    rintro values last holds
    exact .pure holds

/-- Behind its pattern, `regsub` takes words like any other command. -/
theorem readsWords_regsubArguments : ReadsWords (language.regsubArguments false) := by
  refine ⟨fun state post coherent ends holds => ?_,
    fun state post holds coherent goesOn read later => ?_⟩
  · change Yields (language.parse (.regsubArguments false)) _ _
    refine .rule coherent ?_
    change Yields (regsubArguments language false) _ _
    simp only [regsubArguments, Yields.endsCommand_bind, ends, if_true]
    exact .pure holds
  · change Yields (language.parse (.regsubArguments false)) _ _
    refine .rule coherent ?_
    change Yields (regsubArguments language false) _ _
    simp only [regsubArguments, regsubArgument, Yields.endsCommand_bind, goesOn, Bool.false_and,
      Bool.false_eq_true, if_false, Yields.advance_bind]
    refine read.bind ?_
    rintro _ next ⟨value, rfl, held⟩
    refine (later value next held).bind ?_
    rintro values last holds
    exact .pure holds

/-- Words behind a name are read back up to the end of the command. -/
theorem ReadsWords.yields {production : Parse (List Expression)} (takes : ReadsWords production)
    {state : State} {words : List Expression} (argues : ArguesAll names words)
    (admits : setting.Admits names) (closes : setting.Closes rest)
    (stands : state.Stands setting ((spacedWords (writtenAll words)).toList ++ rest)) :
    Yields production state fun result last =>
      List.Forall₂ Expression.Copies result words ∧
        last.Stands (setting.knowing (wordNames words)) rest := by
  induction argues generalizing setting state with
  | nil =>
    have ended : state.Stands setting rest := by
      simpa [writtenAll, spacedWords_eq_followed] using stands
    exact takes.none stands.coherent (closes.ends state ended.toFaces) ⟨.nil, by simpa using ended⟩
  | @cons names word words argues _ ih =>
    obtain ⟨reads, begins⟩ := argues
    have faced : state.Stands setting ([' '] ++ (word.written.toList ++
        ((spacedWords (writtenAll words)).toList ++ rest))) := by
      simpa [writtenAll, spacedWords_eq_followed] using stands
    have stops : setting.Stops .word ((spacedWords (writtenAll words)).toList ++ rest) :=
      stops_spacedWords (closes.stops .word)
    refine takes.one stands.coherent (begins.goesOn faced.toFaces stops.severs)
      (reads admits .space faced.toFaces stops) ?_
    rintro copy next ⟨copies, stands⟩
    refine (ih (admits.knowing _) (closes.knowing _) stands).mono ?_
    rintro later last ⟨alike, stands⟩
    exact ⟨.cons copies alike, by simpa [Setting.knowing_knowing] using stands⟩

/-- Words are read back where nothing has been reported. -/
theorem State.Awaits.arguments {state : State} {words : List Expression}
    (awaits : state.Awaits (· = []) setting ((spacedWords (writtenAll words)).toList ++ rest))
    (argues : ArguesAll names words) (admits : setting.Admits names)
    (closes : setting.Closes rest) :
    Yields language.arguments state fun result last =>
      List.Forall₂ Expression.Copies result words ∧
        last.Awaits (· = []) (setting.knowing (wordNames words)) rest := by
  simp only [State.awaits_iff_stands] at awaits ⊢
  exact readsWords_arguments.yields argues admits closes awaits

/-! ## First arguments -/

/-- The strength of an operator is a matter of its kind and its literal; only
parentheses ask what stands in front of them. -/
theorem ofToken_congr {first second : Token} (kind : first.kind = second.kind)
    (literal : first.literal = second.literal) (notParen : second.kind ≠ .openParen) :
    Precedence.ofToken first = Precedence.ofToken second := by
  have plus : first.isPlus = second.isPlus := by rw [Token.isPlus, Token.isPlus, kind, literal]
  unfold Precedence.ofToken
  rw [plus, kind]
  split
  · rfl
  · split <;> first | rfl | exact absurd ‹_› notParen

/-- Whether a token is an operator is a matter of its kind and its literal. -/
theorem isStatementOperator_congr {first second : Token} (kind : first.kind = second.kind)
    (literal : first.literal = second.literal) :
    Precedence.isStatementOperator first = Precedence.isStatementOperator second := by
  by_cases paren : second.kind = .openParen
  · simp [Precedence.isStatementOperator, kind, paren]
  · simp only [Precedence.isStatementOperator, kind, ofToken_congr kind literal paren]

/-- Literals and lists are no operators. -/
theorem isStatementOperator_of_literal {token : Token}
    (literal : token.kind ∈ [.openBrace, .number, .address, .illegal, .minus, .string, .reference,
      .dollar, .openBracket]) : Precedence.isStatementOperator token = false := by
  simp only [List.mem_cons, List.not_mem_nil, or_false] at literal
  rcases literal with kind | kind | kind | kind | kind | kind | kind | kind | kind <;>
    simp [Precedence.isStatementOperator, Precedence.ofToken, Token.isPlus, kind]

/-- A reference starts like a literal. -/
theorem referenceText_head (name : String) : (referenceText name).toList.head? = some '$' := by
  unfold referenceText bracedReference
  split <;> simp

/-- A number starts like a literal. -/
theorem int64Text_head (value : Int64) :
    (Text.int64Text value).toList.head?.any Lexeme.startsLiteral := by
  rw [Text.int64Text, Text.toList_toString]
  split
  · obtain ⟨char, text, digits⟩ := List.exists_cons_of_ne_nil
      (Nat.toDigits_ne_nil (n := value.toInt.toNat) (b := 10))
    have digit := Text.isDigit_of_mem_toDigits (digits ▸ List.mem_cons_self ..)
    rw [digits]
    simp [Lexeme.startsLiteral, digit]
  · rfl

/-- A bare word starts like one. -/
theorem starts_of_isBareWord {text : List Char} (bare : Lexeme.isBareWord text) :
    Lexeme.Starts text := by
  cases text with
  | nil => simp [Lexeme.isBareWord] at bare
  | cons char later =>
    simp only [Lexeme.isBareWord, Bool.and_eq_true] at bare
    exact ⟨char, later, rfl, by simp [Lexeme.startsPiece, bare.1]⟩

theorem starts_of_startsLiteral {text : List Char} (literal : text.head?.any Lexeme.startsLiteral) :
    ∃ char later, text = char :: later ∧ Lexeme.startsLiteral char := by
  cases text with
  | nil => simp at literal
  | cons char later => exact ⟨char, later, rfl, by simpa using literal⟩

theorem exists_of_isBare {word : Expression} (bare : word.isBare) :
    ∃ token name isReserved, word = .identifier token name false isReserved := by
  rcases word with ⟨token, name, _ | _, isReserved⟩ | _
  case identifier.false => exact ⟨token, name, isReserved, rfl⟩
  all_goals simp [Expression.isBare] at bare

/-- A legible word that is no bare one starts like a literal, or is a boolean or a list. -/
theorem written_of_legibleArgument {word : Expression} (legible : word.legibleArgument names)
    (notBare : word.isBare = false) :
    (Lexeme.isBareWord word.written.toList ∧ isOperatorWord word.written = false) ∨
      word.written.toList.head?.any Lexeme.startsLiteral ∨
      word.written.toList.head? = some '\x7b' := by
  cases word with
  | identifier token name isVariable isReserved =>
    cases isVariable with
    | false => simp [Expression.isBare] at notBare
    | true =>
      refine .inr (.inl ?_)
      simp only [Expression.written, if_true, referenceText_head]
      rfl
  | number token value => exact .inr (.inl (int64Text_head value))
  | boolean token value =>
    simp only [Expression.written]
    cases value <;> exact .inl ⟨by decide, by decide⟩
  | string | interpolated | bracket =>
    exact .inr (.inl (by simp [Expression.written, Lexeme.startsLiteral]))
  | list | hash => exact .inr (.inr (by simp [Expression.written]))
  | address token text =>
    simp only [Expression.legibleArgument, Lexeme.isAddress, Bool.and_eq_true] at legible
    refine .inr (.inl ?_)
    rw [Expression.written]
    cases text : text.toList with
    | nil => simp [text] at legible
    | cons char later =>
      have digit : char.isDigit := by simpa [text] using legible.1
      simp [Lexeme.startsLiteral, digit]
  | element token array key =>
    refine .inr (.inl ?_)
    cases array with
    | identifier inner name isVariable isReserved =>
      cases isVariable with
      | false => simp [Expression.legibleArgument] at legible
      | true =>
        simp only [Expression.written, if_true, String.toList_append, List.head?_append,
          referenceText_head]
        rfl
    | _ => simp [Expression.legibleArgument] at legible
  | _ => simp [Expression.legibleArgument] at legible

/-- What such a word starts with. -/
theorem starts_of_legibleArgument {word : Expression} (legible : word.legibleArgument names)
    (notBare : word.isBare = false) :
    Lexeme.Starts word.written.toList ∨ word.written.toList.head? = some '\x7b' := by
  rcases written_of_legibleArgument legible notBare with ⟨bare, -⟩ | literal | brace
  · exact .inl (starts_of_isBareWord bare)
  · obtain ⟨char, later, written, starts⟩ := starts_of_startsLiteral literal
    exact .inl ⟨char, later, written, by simp [Lexeme.startsPiece, starts]⟩
  · exact .inr brace

/-- A legible bare word is a run of tokens. -/
theorem run_of_legibleArgument {token : Token} {name : String} {isReserved : Bool}
    (legible : (Expression.identifier token name false isReserved).legibleArgument names) :
    name.toList ≠ [] ∧ name.toList.head? ≠ some ')' ∧ Lexeme.isLiteralRun 0 name.toList := by
  simp only [Expression.legibleArgument, isLiteralWord, Bool.and_eq_true, Bool.not_eq_true',
    List.isEmpty_eq_false_iff, bne_iff_ne] at legible
  obtain ⟨⟨⟨⟨⟨nonempty, opening⟩, run⟩, -⟩, -⟩, -⟩ := legible
  exact ⟨nonempty, opening, run⟩

theorem begins_of_legibleArgument {word : Expression} (legible : word.legibleArgument names) :
    Begins word.written.toList := by
  cases bare : word.isBare with
  | false =>
    rcases starts_of_legibleArgument legible bare with starts | brace
    · exact begins_of_starts starts
    · exact begins_of_openBrace brace
  | true =>
    obtain ⟨token, name, isReserved, rfl⟩ := exists_of_isBare bare
    obtain ⟨nonempty, opening, run⟩ := run_of_legibleArgument legible
    simpa [Expression.written] using begins_of_isLiteralRun nonempty opening run

/-- The name of a command is a token of its own. -/
theorem State.Faces.name {state : State} {gap : List Char} {spacing : Spacing} {name : String}
    (faces : state.Faces setting (gap ++ (name.toList ++ rest))) (gapped : Gap gap spacing)
    (bare : Lexeme.isBareWord name.toList) (breaks : Lexeme.Breaks rest) :
    state.advance.current.kind = Lexeme.wordKind name.toList ∧
      state.advance.current.literal = name ∧ state.advance.current.isPlus = false ∧
      state.advance.Stands setting rest := by
  obtain ⟨kind, literal, -, stands⟩ := faces.token gapped (.bareWord bare breaks)
  have isWord := Lexeme.wordKind_isWord name.toList
  have notString : Lexeme.wordKind name.toList ≠ .string := by
    intro same
    simp [same, TokenKind.isWord] at isWord
  rw [Lexeme.literalOf_eq _ notString, String.ofList_toList] at literal
  rw [setting.delimit_of_isWord isWord] at stands
  have text : state.advance.current.literal = name := literal
  refine ⟨kind, text, ?_, stands⟩
  have notPlus : name ≠ "+" := by
    rintro rfl
    simp [Lexeme.isBareWord, Lexeme.isNameStart] at bare
  simp [Token.isPlus, text, notPlus]

/-- A name that is no operator is none where it is read. -/
theorem State.Faces.notOperator {state : State} {gap : List Char} {spacing : Spacing}
    {name : String} (faces : state.Faces setting (gap ++ (name.toList ++ rest)))
    (gapped : Gap gap spacing) (bare : Lexeme.isBareWord name.toList) (breaks : Lexeme.Breaks rest)
    (plain : isOperatorWord name = false) :
    Precedence.isStatementOperator state.lookahead = false := by
  obtain ⟨kind, literal, -, -⟩ := faces.name gapped bare breaks
  rw [← plain, isOperatorWord]
  exact isStatementOperator_congr kind literal

/-- Kinds of the first tokens of words that are operands. -/
def operandKinds : List TokenKind :=
  [.number, .address, .reserved .trueWord, .reserved .falseWord, .string, .reference, .openBracket,
    .openBrace]

/-- What the text of a word other than a bare one starts with. -/
theorem opens_of_legibleArgument {word : Expression} (legible : word.legibleArgument names)
    (notBare : word.isBare = false) (braces brackets : Nat) (rest : List Char)
    (severs : Lexeme.Severs rest) :
    ∃ kind ∈ operandKinds, ∃ first later, word.written.toList ++ rest = first ++ later ∧
      Lexeme.Spells braces brackets first later kind ∧
        (kind = .openBrace → word.opensStatement = false) := by
  have breaks := severs.breaks
  cases word with
  | identifier token name isVariable isReserved =>
    cases isVariable with
    | false => simp [Expression.isBare] at notBare
    | true =>
      simp only [Expression.legibleArgument, Bool.and_eq_true] at legible
      exact ⟨_, by simp [operandKinds], _, _, by simp only [Expression.written, if_true],
        spells_referenceText legible.1 breaks, by simp⟩
  | number token value =>
    exact ⟨_, by simp [operandKinds], _, _, by simp only [Expression.written],
      .number value breaks, by simp⟩
  | address token text =>
    simp only [Expression.legibleArgument] at legible
    exact ⟨_, by simp [operandKinds], _, _, by simp only [Expression.written],
      .address legible breaks.endsDigits, by simp⟩
  | boolean token value =>
    have bare : Lexeme.isBareWord (if value then "true" else "false").toList := by
      cases value <;> decide
    exact ⟨_, by cases value <;> decide, _, _, by simp only [Expression.written],
      .bareWord bare breaks, fun kind => absurd kind (by cases value <;> decide)⟩
  | string token text =>
    simp only [Expression.legibleArgument, isCutInto, Bool.and_eq_true] at legible
    exact ⟨_, by simp [operandKinds], '"' :: text.toList ++ ['"'], rest,
      by simp [Expression.written],
      .string (Lexeme.Enclosed.of_isEnclosed legible.1).2, by simp⟩
  | interpolated token raw parts =>
    simp only [Expression.legibleArgument, isCutInto, Bool.and_eq_true] at legible
    exact ⟨_, by simp [operandKinds], '"' :: (writtenParts parts).toList ++ ['"'], rest,
      by simp [Expression.written], .string (Lexeme.Enclosed.of_isEnclosed legible.2.1).2,
      by simp⟩
  | list token elements =>
    exact ⟨_, by simp [operandKinds], ['\x7b'],
      (separated " " (writtenAll elements)).toList ++ '\x7d' :: rest, by simp [Expression.written],
      .openBrace, fun _ => rfl⟩
  | hash token pairs =>
    exact ⟨_, by simp [operandKinds], ['\x7b'],
      (separated ", " (writtenPairs ": " pairs)).toList ++ '\x7d' :: rest,
      by simp [Expression.written], .openBrace, fun _ => rfl⟩
  | bracket token commands =>
    exact ⟨_, by simp [operandKinds], ['['],
      (separated "; " (writtenAll commands)).toList ++ ']' :: rest, by simp [Expression.written],
      .openBracket, by simp⟩
  | element token array key =>
    cases array with
    | identifier inner name isVariable isReserved =>
      cases isVariable with
      | false => simp [Expression.legibleArgument] at legible
      | true =>
        simp only [Expression.legibleArgument, Bool.and_eq_true] at legible
        exact ⟨_, by simp [operandKinds], (referenceText name).toList,
          '(' :: (key.written.toList ++ ')' :: rest), by simp [Expression.written],
          spells_referenceText legible.1.1
            (by simp [Lexeme.Breaks, Lexeme.isWordChar, Lexeme.isNameChar]), by simp⟩
    | _ => simp [Expression.legibleArgument] at legible
  | _ => simp [Expression.legibleArgument] at legible

/-- The first token of an argument can be told from its text. -/
theorem State.Faces.argument {state : State} {word : Expression}
    (faces : state.Faces setting ([' '] ++ (word.written.toList ++ rest)))
    (legible : word.legibleArgument names) (severs : Lexeme.Severs rest) :
    state.lookahead.spacing = { space := true } ∧
      (word.isBare = false ∧ state.lookahead.kind ∈ operandKinds ∨
        ∃ token name isReserved, word = .identifier token name false isReserved ∧
          state.lookahead.kind = (firstToken name.toList).kind ∧
          state.lookahead.literal = (firstToken name.toList).literal) := by
  cases bare : word.isBare with
  | true =>
    obtain ⟨token, name, isReserved, rfl⟩ := exists_of_isBare bare
    obtain ⟨nonempty, -, run⟩ := run_of_legibleArgument legible
    rw [Expression.written, if_neg Bool.false_ne_true] at faces
    obtain ⟨apart, first, later, heads⟩ := faces.heads .space nonempty run severs
    refine ⟨apart, .inr ⟨token, name, isReserved, rfl, heads.kind, heads.literal.trans ?_⟩⟩
    rw [firstToken, ← heads.length, heads.whole, List.take_left]
  | false =>
    obtain ⟨kind, listed, first, later, text, spells, -⟩ :=
      opens_of_legibleArgument legible bare setting.braces setting.brackets rest severs
    rw [text] at faces
    obtain ⟨known, -, apart, -⟩ := faces.token .space spells
    exact ⟨apart, .inl ⟨rfl, known ▸ listed⟩⟩

/-- The first argument of a command is no operator. -/
theorem not_isStatementOperator {state : State} {word : Expression}
    (faces : state.Faces setting ([' '] ++ (word.written.toList ++ rest)))
    (legible : word.legibleArgument names) (argument : isArgument word)
    (severs : Lexeme.Severs rest) :
    Precedence.isStatementOperator state.lookahead = false := by
  obtain ⟨-, ⟨-, kind⟩ | ⟨token, name, isReserved, rfl, kind, literal⟩⟩ :=
    faces.argument legible severs
  · simp only [operandKinds, List.mem_cons, List.not_mem_nil, or_false] at kind
    rcases kind with kind | kind | kind | kind | kind | kind | kind | kind <;>
      simp [Precedence.isStatementOperator, Precedence.ofToken, Token.isPlus, kind]
  · rw [isStatementOperator_congr kind literal]
    simpa [isArgument, startsWithOperator] using argument

/-- The first argument behind an expression is no operator at all. -/
theorem ofToken_lookahead {state : State} {word : Expression}
    (faces : state.Faces setting ([' '] ++ (word.written.toList ++ rest)))
    (legible : word.legibleArgument names) (loose : isLooseArgument word)
    (severs : Lexeme.Severs rest) :
    (Precedence.ofToken state.lookahead).rank = Precedence.lowest.rank := by
  obtain ⟨apart, ⟨-, kind⟩ | ⟨token, name, isReserved, rfl, kind, literal⟩⟩ :=
    faces.argument legible severs
  · simp only [operandKinds, List.mem_cons, List.not_mem_nil, or_false] at kind
    rcases kind with kind | kind | kind | kind | kind | kind | kind | kind <;>
      simp [Precedence.ofToken, Token.isPlus, kind]
  · by_cases paren : state.lookahead.kind = .openParen
    · simp [Precedence.ofToken, Token.isPlus, paren, apart, Spacing.isAdjacent]
    · rw [ofToken_congr kind literal (kind ▸ paren)]
      simpa [isLooseArgument] using loose

/-! ## Starting a command -/

/-- Words behind the name of a command leave it a command. -/
theorem goesOn_of_legibleArguments {state : State} {words : List Expression}
    (legible : legibleArguments names words) (argument : words.head?.all isArgument)
    (closes : setting.Closes rest)
    (stands : state.Stands setting ((spacedWords (writtenAll words)).toList ++ rest)) :
    (state.endsCommand || !Precedence.isStatementOperator state.lookahead) = true := by
  cases words with
  | nil =>
    have ended : state.Stands setting rest := by
      simpa [writtenAll, spacedWords_eq_followed] using stands
    simp [closes.ends state ended.toFaces]
  | cons word words =>
    simp only [legibleArguments, Bool.and_eq_true] at legible
    have faced : state.Stands setting ([' '] ++ (word.written.toList ++
        ((spacedWords (writtenAll words)).toList ++ rest))) := by
      simpa [writtenAll, spacedWords_eq_followed] using stands
    have plain := not_isStatementOperator faced.toFaces legible.1 (by simpa using argument)
      (severs_spacedWords closes.severs)
    simp [plain]

/-- What starts a command and is not followed by an operator is one. -/
theorem Yields.command {state : State} {post : Option Expression → State → Prop}
    (coherent : state.Coherent) (starts : startsCommand state.current)
    (goesOn : (state.endsCommand || !Precedence.isStatementOperator state.lookahead) = true)
    (yields : Yields (command language) state post) :
    Yields language.commandOrExpression state post := by
  change Yields (language.parse .commandOrExpression) _ _
  refine .rule coherent ?_
  change Yields (commandOrExpression language) _ _
  simp only [commandOrExpression, Yields.get_bind, starts, goesOn, Bool.and_self, if_true]
  exact yields

end Parser

end IRule
