import IRule.Proofs.Parser.Accounting

/-!
# Recovery and words

Words are drawn from the rule: their tokens are those at hand, their texts are literals
and slices of the text. The body of a braced word and the scripts in a string are read
from the place where they stand.
-/

namespace IRule.Parser

open Text

variable {source : List Char} {declared : List String} {grammar other : Grammar} {state : State}

/-! ## Recovery -/

/-- Behind an unclosed brace the rest is passed over. -/
theorem drain_accounts (lawful : Lawful source declared grammar other)
    (sound : Sound source declared state) :
    Accounts source declared (drain grammar) (drain other) state fun _ _ => True := by
  unfold drain
  simp only [Accounts.isAhead_bind]
  refine .ite (fun _ => .pure sound trivial) fun _ => .advance_bind ?_
  exact lawful .drain _ sound.advance trivial

/-- The body of a braced word stands in the rule. -/
theorem Sound.captured (sound : Sound source declared state) {word : RawBraced} {lexer : Lexer}
    (captured : state.lexer.capture? state.current = some (word, lexer)) :
    Quotes source (String.ofList word.body) := by
  obtain ⟨before, placed⟩ := sound.placed
  obtain ⟨passed, rest, split, -⟩ := placed.aligned.captured_split captured
  refine quotes_of_stands ?_
  rw [String.toList_ofList]
  exact List.IsInfix.trans ⟨passed, '\x7d' :: rest, by simp [split]⟩ sound.source_stands

/-- The body of a brace is quoted from the rule, and the parser goes on behind it. -/
theorem captureBrace_accounts (lawful : Lawful source declared grammar other)
    (sound : Sound source declared state) :
    Accounts source declared (captureBrace grammar) (captureBrace other) state
      fun result last => ∀ body ∈ result, Quotes source (String.ofList body) ∧
        ∃ word lexer, state.lexer.capture? state.current = some (word, lexer) ∧
          body = word.body ∧ last = state.afterCapture word lexer := by
  unfold captureBrace
  simp only [Accounts.get_bind]
  cases captured : state.lexer.capture? state.current with
  | none =>
    refine (Accounts.report sound sound.line ?_ (by simp)).bind fun _ _ sound _ => ?_
    · exact .silent rfl
    · exact (lawful .drain _ sound trivial).bind fun _ _ sound _ => .pure sound (by simp)
  | some found =>
    obtain ⟨word, lexer⟩ := found
    refine .run rfl (sound.step (.capture captured) rfl) ?_
    rintro _ ⟨⟩
    exact ⟨sound.captured captured, word, lexer, rfl, rfl, rfl⟩

/-- Passing over a token passes over the braces that it opens. -/
theorem passToken_accounts {depth : Nat} (lawful : Lawful source declared grammar other)
    (sound : Sound source declared state) :
    Accounts source declared (passToken grammar depth) (passToken other depth) state
      fun _ _ => True := by
  unfold passToken
  simp only [Accounts.current_bind]
  cases state.current.kind with
  | openBrace =>
    exact (captureBrace_accounts lawful sound).bind fun _ _ sound _ => .pure sound trivial
  | _ => exact .pure sound trivial

/-- Passing over one token and going on behind it. -/
theorem passOn_accounts {depth : Nat} {next later : Nat → Parse Unit}
    (lawful : Lawful source declared grammar other) (sound : Sound source declared state)
    (goesOn : ∀ deeper middle, Sound source declared middle →
      Accounts source declared (next deeper) (later deeper) middle fun _ _ => True) :
    Accounts source declared (advance >>= fun _ => passToken grammar depth >>= next)
      (advance >>= fun _ => passToken other depth >>= later) state fun _ _ => True :=
  .advance_bind ((passToken_accounts lawful sound.advance).bind fun deeper middle sound _ =>
    goesOn deeper middle sound)

/-- The rest of a command is passed over up to its end, brackets and braces counted. -/
theorem skipCommand_accounts {depth : Nat} (lawful : Lawful source declared grammar other)
    (sound : Sound source declared state) :
    Accounts source declared (skipCommand grammar depth) (skipCommand other depth) state
      fun _ _ => True := by
  unfold skipCommand
  simp only [Accounts.get_bind]
  refine .ite (fun _ => .pure sound trivial) fun _ =>
    .ite (fun _ => .pure sound trivial) fun _ => ?_
  exact passOn_accounts lawful sound fun deeper _ sound =>
    lawful (.skipCommand deeper) _ sound trivial

theorem skipToCloseBrace_accounts (lawful : Lawful source declared grammar other)
    (sound : Sound source declared state) :
    Accounts source declared (skipToCloseBrace grammar) (skipToCloseBrace other) state
      fun _ _ => True := by
  unfold skipToCloseBrace
  simp only [Accounts.get_bind]
  refine .ite (fun _ => .pure sound trivial) fun _ => ?_
  exact passOn_accounts lawful sound fun _ _ sound => lawful .skipToCloseBrace _ sound trivial

theorem skipCaseLine_accounts (lawful : Lawful source declared grammar other)
    (sound : Sound source declared state) :
    Accounts source declared (skipCaseLine grammar) (skipCaseLine other) state
      fun _ _ => True := by
  unfold skipCaseLine
  simp only [Accounts.get_bind]
  refine .ite (fun _ => .pure sound trivial) fun _ => ?_
  exact passOn_accounts lawful sound fun _ _ sound => lawful .skipCaseLine _ sound trivial

/-- A raw word is passed over up to the next separator. -/
theorem rawWord_accounts {depth : Nat} (lawful : Lawful source declared grammar other)
    (sound : Sound source declared state) :
    Accounts source declared (rawWord grammar depth) (rawWord other depth) state
      fun _ _ => True := by
  unfold rawWord
  simp only [Accounts.get_bind]
  refine .ite (fun _ => .pure sound trivial) fun _ =>
    .ite (fun _ => .pure sound trivial) fun _ => ?_
  exact passOn_accounts lawful sound fun deeper _ sound =>
    lawful (.rawWord deeper) _ sound trivial

/-- A word taken as text stands in the rule. -/
theorem rawWordText_accounts (lawful : Lawful source declared grammar other)
    (sound : Sound source declared state) :
    Accounts source declared (rawWordText grammar) (rawWordText other) state
      fun text _ => Quotes source text := by
  unfold rawWordText
  simp only [Accounts.current_bind]
  refine (lawful (.rawWord _) _ sound trivial).bind fun _ _ sound _ => ?_
  simp only [Accounts.get_bind]
  exact .pure sound (sound.slice _)

/-- Words behind a complete command are reported at a line of the rule. -/
theorem finishCommand_accounts {complete : Bool} (lawful : Lawful source declared grammar other)
    (sound : Sound source declared state) :
    Accounts source declared (finishCommand grammar complete) (finishCommand other complete) state
      fun _ _ => True := by
  unfold finishCommand
  simp only [Accounts.endsCommand_bind]
  refine .ite (fun _ => .pure sound trivial) fun _ => ?_
  cases complete with
  | true =>
    refine (Accounts.reportAhead sound ?_ (by simp)).bind fun _ _ sound _ =>
      lawful (.skipCommand 0) _ sound trivial
    exact .one rfl sound.descriptionAhead
  | false => exact lawful (.skipCommand 0) _ sound trivial

/-! ## References and brackets -/

/-- A bare word whose text stands in the rule. -/
theorem bareWord_wordFrom {token : Token} {text : String} (real : HasLine source token.line)
    (quotes : Quotes source text) : (bareWord token text).WordFrom source :=
  Expression.wordFrom_leaf real quotes rfl (by simp [bareWord, Expression.texts])
    (by simp [bareWord, Expression.wordText?])

/-- A word that is kept as invalid. -/
theorem invalid_wordFrom {token : Token} {text : String} (real : HasLine source token.line)
    (quotes : Quotes source text) : (Expression.invalid token text).WordFrom source :=
  Expression.wordFrom_leaf real quotes rfl (by simp [Expression.texts])
    (by simp [Expression.wordText?])

/-- A number is drawn from the rule, also where it does not fit. -/
theorem numberLiteral_accounts (sound : Sound source declared state) :
    Accounts source declared numberLiteral numberLiteral state
      fun value _ => value.WordFrom source := by
  unfold numberLiteral
  simp only [Accounts.current_bind]
  cases Text.int64? state.current.literal.toList with
  | some value =>
    exact .pure sound (Expression.wordFrom_leaf sound.line sound.literal rfl
      (by simp [Expression.texts]) (by simp [Expression.wordText?]))
  | none =>
    refine (Accounts.reportHere sound ?_ (by simp)).bind fun _ last reported same =>
      .pure reported ?_
    · exact .one rfl sound.literal
    · exact invalid_wordFrom sound.line sound.literal

/-- The name of a reference is on one line when the reference is. -/
theorem referenceName_oneLine {literal : String} (oneLine : '\n' ∉ literal.toList) :
    '\n' ∉ (referenceName literal).toList := by
  unfold referenceName
  split
  case h_1 rest braced =>
    rw [braced] at oneLine
    have rest : '\n' ∉ rest := fun mem => oneLine (by simp [mem])
    split
    · rw [String.toList_ofList]
      exact fun mem => rest (List.dropLast_subset _ mem)
    · simpa using rest
  case h_2 rest _ plain =>
    rw [plain] at oneLine
    simpa using oneLine
  case h_3 => exact oneLine

/-- The report of an undeclared variable quotes its name from the rule. -/
theorem checkDeclared_accounts {name : String} {line : Nat} (sound : Sound source declared state)
    (real : HasLine source line) (quotes : Quotes source name) :
    Accounts source declared (checkDeclared name line) (checkDeclared name line) state
      fun _ last => last.current = state.current := by
  unfold checkDeclared
  simp only [Accounts.get_bind]
  refine .ite (fun _ => .report sound real ?_ (by simp)) fun _ => .pure sound rfl
  exact .one rfl quotes

/-- The name of a reference is quoted from the rule; references take one line. -/
theorem variableReference_accounts (lawful : Lawful source declared grammar other)
    (sound : Sound source declared state) (unquoted : state.current.kind ≠ .string) :
    Accounts source declared (variableReference grammar) (variableReference other) state
      fun result _ => ∀ value ∈ result, value.WordFrom source := by
  have name : Quotes source (referenceName state.current.literal) :=
    quotes_of_oneLine (referenceName_oneLine (sound.oneLine unquoted))
  have line := sound.line
  have reference : (Expression.identifier state.current (referenceName state.current.literal)
      true false).WordFrom source :=
    Expression.wordFrom_leaf line name rfl (by simp [Expression.texts])
      (by simp [Expression.wordText?])
  unfold variableReference
  simp only [Accounts.current_bind]
  refine (checkDeclared_accounts sound line name).bind fun _ _ sound _ => ?_
  simp only [Accounts.get_bind]
  refine .ite (fun _ => .advance_bind ?_) fun _ => .pure sound (by simpa using reference)
  have sound := sound.advance
  simp only [Accounts.current_bind, Accounts.isAhead_bind]
  refine .ite (fun _ => ?_) fun _ => ?_
  · refine (Accounts.reportHere sound (.silent rfl) (by simp)).bind
      fun _ _ sound _ => .advance_bind (.pure sound.advance (by simpa using reference))
  refine (Accounts.within sound fun sound => .advance_bind
    (lawful (.word .word) _ sound.advance trivial)).bind fun key _ inner known => ?_
  have element : ∀ value ∈ key.map fun key => Expression.element state.current
      (.identifier state.current (referenceName state.current.literal) true false) key,
      value.WordFrom source := by
    simp only [Option.mem_def, Option.map_eq_some_iff]
    rintro value ⟨key, rfl, rfl⟩
    have key := known key rfl
    refine .of_node ?_ ?_ rfl
    · simp [Expression.tokens, line, key.lines]
    · simpa [Expression.texts] using ⟨name.lineFeed, key.texts⟩
  simp only [Accounts.isAhead_bind]
  refine .ite (fun _ => .advance_bind (.pure inner.advance element)) fun _ => ?_
  refine (Accounts.report inner sound.line (.silent rfl) (by simp)).bind
    fun _ _ sound _ => .pure sound element

/-- Commands between brackets are drawn from the rule, and a missing bracket is reported
where the first one stands. -/
theorem bracketCommands_accounts {line : Nat} (lawful : Lawful source declared grammar other)
    (sound : Sound source declared state) (real : HasLine source line) :
    Accounts source declared (bracketCommands grammar line) (bracketCommands other line) state
      fun commands _ => AllWords source commands := by
  have unclosed : Accounts source declared
      (report (.unclosed .bracket line) line >>= fun _ => pure [])
      (report (.unclosed .bracket line) line >>= fun _ => pure []) state
      fun commands _ => AllWords source commands :=
    (Accounts.report sound real (.silent rfl) (by simp)).bind
      fun _ _ sound _ => .pure sound allWords_nil
  unfold bracketCommands
  simp only [Accounts.lookahead_bind]
  split
  case h_1 => exact .advance_bind (.pure sound.advance allWords_nil)
  case h_2 => exact unclosed
  case h_3 => exact unclosed
  case h_4 => exact .advance_bind (lawful (.bracketCommands line) _ sound.advance real)
  case h_5 =>
    refine .advance_bind ((lawful .commandOrExpression _ sound.advance trivial).bind
      fun command _ sound known => ?_)
    refine (finishCommand_accounts lawful sound).bind fun _ _ sound _ => ?_
    refine (lawful (.bracketCommands line) _ sound real).bind fun later _ sound rest => ?_
    exact .pure sound (AllWords.collect rest known)

/-- A bracket has the line of its first token. -/
theorem bracketed_accounts (lawful : Lawful source declared grammar other)
    (sound : Sound source declared state) :
    Accounts source declared (bracketed grammar) (bracketed other) state
      fun value _ => value.WordFrom source := by
  unfold bracketed
  simp only [Accounts.current_bind]
  refine (Accounts.within sound fun inner =>
    lawful (.bracketCommands _) _ inner sound.line).bind fun commands _ after known => ?_
  refine .pure after (.of_node ?_ ?_ rfl)
  · simpa [Expression.tokens] using ⟨sound.line, known.drawn.onLines⟩
  · simpa [Expression.texts] using known.drawn.keepsLines

/-! ## Braced lists -/

/-- The elements of a list are words of the rule. -/
theorem listElements_accounts (lawful : Lawful source declared grammar other)
    (sound : Sound source declared state) :
    Accounts source declared (listElements grammar) (listElements other) state
      fun elements _ => AllWords source elements := by
  unfold listElements
  simp only [Accounts.current_bind]
  refine .ite (fun _ => .pure sound allWords_nil) fun _ => ?_
  refine (lawful (.word .word) _ sound trivial).bind fun element _ sound known => .advance_bind ?_
  refine (lawful .listElements _ sound.advance trivial).bind fun later _ sound rest => ?_
  exact .pure sound (AllWords.collect rest known)

/-- What is kept of a snippet is taken over without its diagnostics, for it has none. -/
theorem keepIfClean_accounts {α : Type} {snippet : State} {kept dropped : α} {known : α → Prop}
    (sound : Sound source declared state) (ifKept : known kept) (ifDropped : known dropped) :
    Accounts source declared (keepIfClean snippet kept dropped) (keepIfClean snippet kept dropped)
      state fun result last => known result ∧ last.current = state.current := by
  unfold keepIfClean
  refine .ite (fun clean => ?_) fun _ => .pure sound ⟨ifDropped, rfl⟩
  have clean : snippet.diagnostics = [] := by simpa using clean
  have quiet : (state.absorb snippet).diagnostics = state.diagnostics := by
    simp [State.absorb, clean]
  have step : Step state (state.absorb snippet) := by
    have step := Step.declare state snippet.declared
    simpa [State.absorb, clean] using step
  exact .run_bind rfl (.pure (sound.step step quiet) ⟨ifKept, rfl⟩)

/-- What stands between braces is drawn from the rule, as a hash or as a list. -/
theorem braceItems_accounts {opening : Token} (lawful : Lawful source declared grammar other)
    (sound : Sound source declared state) (real : HasLine source opening.line) :
    Accounts source declared (braceItems grammar opening) (braceItems other opening) state
      fun items _ => items.WordFrom source := by
  unfold braceItems
  simp only [Accounts.get_bind]
  refine .ite (fun _ => ?_) fun _ => ?_
  · refine (lawful .hashPairs _ sound trivial).bind fun pairs _ sound known => ?_
    refine .pure sound (.of_node ?_ ?_ rfl)
    · simpa [Expression.tokens] using ⟨real, pairs_onLines known⟩
    · simpa [Expression.texts] using pairs_keepsLines known
  · refine (lawful .listElements _ sound trivial).bind fun elements _ sound known => ?_
    refine .pure sound (.of_node ?_ ?_ rfl)
    · simpa [Expression.tokens] using ⟨real, known.drawn.onLines⟩
    · simpa [Expression.texts] using known.drawn.keepsLines

/-- The parser of a braced word starts where the body stands in the rule. -/
theorem bracedWord_accounts (lawful : Lawful source declared grammar other)
    (sound : Sound source declared state) :
    Accounts source declared (bracedWord grammar) (bracedWord other) state
      fun result _ => ∀ value ∈ result, value.WordFrom source := by
  have line := sound.line
  unfold bracedWord
  simp only [Accounts.current_bind]
  refine (captureBrace_accounts lawful sound).bind fun body _ after taken => ?_
  cases body with
  | none => exact .pure after (by simp)
  | some body =>
    obtain ⟨quotes, word, lexer, captured, rfl, rfl⟩ := taken body rfl
    obtain ⟨before, placed⟩ := sound.placed
    obtain ⟨passed, embeds⟩ := placed.embeds_body captured
    have whole : (Expression.list state.current
        [bareWord ⟨.word, String.ofList word.body, state.current.line, state.current.span, .none⟩
          (String.ofList word.body)]).WordFrom source := by
      refine .of_node ?_ ?_ rfl
      · simp [Expression.tokens, tokensOf, bareWord, line]
      · simpa [Expression.texts, textsOf, bareWord] using quotes.lineFeed
    simp only [Accounts.get_bind]
    refine (Accounts.isolated after (braceItems_accounts lawful (sound.snippet embeds) line)).bind
      fun read _ after known => ?_
    obtain ⟨items, snippet⟩ := read
    refine (keepIfClean_accounts after known.2 whole).bind fun value _ after known => ?_
    exact .pure after (by simpa using known.1)

/-! ## Strings -/

/-- The commands of an embedded script are drawn from the rule. -/
theorem substitutionCommands_accounts (lawful : Lawful source declared grammar other)
    (sound : Sound source declared state) :
    Accounts source declared (substitutionCommands grammar) (substitutionCommands other) state
      fun commands _ => AllWords source commands := by
  unfold substitutionCommands
  simp only [Accounts.current_bind]
  split
  case h_1 => exact .pure sound allWords_nil
  case h_2 => exact .advance_bind (lawful .substitutionCommands _ sound.advance trivial)
  case h_3 =>
    refine (lawful .commandOrExpression _ sound trivial).bind fun command _ sound known => ?_
    refine (finishCommand_accounts lawful sound).bind fun _ _ sound _ => .advance_bind ?_
    refine (lawful .substitutionCommands _ sound.advance trivial).bind fun later _ sound rest => ?_
    exact .pure sound (AllWords.collect rest known)

/-- The parser of an embedded script starts where the script stands in the string. -/
theorem substitution_accounts {token : Token} {script passed : List Char} {line : Nat}
    (lawful : Lawful source declared grammar other) (sound : Sound source declared state)
    (real : HasLine source line)
    (embeds : state.Embeds passed (.snippet script line .bracket state.declared)) :
    Accounts source declared (substitution grammar token script line)
      (substitution other token script line) state
      fun result last => (∀ value ∈ result, value.DrawnFrom source) ∧
        last.current = state.current := by
  unfold substitution
  simp only [Accounts.get_bind]
  refine (Accounts.isolated sound
    (lawful .substitutionCommands _ (sound.snippet embeds) trivial)).bind
    fun read last after known => ?_
  obtain ⟨commands, snippet⟩ := read
  obtain ⟨rfl, known⟩ := known
  refine .ite (fun _ => .pure after ⟨by simp, rfl⟩) fun _ => ?_
  refine keepIfClean_accounts after ?_ (by simp)
  rintro _ ⟨⟩
  exact ⟨by simpa [Expression.tokens] using ⟨real, known.drawn.onLines⟩,
    by simpa [Expression.texts] using known.drawn.keepsLines⟩

/-- An embedded script starts on a line of the rule. -/
theorem Sound.line_of_script (sound : Sound source declared state)
    (string : state.current.kind = .string) {script ahead : List Char}
    (embedded : .command script ahead ∈ segments state.current.literal.toList) :
    HasLine source (state.current.line + ahead.count '\n') := by
  obtain ⟨before, placed⟩ := sound.placed
  obtain ⟨after, stands⟩ := placed.stands
  obtain ⟨passed, text, rest, split, token⟩ := placed.aligned.current.stands
  obtain ⟨-, later, body⟩ := segments_located embedded
  rw [token.line, HasLine, stands, split, token.quoted string, body]
  simp only [List.count_append, List.count_cons]
  omega

/-- Text that is joined to the text before it. -/
theorem appendText_drawn {token : Token} {parts : List Expression} {text : String}
    (real : HasLine source token.line) (keeps : '\n' ∈ text.toList → '\n' ∈ source)
    (drawn : AllDrawn source parts) : AllDrawn source (appendText token parts text) := by
  unfold appendText
  split
  · rename_i first before ends
    obtain ⟨earlier, rfl⟩ := List.getLast?_eq_some_iff.1 ends
    obtain ⟨earlierDrawn, lastDrawn⟩ := allDrawn_append.1 drawn
    have last := allDrawn_singleton.1 lastDrawn
    rw [List.dropLast_concat, allDrawn_append, allDrawn_singleton]
    refine ⟨earlierDrawn, by simpa [Expression.tokens] using last.lines, ?_⟩
    have before : '\n' ∈ before.toList → '\n' ∈ source := by
      simpa [Expression.texts] using last.texts
    simpa [Expression.texts, or_imp] using ⟨before, keeps⟩
  · rw [allDrawn_append, allDrawn_singleton]
    exact ⟨drawn, by simpa [Expression.tokens] using real,
      by simpa [Expression.texts] using keeps⟩

/-- The scripts of a string are read where they stand; its other segments are texts. -/
theorem interpolatedParts_accounts {token : Token} {parts : List Expression}
    {pending : List Segment} (lawful : Lawful source declared grammar other)
    (sound : Sound source declared state) (here : state.current = token)
    (string : token.kind = .string) (listed : pending ⊆ segments token.literal.toList)
    (drawn : AllDrawn source parts) :
    Accounts source declared (interpolatedParts grammar token parts pending)
      (interpolatedParts other token parts pending) state
      fun result _ => AllDrawn source result := by
  have real : HasLine source token.line := here ▸ sound.line
  have keeps (segment : Segment) (mem : segment ∈ segments token.literal.toList)
      (inside : '\n' ∈ segment.content) : '\n' ∈ source :=
    (here ▸ sound.literal).lineFeed (segments_content mem inside)
  induction pending generalizing parts state with
  | nil => exact .pure sound drawn
  | cons segment later ih =>
    obtain ⟨first, rest⟩ := List.cons_subset.1 listed
    cases segment with
    | text text =>
      refine ih sound here rest (appendText_drawn real ?_ drawn)
      rw [String.toList_ofList]
      exact keeps _ first
    | reference name =>
      refine ih sound here rest (allDrawn_append.2 ⟨drawn, allDrawn_singleton.2 ⟨?_, ?_⟩⟩)
      · simpa [Expression.tokens] using real
      · simpa [Expression.texts, Segment.content] using keeps _ first
    | command script ahead =>
      subst here
      obtain ⟨before, placed⟩ := sound.placed
      obtain ⟨passed, embeds⟩ := placed.embeds_script string first
      refine (substitution_accounts lawful sound (sound.line_of_script string first) embeds).bind
        fun embedded middle after found => ?_
      cases embedded with
      | none =>
        refine ih after found.2 rest (appendText_drawn real ?_ drawn)
        simpa [Segment.content] using keeps _ first
      | some embedded =>
        exact ih after found.2 rest
          (allDrawn_append.2 ⟨drawn, allDrawn_singleton.2 (found.1 embedded rfl)⟩)

/-- The parts of a string are drawn from its body, which stands in the rule. -/
theorem quotedString_accounts (lawful : Lawful source declared grammar other)
    (sound : Sound source declared state) (string : state.current.kind = .string) :
    Accounts source declared (quotedString grammar state.current)
      (quotedString other state.current) state fun value _ => value.WordFrom source := by
  unfold quotedString
  refine (interpolatedParts_accounts lawful sound rfl string (List.Subset.refl _)
    allDrawn_nil).bind fun parts _ after known => ?_
  refine .ite (fun _ => .pure after ?_) fun _ => .pure after (.of_node ?_ ?_ rfl)
  · exact Expression.wordFrom_leaf sound.line sound.literal rfl (by simp [Expression.texts])
      (by simp [Expression.wordText?])
  · simpa [Expression.tokens] using ⟨sound.line, known.onLines⟩
  · simpa [Expression.texts] using known.keepsLines

/-! ## Gluing -/

/-- A piece that is one token is drawn from it. -/
theorem simplePiece_wordFrom (sound : Sound source declared state) :
    (simplePiece state.current).WordFrom source := by
  have line := sound.line
  have literal := sound.literal
  unfold simplePiece
  split
  all_goals
    exact Expression.wordFrom_leaf line literal rfl (by simp [Expression.texts])
      (by simp [Expression.wordText?])

/-- Whatever a word starts with is drawn from the rule. -/
theorem piece_accounts (lawful : Lawful source declared grammar other)
    (sound : Sound source declared state) :
    Accounts source declared (piece grammar) (piece other) state
      fun result _ => ∀ value ∈ result, value.WordFrom source := by
  unfold piece
  simp only [Accounts.current_bind]
  split
  case h_1 =>
    exact (bracketed_accounts lawful sound).bind fun _ _ sound known =>
      .pure sound (by simpa using known)
  case h_2 => exact bracedWord_accounts lawful sound
  case h_3 string =>
    exact (quotedString_accounts lawful sound string).bind fun _ _ sound known =>
      .pure sound (by simpa using known)
  case h_4 reference => exact variableReference_accounts lawful sound (by simp [reference])
  case h_5 =>
    exact (numberLiteral_accounts sound).bind fun _ _ sound known =>
      .pure sound (by simpa using known)
  case h_6 illegal => exact .reportIllegal sound illegal
  case h_7 => exact .pure sound (by simpa using simplePiece_wordFrom sound)

/-- Keys and values are drawn from the rule alike. -/
theorem hashPairs_accounts (lawful : Lawful source declared grammar other)
    (sound : Sound source declared state) :
    Accounts source declared (hashPairs grammar) (hashPairs other) state
      fun pairs _ => ∀ pair ∈ pairs, pair.1.WordFrom source ∧ pair.2.WordFrom source := by
  have expects (what : Expectation) {state : State} (sound : Sound source declared state) :
      ((Problem.expected what) state.lookahead.description).Told source :=
    .one rfl sound.descriptionAhead
  unfold hashPairs
  refine (piece_accounts lawful sound).bind fun key _ sound first => ?_
  cases key with
  | none => exact .pure sound (by simp)
  | some key =>
    have first := first key rfl
    simp only [Accounts.isAhead_bind]
    refine .ite (fun _ => .advance_bind ?_) fun _ =>
      (Accounts.reportAhead sound (expects _ sound) (by simp)).bind fun _ _ sound _ =>
        .pure sound (by simp)
    have sound := sound.advance
    simp only [Accounts.isAhead_bind]
    refine .ite (fun _ => (Accounts.reportAhead sound (expects _ sound) (by simp)).bind
      fun _ _ sound _ => .pure sound (by simp)) fun _ => .advance_bind ?_
    refine (piece_accounts lawful sound.advance).bind fun value _ sound second => ?_
    cases value with
    | none => exact .pure sound (by simp)
    | some value =>
      have second := second value rfl
      have one : ∀ pair ∈ [(key, value)], pair.1.WordFrom source ∧ pair.2.WordFrom source := by
        simpa using ⟨first, second⟩
      simp only [Accounts.isAhead_bind]
      refine .ite (fun _ => .advance_bind ?_) fun _ =>
        .ite (fun _ => .pure sound one) fun _ =>
          (Accounts.reportAhead sound (expects _ sound) (by simp)).bind fun _ _ sound _ =>
            .pure sound one
      have sound := sound.advance
      simp only [Accounts.isAhead_bind]
      refine .ite (fun _ => .pure sound one) fun _ => .advance_bind ?_
      refine (lawful .hashPairs _ sound.advance trivial).bind fun later _ sound rest => ?_
      exact .pure sound (List.forall_mem_cons.2 ⟨⟨first, second⟩, rest⟩)

/-- Pieces that are glued to a word are drawn from the rule each. -/
theorem pieces_accounts {glue : Glue} (lawful : Lawful source declared grammar other)
    (sound : Sound source declared state) :
    Accounts source declared (pieces grammar glue) (pieces other glue) state
      fun pieces _ => AllWords source (pieces.map Prod.fst) := by
  unfold pieces
  simp only [Accounts.get_bind]
  refine .ite (fun _ => .advance_bind ?_) fun _ => .pure sound allWords_nil
  simp only [Accounts.current_bind]
  refine (piece_accounts lawful sound.advance).bind fun next _ sound first => ?_
  simp only [Accounts.current_bind]
  refine (lawful (.pieces glue) _ sound trivial).bind fun later _ sound rest => .pure sound ?_
  have collected := AllWords.collect rest first
  cases next <;> simpa using collected

/-- Runs of literal pieces are slices of the text. -/
theorem wordParts_drawn (sound : Sound source declared state) {run : Option (Token × Span)}
    {all : List (Expression × Span)} (real : ∀ start ∈ run, HasLine source start.1.line)
    (words : AllWords source (all.map Prod.fst)) : AllDrawn source (wordParts state run all) := by
  have text {run : Option (Token × Span)} (real : ∀ start ∈ run, HasLine source start.1.line) :
      AllDrawn source (textPart state run) := by
    cases run with
    | none => exact allDrawn_nil
    | some start =>
      refine allDrawn_singleton.2 ⟨?_, ?_⟩
      · simpa [Expression.tokens] using real start rfl
      · simpa [Expression.texts] using (sound.slice start.2).lineFeed
  fun_induction wordParts state run all with
  | case1 run => exact text real
  | case2 next span later _ token before ih =>
    exact ih (by simpa using real) (List.forall_mem_cons.1 words).2
  | case3 next span later _ ih =>
    obtain ⟨here, later⟩ := List.forall_mem_cons.1 words
    exact ih (by simpa using here.line) later
  | case4 run next span later _ ih =>
    obtain ⟨here, later⟩ := List.forall_mem_cons.1 words
    have embeds : (embedded next).DrawnFrom source := by
      unfold embedded
      split
      · exact ⟨by simpa [Expression.tokens] using here.lines,
          by simpa [Expression.texts] using here.texts⟩
      · exact here.toDrawnFrom
    exact allDrawn_append.2 ⟨text real, List.forall_mem_cons.2 ⟨embeds, ih (by simp) later⟩⟩

/-- A word made of several pieces is a slice of the text. -/
theorem word_accounts {glue : Glue} (lawful : Lawful source declared grammar other)
    (sound : Sound source declared state) :
    Accounts source declared (word grammar glue) (word other glue) state
      fun result _ => ∀ value ∈ result, value.WordFrom source := by
  have line := sound.line
  unfold word
  simp only [Accounts.current_bind]
  refine (piece_accounts lawful sound).keep rfl rfl fun first _ sound known => ?_
  simp only [Accounts.get_bind]
  refine .ite (fun _ => ?_) fun _ => .pure sound (by simpa using known)
  refine (lawful (.pieces glue) _ sound trivial).bind fun later _ sound rest => ?_
  simp only [Accounts.get_bind]
  refine .ite (fun _ => .pure sound ?_) fun _ => .pure sound ?_
  · simpa using bareWord_wordFrom line (sound.slice _)
  · rintro _ ⟨⟩
    have words : AllWords source (first :: later.map Prod.fst) :=
      List.forall_mem_cons.2 ⟨known, rest⟩
    have parts (span : Span) : AllDrawn source (wordParts _ none ((first, span) :: later)) :=
      wordParts_drawn sound (by simp) words
    refine .of_node ?_ ?_ rfl
    · simpa [Expression.tokens] using ⟨line, (parts _).onLines⟩
    · simpa [Expression.texts] using (parts _).keepsLines

end IRule.Parser
