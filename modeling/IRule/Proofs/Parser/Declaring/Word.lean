import IRule.Proofs.Parser.Declaring

/-!
# Recovery and words

Passing over text declares nothing. What is kept of a braced list or of a string
was read by a parser of its own, whose variables are taken over with it.
-/

namespace IRule.Parser

variable {grammar : Grammar} {state : State}

/-! ## Recovery -/

/-- The rest of a text is passed over token by token. -/
theorem drain_grows (declares : grammar.Declares) :
    Grows (drain grammar) state fun _ _ => True := by
  unfold drain
  simp only [Grows.isAhead_bind]
  exact .ite (fun _ => .pure trivial) fun _ => .advance_bind (declares .drain _)

/-- Taking a body as it stands declares nothing. -/
theorem captureBrace_grows (declares : grammar.Declares) :
    Grows (captureBrace grammar) state fun _ _ => True := by
  unfold captureBrace
  simp only [Grows.get_bind]
  cases state.lexer.capture? state.current with
  | none =>
    refine .record_bind rfl (spares_problem (by simp)) ?_
    exact (declares .drain _).bind fun _ _ _ _ => .pure trivial
  | some found => exact .run rfl (.of_quiet (List.Subset.refl _) rfl) trivial

/-- Nor does passing over a token, or over the braces that it opens. -/
theorem passToken_grows {depth : Nat} (declares : grammar.Declares) :
    Grows (passToken grammar depth) state fun _ _ => True := by
  unfold passToken
  simp only [Grows.current_bind]
  cases state.current.kind with
  | openBrace => exact (captureBrace_grows declares).bind fun _ _ _ _ => .pure trivial
  | _ => exact .pure trivial

/-- Passing over one token and going on behind it. -/
theorem passOn_grows {depth : Nat} {next : Nat → Parse Unit} (declares : grammar.Declares)
    (goesOn : ∀ deeper middle, Grows (next deeper) middle fun _ _ => True) :
    Grows (advance >>= fun _ => passToken grammar depth >>= next) state fun _ _ => True :=
  .advance_bind ((passToken_grows declares).bind fun deeper middle _ _ => goesOn deeper middle)

/-- What is passed over up to the end of a command declares nothing. -/
theorem skipCommand_grows {depth : Nat} (declares : grammar.Declares) :
    Grows (skipCommand grammar depth) state fun _ _ => True := by
  unfold skipCommand
  simp only [Grows.get_bind]
  refine .ite (fun _ => .pure trivial) fun _ => .ite (fun _ => .pure trivial) fun _ => ?_
  exact passOn_grows declares fun deeper _ => declares (.skipCommand deeper) _

theorem skipToCloseBrace_grows (declares : grammar.Declares) :
    Grows (skipToCloseBrace grammar) state fun _ _ => True := by
  unfold skipToCloseBrace
  simp only [Grows.get_bind]
  refine .ite (fun _ => .pure trivial) fun _ => ?_
  exact passOn_grows declares fun _ _ => declares .skipToCloseBrace _

theorem skipCaseLine_grows (declares : grammar.Declares) :
    Grows (skipCaseLine grammar) state fun _ _ => True := by
  unfold skipCaseLine
  simp only [Grows.get_bind]
  refine .ite (fun _ => .pure trivial) fun _ => ?_
  exact passOn_grows declares fun _ _ => declares .skipCaseLine _

theorem rawWord_grows {depth : Nat} (declares : grammar.Declares) :
    Grows (rawWord grammar depth) state fun _ _ => True := by
  unfold rawWord
  simp only [Grows.get_bind]
  refine .ite (fun _ => .pure trivial) fun _ => .ite (fun _ => .pure trivial) fun _ => ?_
  exact passOn_grows declares fun deeper _ => declares (.rawWord deeper) _

/-- The text of a raw word is cut out, not read. -/
theorem rawWordText_grows (declares : grammar.Declares) :
    Grows (rawWordText grammar) state fun _ _ => True := by
  unfold rawWordText
  simp only [Grows.current_bind]
  exact (declares (.rawWord _) _).bind fun _ _ _ _ => .pure trivial

/-- Words behind a complete command are reported, not read. -/
theorem finishCommand_grows {complete : Bool} (declares : grammar.Declares) :
    Grows (finishCommand grammar complete) state fun _ _ => True := by
  unfold finishCommand
  simp only [Grows.endsCommand_bind]
  refine .ite (fun _ => .pure trivial) fun _ => ?_
  cases complete with
  | true => exact .record_bind rfl (spares_problem (by simp)) (declares (.skipCommand 0) _)
  | false => exact declares (.skipCommand 0) _

/-! ## References and brackets -/

/-- An illegal token is reported, and nothing is made of it. -/
theorem reportIllegal_grows {α : Type} {known : α → State → Prop} :
    Grows (reportIllegal >>= fun _ => pure (none : Option α)) state
      fun result last => ∀ value ∈ result, known value last := by
  refine .giveUp rfl (spares_code ?_)
  split
  · simp only [LexicalError.diagnostic, Diagnostic.error_code]
    rename_i error _
    cases error.fault <;> simp [LexicalFault.code]
  · simp

/-- What a word assigns is declared behind it. -/
theorem Grammar.Declares.word (declares : grammar.Declares) (glue : Glue) :
    Grows (grammar.word glue) state fun result last =>
      ∀ value ∈ result, targetsIn value.nodes ⊆ last.declared :=
  (declares (.word glue) state).mono fun _ _ _ known value found => (known value found).1

/-- Nodes that are neither literal names nor lists start at any token. -/
theorem StartsAt.of_other {token : Token} {value : Expression} (plain : value.isLiteral = false)
    (noList : ∀ first elements, value ≠ .list first elements) : StartsAt token value where
  literal := by simp [plain]
  name := by
    rintro first text reserved rfl
    simp [Expression.isLiteral, Expression.wordText?] at plain
  list := fun first elements same => absurd same (noList first elements)

/-- Literals are no names. -/
theorem StartsAt.of_literal {token : Token} {value : Expression} (kind : token.kind ≠ .openBracket)
    (noName : ∀ first text reserved, value ≠ .identifier first text false reserved)
    (noList : ∀ first elements, value ≠ .list first elements) : StartsAt token value :=
  ⟨fun _ => kind, fun first text reserved same => absurd same (noName first text reserved),
    fun first elements same => absurd same (noList first elements)⟩

/-- A number is neither a name nor a list. -/
theorem numberLiteral_grows :
    Grows numberLiteral state fun value _ => targetsIn value.nodes = [] ∧
      (∀ first text reserved, value ≠ .identifier first text false reserved) ∧
      ∀ first elements, value ≠ .list first elements := by
  unfold numberLiteral
  simp only [Grows.current_bind]
  cases Text.int64? state.current.literal.toList with
  | some value => exact .pure ⟨by simp, by simp, by simp⟩
  | none =>
    exact .record_bind rfl (spares_problem (by simp))
      (.pure ⟨by simp, by simp, by simp⟩)

/-- A reference is reported only while its variable is not declared. -/
theorem checkDeclared_grows {name : String} {line : Nat} :
    Grows (checkDeclared name line) state fun _ _ => True := by
  unfold checkDeclared
  simp only [Grows.get_bind]
  refine .ite (fun unknown => .record rfl ?_) fun _ => .pure trivial
  simp only [Bool.and_eq_true, Bool.not_eq_true', List.contains_eq_mem, decide_eq_false_iff_not]
    at unknown
  intro other known line reported
  have same := Problem.undeclaredVariable_inj (List.mem_singleton.1 reported)
  exact unknown.2 (same ▸ known)

/-- A reference assigns nothing, but its key may. -/
theorem variableReference_grows (declares : grammar.Declares) (token : Token) :
    Grows (variableReference grammar) state fun result last =>
      ∀ value ∈ result, targetsIn value.nodes ⊆ last.declared ∧ StartsAt token value := by
  unfold variableReference
  simp only [Grows.current_bind]
  have reference : ∀ last : State, ∀ value ∈ some (Expression.identifier state.current
      (referenceName state.current.literal) true false),
      targetsIn value.nodes ⊆ last.declared ∧ StartsAt token value := by
    rintro last value ⟨⟩
    exact ⟨by simp, .of_other rfl (by simp)⟩
  refine checkDeclared_grows.bind fun _ checked _ _ => ?_
  simp only [Grows.get_bind]
  refine .ite (fun _ => .advance_bind ?_) fun _ => .pure (reference _)
  simp only [Grows.current_bind, Grows.isAhead_bind]
  refine .ite (fun _ => ?_) fun _ => ?_
  · exact .record_bind rfl (spares_problem (by simp)) (.advance_bind (.pure (reference _)))
  refine .bind (.within (fun result names => ∀ value ∈ result, targetsIn value.nodes ⊆ names)
    (.advance_bind (declares.word .word))) fun key middle _ known => ?_
  have element : ∀ value ∈ key.map fun key => Expression.element state.current
      (.identifier state.current (referenceName state.current.literal) true false) key,
      targetsIn value.nodes ⊆ middle.declared ∧ StartsAt token value := by
    simp only [Option.mem_def, Option.map_eq_some_iff]
    rintro value ⟨key, rfl, rfl⟩
    exact ⟨by simpa using known key rfl, .of_other rfl (by simp)⟩
  simp only [Grows.isAhead_bind]
  refine .ite (fun _ => .advance_bind (.pure element)) fun _ => ?_
  exact .record_bind rfl (spares_problem (by simp)) (.pure element)

/-- What the commands between brackets assign is declared behind them. -/
theorem bracketCommands_grows {line : Nat} (declares : grammar.Declares) :
    Grows (bracketCommands grammar line) state fun commands last =>
      targetsIn (nodesOf commands) ⊆ last.declared := by
  unfold bracketCommands
  simp only [Grows.lookahead_bind]
  split
  case h_1 => exact .advance_bind (.pure (by simp))
  case h_2 => exact .record_bind rfl (spares_problem (by simp)) (.pure (by simp))
  case h_3 => exact .record_bind rfl (spares_problem (by simp)) (.pure (by simp))
  case h_4 => exact .advance_bind (declares (.bracketCommands line) _)
  case h_5 =>
    refine .advance_bind ((declares .commandOrExpression _).bind fun command _ _ known => ?_)
    refine (finishCommand_grows declares).bind fun _ _ finishing _ => ?_
    refine (declares (.bracketCommands line) _).bind fun later _ onward rest => .pure ?_
    exact (finishing.trans onward).collect known rest

/-- A bracket assigns what its commands do, and is no literal. -/
theorem bracketed_grows (declares : grammar.Declares) (token : Token) :
    Grows (bracketed grammar) state fun value last =>
      targetsIn value.nodes ⊆ last.declared ∧ StartsAt token value := by
  unfold bracketed
  simp only [Grows.current_bind]
  refine .bind (.within (fun commands names => targetsIn (nodesOf commands) ⊆ names)
    (declares (.bracketCommands _) _)) fun commands _ _ known => .pure ?_
  exact ⟨by simpa using known, .of_other rfl (by simp)⟩

/-! ## Braced lists -/

/-- What the elements of a list assign is declared by the parser of the list. -/
theorem listElements_grows (declares : grammar.Declares) :
    Grows (listElements grammar) state fun elements last =>
      targetsIn (nodesOf elements) ⊆ last.declared := by
  unfold listElements
  simp only [Grows.current_bind]
  refine .ite (fun _ => .pure (by simp)) fun _ => ?_
  refine (declares.word .word).bind fun element middle _ known => .advance_bind ?_
  refine (declares .listElements _).bind fun later _ onward rest => .pure ?_
  exact ((Growth.advance middle).trans onward).collect known rest

/-- What is kept of a snippet brings its variables along. -/
theorem keepIfClean_grows {α : Type} {snippet : State} {kept dropped : α} :
    Grows (keepIfClean snippet kept dropped) state fun result last =>
      result = kept ∧ snippet.declared ⊆ last.declared ∨ result = dropped := by
  unfold keepIfClean
  refine .ite (fun clean => ?_) fun _ => .pure (.inr rfl)
  have clean : snippet.diagnostics = [] := by simpa using clean
  have growth : Growth state (state.absorb snippet) :=
    .of_quiet (fun _ inside => Naming.mem_addAll _ inside) (by simp [State.absorb, clean])
  exact .run_bind rfl growth (.pure (.inl ⟨rfl, Naming.added_subset_addAll _ _⟩))

/-- What stands between braces is a hash or a list. -/
theorem braceItems_grows {opening : Token} (declares : grammar.Declares) :
    Grows (braceItems grammar opening) state fun items last =>
      targetsIn items.nodes ⊆ last.declared ∧
        ((∃ pairs, items = .hash opening pairs) ∨ ∃ elements, items = .list opening elements) := by
  unfold braceItems
  simp only [Grows.get_bind]
  refine .ite (fun _ => ?_) fun _ => ?_
  · refine (declares .hashPairs _).bind
      fun pairs last _ (known : targetsIn (pairNodes pairs) ⊆ last.declared) => .pure ?_
    exact ⟨by simpa using known, .inl ⟨pairs, rfl⟩⟩
  · refine (declares .listElements _).bind
      fun elements last _ (known : targetsIn (nodesOf elements) ⊆ last.declared) => .pure ?_
    exact ⟨by simpa using known, .inr ⟨elements, rfl⟩⟩

/-- A list that is kept takes over its variables; a raw word assigns nothing. -/
theorem bracedWord_grows (declares : grammar.Declares) :
    Grows (bracedWord grammar) state fun result last =>
      ∀ value ∈ result, targetsIn value.nodes ⊆ last.declared ∧
        (state.current.kind = .openBrace → StartsAt state.current value) := by
  have list (elements : List Expression) (brace : state.current.kind = .openBrace) :
      StartsAt state.current (.list state.current elements) :=
    ⟨by simp [brace], by simp, fun _ _ _ => brace⟩
  unfold bracedWord
  simp only [Grows.current_bind]
  refine (captureBrace_grows declares).bind fun body _ _ _ => ?_
  cases body with
  | none => exact .pure (by simp)
  | some body =>
    simp only [Grows.get_bind]
    refine .bind (.isolated (braceItems_grows declares)) fun found _ _ read => ?_
    obtain ⟨items, snippet⟩ := found
    obtain ⟨rfl, -, known, shape⟩ := read
    refine keepIfClean_grows.bind fun result _ _ kept => .pure ?_
    rintro value ⟨⟩
    rcases kept with ⟨rfl, absorbed⟩ | rfl
    · refine ⟨List.Subset.trans known absorbed, ?_⟩
      rcases shape with ⟨pairs, rfl⟩ | ⟨elements, rfl⟩
      · exact fun _ => .of_other rfl (by simp)
      · exact list elements
    · exact ⟨by simp [bareWord], list _⟩

/-! ## Strings -/

/-- What an embedded script assigns is declared by its own parser. -/
theorem substitutionCommands_grows (declares : grammar.Declares) :
    Grows (substitutionCommands grammar) state fun commands last =>
      targetsIn (nodesOf commands) ⊆ last.declared := by
  unfold substitutionCommands
  simp only [Grows.current_bind]
  split
  case h_1 => exact .pure (by simp)
  case h_2 => exact .advance_bind (declares .substitutionCommands _)
  case h_3 =>
    refine (declares .commandOrExpression _).bind fun command _ _ known => ?_
    refine (finishCommand_grows declares).bind fun _ middle finishing _ => .advance_bind ?_
    refine (declares .substitutionCommands _).bind fun later _ onward rest => .pure ?_
    exact (finishing.trans ((Growth.advance middle).trans onward)).collect known rest

/-- A script that is kept takes over its variables. -/
theorem substitution_grows {token : Token} {script : List Char} {line : Nat}
    (declares : grammar.Declares) :
    Grows (substitution grammar token script line) state fun result last =>
      ∀ value ∈ result, targetsIn value.nodes ⊆ last.declared := by
  unfold substitution
  simp only [Grows.get_bind]
  refine .bind (.isolated (declares .substitutionCommands _))
    fun found _ _ read => ?_
  obtain ⟨commands, snippet⟩ := found
  obtain ⟨rfl, -, known⟩ := read
  refine .ite (fun _ => .pure (by simp)) fun _ => ?_
  refine keepIfClean_grows.mono fun result last _ kept => ?_
  rcases kept with ⟨rfl, absorbed⟩ | rfl
  · rintro value ⟨⟩
    simpa using List.Subset.trans known absorbed
  · simp

/-- The parts of a string assign what its scripts do. -/
theorem interpolatedParts_grows {token : Token} {parts : List Expression}
    {segments : List Segment} (declares : grammar.Declares)
    (known : targetsIn (nodesOf parts) ⊆ state.declared) :
    Grows (interpolatedParts grammar token parts segments) state fun result last =>
      targetsIn (nodesOf result) ⊆ last.declared := by
  induction segments generalizing parts state with
  | nil => exact .pure known
  | cons segment later ih =>
    cases segment with
    | text => exact ih (List.Subset.trans (rearranges_appendText _ _ _).targetsIn_subset known)
    | reference => exact ih (by simpa using known)
    | command script before =>
      refine (substitution_grows declares).bind fun embedded middle growth found => ?_
      have known := growth.keeps known
      cases embedded with
      | none => exact ih (List.Subset.trans (rearranges_appendText _ _ _).targetsIn_subset known)
      | some embedded => exact ih (by simpa using ⟨known, found embedded rfl⟩)

/-- A string is never a name. -/
theorem quotedString_grows {token : Token} (declares : grammar.Declares) :
    Grows (quotedString grammar token) state fun value last =>
      targetsIn value.nodes ⊆ last.declared ∧ (token.kind = .string → StartsAt token value) := by
  unfold quotedString
  refine (interpolatedParts_grows declares (by simp)).bind fun parts _ _ known => ?_
  refine .ite (fun _ => .pure ⟨by simp, fun string => ?_⟩)
    fun _ => .pure ⟨by simpa using known, fun _ => .of_other rfl (by simp)⟩
  exact .of_literal (by simp [string]) (by simp) (by simp)

/-! ## Gluing -/

/-- A piece that is one token assigns nothing, and keeps its token. -/
theorem simplePiece_startsAt {token : Token} (kind : token.kind ≠ .openBracket) :
    targetsIn (simplePiece token).nodes = [] ∧ StartsAt token (simplePiece token) := by
  unfold simplePiece
  split
  · exact ⟨by simp, .of_literal kind (by simp) (by simp)⟩
  · exact ⟨by simp, .of_literal kind (by simp) (by simp)⟩
  · exact ⟨by simp, .of_literal kind (by simp) (by simp)⟩
  · exact ⟨by simp, fun _ => kind, by simp +contextual, by simp⟩

/-- What a piece assigns is declared behind it. -/
theorem piece_grows (declares : grammar.Declares) :
    Grows (piece grammar) state fun result last =>
      ∀ value ∈ result, targetsIn value.nodes ⊆ last.declared ∧ StartsAt state.current value := by
  unfold piece
  simp only [Grows.current_bind]
  split
  case h_1 =>
    exact (bracketed_grows declares _).bind fun _ _ _ known => .pure (by simpa using known)
  case h_2 brace => exact (bracedWord_grows declares).mono (by simp [brace])
  case h_3 string =>
    refine (quotedString_grows declares).bind fun _ _ _ known => .pure ?_
    simpa [string] using known
  case h_4 => exact variableReference_grows declares _
  case h_5 number =>
    refine numberLiteral_grows.bind fun value _ _ known => .pure ?_
    rintro _ ⟨⟩
    exact ⟨by simp [known.1], .of_literal (by simp [number]) known.2.1 known.2.2⟩
  case h_6 => exact reportIllegal_grows
  case h_7 notBracket _ _ _ _ _ =>
    refine .pure ?_
    rintro _ ⟨⟩
    obtain ⟨none, starts⟩ := simplePiece_startsAt notBracket
    exact ⟨by simp [none], starts⟩

/-- Keys and values may assign; what is left out of a hash stays declared. -/
theorem hashPairs_grows (declares : grammar.Declares) :
    Grows (hashPairs grammar) state fun pairs last =>
      targetsIn (pairNodes pairs) ⊆ last.declared := by
  have none (last : State) : targetsIn (pairNodes []) ⊆ last.declared := by simp
  unfold hashPairs
  refine (piece_grows declares).bind fun key _ _ first => ?_
  cases key with
  | none => exact .pure (none _)
  | some key =>
    simp only [Grows.isAhead_bind]
    refine .ite (fun _ => .advance_bind ?_)
      fun _ => .record_bind rfl (spares_problem (by simp)) (.pure (none _))
    simp only [Grows.isAhead_bind]
    refine .ite (fun _ => .record_bind rfl (spares_problem (by simp)) (.pure (none _)))
      fun _ => .advance_bind ?_
    refine (piece_grows declares).bind fun value middle growth second => ?_
    cases value with
    | none => exact .pure (none _)
    | some value =>
      have first : targetsIn key.nodes ⊆ middle.declared := growth.keeps (first key rfl).1
      have second : targetsIn value.nodes ⊆ middle.declared := (second value rfl).1
      have one : targetsIn (pairNodes [(key, value)]) ⊆ middle.declared := by
        simpa using ⟨first, second⟩
      simp only [Grows.isAhead_bind]
      refine .ite (fun _ => .advance_bind ?_) fun _ => .ite (fun _ => .pure one) fun _ => ?_
      · simp only [Grows.isAhead_bind]
        refine .ite (fun _ => .pure one) fun _ => .advance_bind ?_
        refine (declares .hashPairs _).bind fun later last onward rest => .pure ?_
        simpa using ⟨onward.keeps first, onward.keeps second, rest⟩
      · exact .record_bind rfl (spares_problem (by simp)) (.pure one)

/-- What glued pieces assign is declared behind them. -/
theorem pieces_grows {glue : Glue} (declares : grammar.Declares) :
    Grows (pieces grammar glue) state fun pieces last =>
      targetsIn (nodesOf (pieces.map Prod.fst)) ⊆ last.declared := by
  unfold pieces
  simp only [Grows.get_bind]
  refine .ite (fun _ => .advance_bind ?_) fun _ => .pure (by simp)
  simp only [Grows.current_bind]
  refine (piece_grows declares).bind fun next middle _ first => ?_
  simp only [Grows.current_bind]
  refine (declares (.pieces glue) _).bind fun later _ onward rest => .pure ?_
  cases next with
  | none => exact rest
  | some next => simpa using ⟨onward.keeps (first next rfl).1, rest⟩

/-- A word assigns what its pieces do; made of text it assigns nothing. -/
theorem word_grows {glue : Glue} (declares : grammar.Declares) :
    Grows (word grammar glue) state fun result last =>
      ∀ value ∈ result, targetsIn value.nodes ⊆ last.declared ∧ StartsAt state.current value := by
  unfold word
  simp only [Grows.current_bind]
  refine (piece_grows declares).keep rfl fun first middle _ known => ?_
  simp only [Grows.get_bind]
  refine .ite (fun _ => ?_) fun _ => .pure (by simpa using known)
  refine (declares (.pieces glue) _).bind fun later last onward rest => ?_
  simp only [Grows.get_bind]
  refine .ite (fun literal => .pure ?_) fun _ => .pure ?_
  · rintro _ ⟨⟩
    have literal : first.isLiteral := (by simpa using literal : _ ∧ _).1
    exact ⟨by simp [bareWord], fun _ => known.2.literal literal,
      by simp [bareWord] , by simp [bareWord]⟩
  · rintro _ ⟨⟩
    refine ⟨?_, .of_other rfl (by simp)⟩
    have pieces : targetsIn (nodesOf (first :: later.map Prod.fst)) ⊆ last.declared := by
      simpa using ⟨onward.keeps known.1, rest⟩
    simpa using List.Subset.trans (rearranges_wordParts _ _ _).targetsIn_subset pieces

end IRule.Parser
