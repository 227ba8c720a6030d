import IRule.Proofs.RoundTrip.Word
import IRule.Proofs.Text.Bytes

/-!
# Words of literal tokens

A word that embeds nothing may be cut into many tokens: names, numbers, and signs on their
own. They are glued together again, so the word is what was written. Only a number that does
not fit its type is reported.
-/

namespace IRule

namespace Parser

open Lexeme (Severs Spells isLiteralRun)

variable {names : Names} {setting : Setting} {state : State} {gap text rest : List Char}
  {spacing : Spacing} {found : List Problem}

/-! ## Words with reports -/

/-- Wherever the text stands as a word, what is accepted is read, and the problems are
reported. -/
def ReadsWord (text : List Char) (accepts : Expression → Prop) (problems : List Problem) : Prop :=
  ∀ ⦃setting : Setting⦄ ⦃state : State⦄ ⦃gap rest : List Char⦄ ⦃spacing : Spacing⦄
    ⦃found : List Problem⦄,
    Gap gap spacing → state.Awaits (Reports found) setting (gap ++ (text ++ rest)) →
    setting.Stops .word rest →
    Yields (language.word .word) state.advance fun result last =>
      ∃ value, result = some value ∧ accepts value ∧
        last.Awaits (Reports (found ++ problems)) setting rest

/-- A piece that nothing glues to is a word, whatever was reported. -/
theorem yields_word_of_piece {glue : Glue} {post : Option Expression → State → Prop}
    (coherent : state.Coherent) (stops : setting.Stops glue rest)
    (read : Yields (piece language) state fun result last =>
      last.quiet.Faces setting rest ∧ post result last) :
    Yields (language.word glue) state post := by
  change Yields (language.parse (.word glue)) _ _
  refine .rule coherent ?_
  change Yields (Parser.word language glue) _ _
  unfold Parser.word
  simp only [Yields.current_bind]
  refine read.bind ?_
  rintro result last ⟨faces, holds⟩
  cases result with
  | none => exact .pure holds
  | some value =>
    have apart : glue.holds last = false := stops.apart last.quiet faces
    simp only [Yields.get_bind, apart]
    exact .pure holds

/-- What is read between two places is cut out of the text between them. -/
theorem State.Stands.slice_eq {state last : State} {changed : Setting} {gap text : List Char}
    (stands : last.Stands changed rest) (source : last.source = state.source)
    (faces : state.Faces setting (gap ++ (text ++ rest)))
    (passes : (Lexeme.Trivia.scan false (gap ++ (text ++ rest))).length = gap.length) :
    last.slice ⟨state.lookahead.span.start, last.current.span.stop⟩ = String.ofList text := by
  obtain ⟨passed, whole, start⟩ := faces.span_start rfl
  obtain ⟨before, ends, stop⟩ := stands.ahead.stands
  rw [stands.rest, source] at ends
  rw [passes, List.drop_left] at whole
  have cut : before = passed ++ text := by
    have same : passed ++ text ++ rest = before ++ rest := by
      rw [← ends, List.append_assoc, ← whole]
    exact (List.append_cancel_right same).symm
  rw [State.slice, start, stands.stop, stop, source, whole, cut, Text.slice_append]

/-! ## Pieces -/

/-- What is reported of a word: the numbers in it that do not fit their type. -/
def wordProblems (text : List Char) : List Problem :=
  (Lexeme.numbers 0 text).flatMap fun number =>
    if (Text.int64? number).isSome then [] else [.numberRange (String.ofList number)]

@[simp]
theorem wordProblems_nil : wordProblems [] = [] := rfl

/-- The text of a simple piece is that of its token. -/
theorem wordText?_simplePiece (token : Token) :
    (simplePiece token).wordText? = some token.literal := by
  unfold simplePiece
  split <;> rfl

/-- The text, read as one word of literal text: a bare one, unless it is a single token of a
kind of its own. -/
structure IsLiteral (text : List Char) (value : Expression) : Prop where
  spelled : value.wordText? = some (String.ofList text)
  bare : (Lexeme.scan 0 0 text).length ≠ text.length ∨
      isLiteralKind (Lexeme.scan 0 0 text).kind = false →
    value.shape = .identifier default (String.ofList text) false false

theorem shape_simplePiece {token : Token} (bare : isLiteralKind token.kind = false) :
    (simplePiece token).shape = .identifier default token.literal false false := by
  unfold simplePiece
  split <;> simp_all [isLiteralKind, Expression.shape]

/-- A token that neither groups nor embeds is a piece, a number apart. -/
theorem yields_simplePiece (legal : state.current.kind ≠ .illegal)
    (notNumber : state.current.kind ≠ .number) (alone : state.current.kind ∉ Lexeme.delimiters) :
    Yields (piece language) state fun result last =>
      result = some (simplePiece state.current) ∧ last = state := by
  unfold piece
  simp only [Yields.current_bind]
  split
  all_goals first
    | exact .pure ⟨rfl, rfl⟩
    | simp_all [Lexeme.delimiters]

/-- A number is a piece with its text, and is reported if it does not fit. -/
theorem yields_numberPiece (number : state.current.kind = .number)
    (awaits : state.Awaits (Reports found) setting rest) :
    Yields (piece language) state fun result last =>
      ∃ value, result = some value ∧ value.wordText? = some state.current.literal ∧
        last.source = state.source ∧
        last.Awaits (Reports (found ++
          if (Text.int64? state.current.literal.toList).isSome then []
          else [.numberRange state.current.literal])) setting rest := by
  have read : Yields numberLiteral state fun value last =>
      value.wordText? = some state.current.literal ∧ last.source = state.source ∧
        last.Awaits (Reports (found ++
          if (Text.int64? state.current.literal.toList).isSome then []
          else [.numberRange state.current.literal])) setting rest := by
    simp only [numberLiteral, Yields.current_bind]
    split
    · rename_i value known
      exact .pure ⟨rfl, rfl, by simpa [known] using awaits⟩
    · rename_i unknown
      refine ⟨_, _, rfl, rfl, rfl, awaits.record ?_⟩
      simpa [unknown] using awaits.found.concat _ _
  simp only [piece, Yields.current_bind, number]
  refine read.bind ?_
  rintro value last ⟨spelled, source, awaits⟩
  exact .pure ⟨value, rfl, spelled, source, awaits⟩

/-- The token at the head of a run is ahead, and the rest of the run behind it. -/
structure State.Heads (state : State) (setting : Setting) (text first later rest : List Char) :
    Prop where
  whole : text = first ++ later
  length : first.length = (Lexeme.scan 0 0 text).length
  nonempty : first ≠ []
  remaining : isLiteralRun 0 later
  numbers : Lexeme.numbers 0 text =
    (if state.lookahead.kind = .number then [first] else []) ++ Lexeme.numbers 0 later
  kind : state.lookahead.kind = (Lexeme.scan 0 0 text).kind
  literal : state.lookahead.literal = String.ofList first
  legal : state.lookahead.kind ≠ .illegal
  alone : state.lookahead.kind ∉ Lexeme.delimiters
  stands : state.advance.Stands setting (later ++ rest)

theorem State.Faces.heads (faces : state.Faces setting (gap ++ (text ++ rest)))
    (gapped : Gap gap spacing) (nonempty : text ≠ []) (run : isLiteralRun 0 text)
    (severs : Severs rest) :
    state.lookahead.spacing = spacing ∧ ∃ first later,
      state.Heads setting text first later rest := by
  obtain ⟨first, later, kind, whole, length, same, positive, remaining, numbers, legal, alone,
    spells⟩ := Lexeme.exists_literal nonempty run
  have faced : state.Faces setting (gap ++ (first ++ (later ++ rest))) := by
    simpa [whole] using faces
  obtain ⟨ahead, literal, apart, stands⟩ := faced.token gapped (spells severs)
  have ordinary : kind ≠ .string ∧ setting.delimit kind = setting := by
    cases kind <;> simp_all [Lexeme.delimiters, Setting.delimit]
  rw [Lexeme.literalOf_eq _ ordinary.1] at literal
  rw [ordinary.2] at stands
  rw [← ahead] at same legal alone numbers
  exact ⟨apart, first, later, whole, length, positive, remaining, numbers, same, literal, legal,
    alone, stands⟩

/-- A closing parenthesis is ahead only of a text that starts with one. -/
theorem State.Heads.head_of_closeParen {first later : List Char}
    (heads : state.Heads setting text first later rest)
    (closing : state.lookahead.kind = .closeParen) : text.head? = some ')' := by
  have kind := heads.kind
  rw [closing] at kind
  cases text with
  | nil => simp [Lexeme.scan] at kind
  | cons char behind => simp [Lexeme.scan_closeParen kind.symm]

/-- The token at the head of a run is a piece of it. -/
theorem yields_headPiece (nonempty : text ≠ []) (run : isLiteralRun 0 text)
    (gapped : Gap gap spacing) (faces : state.quiet.Faces setting (gap ++ (text ++ rest)))
    (reported : Reports found state.diagnostics) (severs : Severs rest) :
    state.lookahead.spacing = spacing ∧ state.lookahead.kind ∉ Lexeme.delimiters ∧
      ∃ first later problems, text = first ++ later ∧
        first.length = (Lexeme.scan 0 0 text).length ∧ first ≠ [] ∧ isLiteralRun 0 later ∧
        wordProblems text = problems ++ wordProblems later ∧
        Yields (piece language) state.advance fun result last =>
          ∃ value, result = some value ∧ value.wordText? = some (String.ofList first) ∧
            (isLiteralKind (Lexeme.scan 0 0 text).kind = false →
              value.shape = .identifier default (String.ofList first) false false) ∧
            last.source = state.source ∧
            last.Awaits (Reports (found ++ problems)) setting (later ++ rest) := by
  obtain ⟨apart, first, later, heads⟩ := faces.heads gapped nonempty run severs
  have next : state.advance.Awaits (Reports found) setting (later ++ rest) :=
    ⟨heads.stands, reported⟩
  have text : state.advance.current.literal = String.ofList first := heads.literal
  have legal : state.advance.current.kind ≠ .illegal := heads.legal
  have alone : state.advance.current.kind ∉ Lexeme.delimiters := heads.alone
  have kind : state.advance.current.kind = (Lexeme.scan 0 0 _).kind := heads.kind
  have numbers : Lexeme.numbers 0 _ =
      (if state.advance.current.kind = .number then [first] else []) ++ Lexeme.numbers 0 later :=
    heads.numbers
  refine ⟨apart, heads.alone, first, later,
    if state.advance.current.kind = .number ∧ (Text.int64? first).isSome = false
      then [.numberRange (String.ofList first)] else [],
    heads.whole, heads.length, heads.nonempty, heads.remaining, ?_, ?_⟩
  · rw [wordProblems, numbers, List.flatMap_append, wordProblems]
    congr 1
    by_cases number : state.advance.current.kind = .number
    · cases fits : (Text.int64? first).isSome <;> simp [number, fits]
    · simp [number]
  · by_cases number : state.advance.current.kind = .number
    · refine (yields_numberPiece number next).mono ?_
      rintro _ last ⟨value, rfl, spelled, source, awaits⟩
      refine ⟨value, rfl, spelled.trans (congrArg some text), ?_, source, ?_⟩
      · simp [← kind, number, isLiteralKind]
      · rw [text, String.toList_ofList] at awaits
        cases fits : (Text.int64? first).isSome <;> simpa [number, fits] using awaits
    · refine (yields_simplePiece legal number alone).mono ?_
      rintro _ _ ⟨rfl, rfl⟩
      refine ⟨_, rfl, (wordText?_simplePiece _).trans (congrArg some text), fun bare => ?_, rfl,
        by simpa [number] using next⟩
      rw [shape_simplePiece (kind ▸ bare), text]

/-! ## Gluing -/

/-- Parentheses do not end a word that stands in no key. -/
def Setting.Joins (setting : Setting) (text : List Char) : Prop :=
  setting.nesting.head? = some .index → ')' ∉ text

theorem Setting.Joins.behind {first later : List Char} (joins : setting.Joins (first ++ later)) :
    setting.Joins later :=
  fun index inside => joins index (List.mem_append_right _ inside)

/-- What is left of a run is glued to what stands in front of it. -/
theorem glues_of_isLiteralRun (nonempty : text ≠ []) (run : isLiteralRun 0 text)
    (joins : setting.Joins text)
    (awaits : state.Awaits (Reports found) setting (text ++ rest)) (severs : Severs rest) :
    Glue.word.holds state = true := by
  obtain ⟨adjacent, inner, -⟩ :=
    yields_headPiece nonempty run .none awaits.faces awaits.found severs
  have faced : state.quiet.Faces setting ([] ++ (text ++ rest)) := awaits.faces
  obtain ⟨-, _, _, heads⟩ := faced.heads .none nonempty run severs
  have inside : state.lookahead.kind = .closeParen → setting.nesting.head? ≠ some .index :=
    fun closing index => joins index (List.mem_of_mem_head? (heads.head_of_closeParen closing))
  have nesting : state.nesting = setting.nesting := awaits.faces.nesting
  cases known : state.lookahead.kind <;>
    simp_all [Glue.holds, State.glues, Spacing.isAdjacent, Spacing.none, Lexeme.delimiters,
      TokenKind.isTerminator]

/-- The rest of a run is glued together. -/
theorem yields_glued (run : isLiteralRun 0 text) (joins : setting.Joins text)
    (stops : setting.Stops .word rest)
    (awaits : state.Awaits (Reports found) setting (text ++ rest)) :
    Yields (language.pieces .word) state fun result last =>
      (∀ entry ∈ result, entry.1.isLiteral) ∧ last.source = state.source ∧
        last.Awaits (Reports (found ++ wordProblems text)) setting rest := by
  induction size : text.length using Nat.strong_induction_on generalizing text state found with
  | _ length ih =>
  change Yields (language.parse (.pieces .word)) _ _
  refine .rule awaits.coherent ?_
  change Yields (pieces language .word) _ _
  simp only [pieces, Yields.get_bind]
  rcases eq_or_ne text [] with rfl | nonempty
  · have apart : Glue.word.holds state = false := stops.apart state.quiet awaits.faces
    simp only [apart]
    exact .pure ⟨by simp, rfl, by simpa using awaits⟩
  · have glued := glues_of_isLiteralRun nonempty run joins awaits stops.severs
    obtain ⟨-, -, first, later, problems, rfl, -, positive, remaining, counted, read⟩ :=
      yields_headPiece nonempty run .none awaits.faces awaits.found stops.severs
    have shorter : later.length < length := by
      have read := List.length_pos_of_ne_nil positive
      simp only [List.length_append] at size
      omega
    simp only [glued, if_true, Yields.advance_bind, Yields.current_bind]
    refine read.bind ?_
    rintro _ next ⟨value, rfl, text, -, source, awaits⟩
    simp only [Yields.current_bind]
    refine (ih later.length shorter remaining joins.behind awaits rfl).bind ?_
    rintro entries last ⟨literal, same, awaits⟩
    refine .pure ⟨?_, same.trans source, ?_⟩
    · intro entry inside
      simp only [Option.map_some, Option.toList_some, List.singleton_append,
        List.mem_cons] at inside
      rcases inside with rfl | inside
      · simp [Expression.isLiteral, text]
      · exact literal entry inside
    · rwa [counted, ← List.append_assoc]

/-- A run is read as it is written. -/
theorem yields_literal (nonempty : text ≠ []) (run : isLiteralRun 0 text)
    (joins : setting.Joins text) (gapped : Gap gap spacing)
    (faces : state.quiet.Faces setting (gap ++ (text ++ rest)))
    (reported : Reports found state.diagnostics) (stops : setting.Stops .word rest) :
    Yields (language.word .word) state.advance fun result last =>
      ∃ value, result = some value ∧ IsLiteral text value ∧
        last.Awaits (Reports (found ++ wordProblems text)) setting rest := by
  obtain ⟨-, -, first, later, problems, whole, length, -, remaining, counted, read⟩ :=
    yields_headPiece nonempty run gapped faces reported stops.severs
  have tight : Lexeme.Trivia.scan false (text ++ rest) = .empty :=
    Lexeme.trivia_of_isLiteralRun nonempty run
  change Yields (language.parse (.word .word)) _ _
  refine .rule (faces.ahead.advance.congr rfl rfl rfl rfl rfl) ?_
  change Yields (word language .word) _ _
  unfold word
  simp only [Yields.current_bind]
  refine read.bind ?_
  rintro _ next ⟨value, rfl, spelled, bare, source, passed⟩
  simp only [Yields.get_bind]
  rcases eq_or_ne later [] with rfl | more
  · have apart : Glue.word.holds next = false := stops.apart next.quiet passed.faces
    simp only [apart]
    rw [List.append_nil] at whole
    subst whole
    refine .pure ⟨value, rfl, ⟨spelled, fun single => bare ?_⟩, by simpa [counted] using passed⟩
    exact single.resolve_left (not_not.2 length.symm)
  · have joined : setting.Joins later := by
      rw [whole] at joins
      exact joins.behind
    have glued := glues_of_isLiteralRun more remaining joined passed stops.severs
    simp only [glued, if_true]
    refine (yields_glued remaining joined stops passed).bind ?_
    rintro entries last ⟨literal, same, ended⟩
    have raw : last.quiet.slice ⟨state.quiet.lookahead.span.start, last.quiet.current.span.stop⟩ =
        String.ofList text :=
      ended.stands.slice_eq (same.trans source) faces (congrArg _ (gapped.scan tight))
    have literals : ((value, (⟨state.advance.current.span.start, next.current.span.stop⟩ : Span)) ::
        entries).all (fun entry => entry.1.isLiteral) = true := by
      simpa [Expression.isLiteral, spelled] using literal
    refine Yields.get_bind.2 ?_
    simp only [literals, if_true]
    have made : last.slice ⟨state.advance.current.span.start, last.current.span.stop⟩ =
        String.ofList text := raw
    refine .pure ⟨_, rfl, ⟨congrArg some made, fun _ => ?_⟩, ?_⟩
    · simp [bareWord, Expression.shape, made]
    · rwa [counted, ← List.append_assoc]

theorem readsWord_literal (nonempty : text ≠ []) (run : isLiteralRun 0 text)
    (plain : ')' ∉ text) : ReadsWord text (IsLiteral text) (wordProblems text) :=
  fun _ _ _ _ _ _ gapped awaits stops =>
    yields_literal nonempty run (fun _ => plain) gapped awaits.faces awaits.found stops

/-! ## Words taken as text -/

/-- A run is passed over up to where the word ends. -/
theorem yields_rawRun (run : isLiteralRun 0 text) (joins : setting.Joins text)
    (stops : setting.Stops .word rest)
    (stands : state.Stands setting (text ++ rest)) :
    Yields (language.rawWord 0) state fun _ last =>
      last.source = state.source ∧ last.Stands setting rest := by
  induction size : text.length using Nat.strong_induction_on generalizing text state with
  | _ length ih =>
  change Yields (language.parse (.rawWord 0)) _ _
  refine .rule stands.coherent ?_
  change Yields (rawWord language 0) _ _
  simp only [rawWord, Yields.get_bind]
  rcases eq_or_ne text [] with rfl | nonempty
  · have apart : state.glues = false := stops.apart state stands.toFaces
    simp only [apart]
    exact .pure ⟨rfl, stands⟩
  · have awaits : state.Awaits (Reports []) setting (text ++ rest) :=
      ⟨by rwa [State.quiet_eq stands.clean], reports_nil_iff.2 stands.clean⟩
    have glued : state.glues = true :=
      glues_of_isLiteralRun nonempty run joins awaits stops.severs
    have faced : state.Faces setting ([] ++ (text ++ rest)) := stands.toFaces
    obtain ⟨-, first, later, heads⟩ := faced.heads .none nonempty run stops.severs
    have alone := heads.alone
    simp only [Lexeme.delimiters, List.mem_cons, List.not_mem_nil, or_false, not_or] at alone
    have more : (state.lookahead.kind == .endOfInput || state.lookahead.kind == .closeBrace) =
        false := by
      simp [alone]
    have passed : Yields (passToken language 0) state.advance fun depth last =>
        depth = 0 ∧ last = state.advance := by
      have here : state.advance.current.kind = state.lookahead.kind := rfl
      simp only [passToken, Yields.current_bind, here]
      split
      all_goals first
        | exact .pure ⟨rfl, rfl⟩
        | simp_all
    have shorter : later.length < length := by
      have read := List.length_pos_of_ne_nil heads.nonempty
      simp only [heads.whole, List.length_append] at size
      omega
    simp only [glued, more, Bool.not_true, Bool.and_false, Bool.false_eq_true, if_false,
      Yields.advance_bind]
    refine passed.bind ?_
    rintro _ _ ⟨rfl, rfl⟩
    have joined : setting.Joins later := by
      rw [heads.whole] at joins
      exact joins.behind
    exact ih later.length shorter heads.remaining joined heads.stands rfl

/-- A run is taken as it is written. -/
theorem yields_rawText (nonempty : text ≠ []) (run : isLiteralRun 0 text)
    (joins : setting.Joins text) (gapped : Gap gap spacing)
    (faces : state.Faces setting (gap ++ (text ++ rest))) (stops : setting.Stops .word rest) :
    Yields (rawWordText language) state.advance fun result last =>
      result = String.ofList text ∧ last.Stands setting rest := by
  obtain ⟨-, first, later, heads⟩ := faces.heads gapped nonempty run stops.severs
  have tight : Lexeme.Trivia.scan false (text ++ rest) = .empty :=
    Lexeme.trivia_of_isLiteralRun nonempty run
  have plain : (state.advance.current.kind == .openBracket) = false := by
    have alone : state.advance.current.kind ∉ Lexeme.delimiters := heads.alone
    rw [beq_eq_false_iff_ne]
    intro bracket
    simp [bracket, Lexeme.delimiters] at alone
  simp only [rawWordText, Yields.current_bind, plain]
  have joined : setting.Joins later := by
    rw [heads.whole] at joins
    exact joins.behind
  refine (yields_rawRun heads.remaining joined stops heads.stands).bind ?_
  rintro _ last ⟨source, stands⟩
  have same : last.source = state.source := source
  simp only [Yields.get_bind]
  exact .pure ⟨stands.slice_eq same faces (congrArg _ (gapped.scan tight)), stands⟩

/-! ## Words read back -/

/-- A run of tokens begins a word. -/
theorem begins_of_isLiteralRun (nonempty : text ≠ []) (opening : text.head? ≠ some ')')
    (run : isLiteralRun 0 text) : Begins text := by
  intro setting state gap rest spacing gapped faces severs
  obtain ⟨apart, _, _, heads⟩ := faces.heads gapped nonempty run severs
  refine ⟨fun listed => heads.alone ?_, apart⟩
  have among : ∀ kind ∈ enders, kind ≠ .closeParen → kind ∈ Lexeme.delimiters := by decide
  exact among _ listed fun closing => opening (heads.head_of_closeParen closing)

/-- A text of literal tokens is read back as a bare word. -/
theorem readsWhole_literal {token : Token} {name : String} {isReserved : Bool}
    (legible : isLiteralWord name) (joins : names.keyed → ')' ∉ name.toList) :
    ReadsWhole names (.identifier token name false isReserved) := by
  intro setting state gap rest spacing admits gapped faces stops
  simp only [isLiteralWord, Bool.and_eq_true, Bool.not_eq_true', List.isEmpty_eq_false_iff,
    Bool.or_eq_true, bne_iff_ne] at legible
  obtain ⟨⟨⟨⟨nonempty, -⟩, run⟩, fit⟩, bare⟩ := legible
  have quiet : wordProblems name.toList = [] := by
    simp only [wordProblems, List.flatMap_eq_nil_iff]
    intro number inside
    rw [if_pos (List.all_eq_true.1 fit number inside)]
  have faced : state.quiet.Faces setting (gap ++ (name.toList ++ rest)) := by
    simpa [State.quiet_eq faces.clean, Expression.written] using faces
  refine (yields_literal nonempty run (fun index => joins (admits.placed index)) gapped faced
    (reports_nil_iff.2 faces.clean) stops).mono ?_
  rintro _ last ⟨value, rfl, literal, awaits⟩
  rw [quiet] at awaits
  rw [List.append_nil] at awaits
  refine copied_of_names rfl ⟨?_, ?_⟩ awaits.unreported
  · simpa [Expression.shape] using literal.bare bare
  · simpa [Expression.spelledText?, Expression.wordText?] using literal.spelled

/-- Addresses are read back. -/
theorem readsBack_address {token : Token} {text : String}
    (dotted : Lexeme.isAddress text.toList) : ReadsBack names (.address token text) := by
  intro setting state gap rest spacing _ gapped faces breaks _
  simp only [Expression.written] at faces
  obtain ⟨kind, literal, -, stands⟩ := faces.token gapped (.address dotted breaks.endsDigits)
  rw [Lexeme.literalOf_eq _ (by simp), String.ofList_toList] at literal
  have here : state.advance.current.kind = .address := kind
  have spelled : state.advance.current.literal = text := literal
  refine (yields_simplePiece (by simp [here]) (by simp [here])
    (by simp [here, Lexeme.delimiters])).mono ?_
  rintro _ _ ⟨rfl, rfl⟩
  have same : simplePiece state.advance.current = .address state.advance.current text := by
    simp [simplePiece, here, spelled]
  rw [same]
  exact copied_of_names rfl ⟨rfl, rfl⟩ stands

end Parser

end IRule
