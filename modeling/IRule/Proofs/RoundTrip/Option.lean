import IRule.Proofs.RoundTrip.Command
import Mathlib.Data.List.TakeWhile

/-!
# Commands with options read back

`class` and `regsub` take option words in front of their arguments, as text. The words behind
them must not look like options, or be kept apart by `--`, and the pattern of `regsub` is
taken verbatim if it stands in braces.
-/

namespace IRule

namespace Parser

open Lexeme (Severs isLiteralRun)

variable {names : Names} {setting : Setting} {state : State} {gap rest : List Char}
  {spacing : Spacing}

/-! ## Options ahead -/

/-- Whether an option is ahead can be told from the text. -/
theorem State.Faces.optionAhead {ahead : List Char} (faces : state.Faces setting (gap ++ ahead))
    (gapped : Gap gap spacing) (tight : Lexeme.Trivia.scan false ahead = .empty) :
    state.optionAhead = startsOption ahead := by
  have trivia : Lexeme.Trivia.scan false (gap ++ ([] ++ ahead)) = .ofGap gap spacing :=
    gapped.scan tight
  obtain ⟨kind, -, -, -⟩ := faces.next trivia rfl
  rw [Lexeme.Trivia.ofGap_length, List.drop_left] at kind
  match ahead with
  | [] => simp [State.optionAhead, kind, Lexeme.scan, startsOption]
  | char :: later =>
    by_cases dash : char = '-'
    · subst dash
      cases digit : later.head?.any Char.isDigit with
      | true =>
        have starts : Lexeme.startsNumeral ('-' :: later) := by
          cases later <;> simp_all [Lexeme.startsNumeral]
        have number : state.lookahead.kind = (Lexeme.numeral ('-' :: later)).kind := by
          simpa [Lexeme.scan, starts] using kind
        have other : state.lookahead.kind ≠ .minus := by
          rcases Lexeme.numeral_kind ('-' :: later) with same | same | same <;> simp [number, same]
        have plain : startsOption ('-' :: later) = false := by
          cases later with
          | nil => rfl
          | cons next later =>
            have isDigit : next.isDigit := by simpa using digit
            have notDash : next ≠ '-' := by
              rintro rfl
              simp at isDigit
            have notAlpha : next.isAlpha = false := by
              by_contra letter
              have start : Lexeme.isNameStart next := by simp_all [Lexeme.isNameStart]
              simp [Lexeme.not_isDigit_of_isNameStart start] at isDigit
            simp [startsOption, notDash, notAlpha]
        simp [State.optionAhead, other, plain]
      | false =>
        have dashed : state.Faces setting (gap ++ (['-'] ++ later)) := faces
        obtain ⟨minus, -, -, stands⟩ := dashed.token gapped (.minus digit)
        have follows : state.lexer.scanner.rest = later := stands.rest
        cases later <;> simp [State.optionAhead, minus, State.charAhead?, follows, startsOption]
    · have other : state.lookahead.kind ≠ .minus := fun minus =>
        dash (Lexeme.scan_minus (kind.symm.trans minus))
      have plain : startsOption (char :: later) = false := by
        cases later <;> simp [startsOption, dash]
      simp [State.optionAhead, other, plain]

/-- What severs a text from what stands behind it makes no option of it. -/
theorem startsOption_append {text : List Char} (nonempty : text ≠ []) (severs : Severs rest) :
    startsOption (text ++ rest) = startsOption text := by
  match text with
  | [] => contradiction
  | [char] =>
    cases rest with
    | nil => rfl
    | cons next later =>
      obtain ⟨notWord, -⟩ := severs next rfl
      simp only [Lexeme.isWordChar, Lexeme.isNameChar, Char.isAlphanum, Bool.or_eq_false_iff]
        at notWord
      by_cases dash : char = '-' <;> simp [startsOption, dash, notWord]
  | char :: next :: later => by_cases dash : char = '-' <;> simp [startsOption, dash]

theorem tight_of_legibleArgument {word : Expression} (legible : word.legibleArgument names) :
    word.written.toList ≠ [] ∧ Lexeme.Trivia.scan false (word.written.toList ++ rest) = .empty := by
  cases bare : word.isBare with
  | true =>
    obtain ⟨token, name, isReserved, rfl⟩ := exists_of_isBare bare
    obtain ⟨nonempty, -, run⟩ := run_of_legibleArgument legible
    simp only [Expression.written, if_neg Bool.false_ne_true]
    exact ⟨nonempty, Lexeme.trivia_of_isLiteralRun nonempty run⟩
  | false =>
    rcases starts_of_legibleArgument legible bare with ⟨char, later, written, piece⟩ | brace
    · rw [written]
      exact ⟨by simp, Lexeme.Trivia.scan_tight _ (Lexeme.startsTrivia_of_startsPiece piece)⟩
    · obtain ⟨later, written⟩ := List.head?_eq_some_iff.1 brace
      rw [written]
      exact ⟨by simp, Lexeme.Trivia.scan_tight _ rfl⟩

/-- A word that does not look like an option is none. -/
theorem State.Faces.noOption {word : Expression}
    (faces : state.Faces setting ([' '] ++ (word.written.toList ++ rest)))
    (legible : word.legibleArgument names) (plain : startsOption word.written.toList = false)
    (severs : Severs rest) : state.optionAhead = false := by
  obtain ⟨nonempty, tight⟩ := tight_of_legibleArgument legible
  rw [faces.optionAhead .space tight, startsOption_append nonempty severs, plain]

/-- An option word is ahead, and is taken as it is written. -/
theorem yields_option {option : String} (starts : startsOption option.toList)
    (run : isLiteralRun 0 option.toList) (plain : ')' ∉ option.toList)
    (stands : state.Stands setting ([' '] ++ (option.toList ++ rest)))
    (stops : setting.Stops .word rest) :
    state.optionAhead = true ∧ Yields (rawWordText language) state.advance fun result last =>
      result = option ∧ last.Stands setting rest := by
  have nonempty : option.toList ≠ [] := by
    intro none
    simp [none, startsOption] at starts
  constructor
  · rw [stands.toFaces.optionAhead .space (Lexeme.trivia_of_isLiteralRun nonempty run),
      startsOption_append nonempty stops.severs, starts]
  · simpa using yields_rawText nonempty run (fun _ => plain) .space stands.toFaces stops

/-! ## `class` -/

/-- Options of `class` are read back in front of words that do not look like options. -/
theorem yields_classOptions {options : List String} {words : List Expression}
    (known : ∀ option ∈ options, option ∈ Vocabulary.classOptions)
    (ends : endsOptions words options) (legible : legibleArguments names words)
    (closes : setting.Closes rest)
    (stands : state.Stands setting ((spacedWords options).toList ++
      ((spacedWords (writtenAll words)).toList ++ rest))) :
    Yields language.classOptions state fun result last => result = options ∧
      last.Stands setting ((spacedWords (writtenAll words)).toList ++ rest) := by
  have behind : setting.Stops .word ((spacedWords (writtenAll words)).toList ++ rest) :=
    stops_spacedWords (closes.stops .word)
  induction options generalizing state with
  | nil =>
    have none : state.optionAhead = false := by
      cases words with
      | nil => simp [endsOptions] at ends
      | cons word words =>
        simp only [legibleArguments, Bool.and_eq_true] at legible
        have faced : state.Faces setting ([' '] ++ (word.written.toList ++
            ((spacedWords (writtenAll words)).toList ++ rest))) := by
          simpa [writtenAll, spacedWords_eq_followed] using stands.toFaces
        exact faced.noOption legible.1 (by simpa [endsOptions] using ends)
          (severs_spacedWords closes.severs)
    change Yields (language.parse .classOptions) _ _
    refine .rule stands.coherent ?_
    change Yields (classOptions language) _ _
    simp only [classOptions, Yields.get_bind, none]
    exact .pure ⟨rfl, by simpa [spacedWords_eq_followed] using stands⟩
  | cons option options ih =>
    obtain ⟨listed, others⟩ := List.forall_mem_cons.1 known
    have optional : ∀ option ∈ Vocabulary.classOptions,
        startsOption option.toList ∧ isLiteralRun 0 option.toList ∧ ')' ∉ option.toList := by
      decide
    have faced : state.Stands setting ([' '] ++ (option.toList ++ ((spacedWords options).toList ++
        ((spacedWords (writtenAll words)).toList ++ rest)))) := by
      simpa [spacedWords_eq_followed] using stands
    obtain ⟨starts, run, plain⟩ := optional option listed
    obtain ⟨ahead, read⟩ := yields_option starts run plain faced (stops_spacedWords behind)
    have contained : Vocabulary.classOptions.contains option = true := by simpa using listed
    change Yields (language.parse .classOptions) _ _
    refine .rule stands.coherent ?_
    change Yields (classOptions language) _ _
    simp only [classOptions, Yields.get_bind, ahead, if_true, Yields.advance_bind]
    refine read.bind ?_
    rintro _ next ⟨rfl, passed⟩
    simp only [contained, if_true]
    rw [endsOptions] at ends
    split at ends
    · rename_i last
      obtain rfl : options = [] := by simpa using ends
      simp only [last, if_true]
      exact .pure ⟨rfl, by simpa [spacedWords_eq_followed] using passed⟩
    · rename_i more
      simp only [more]
      refine (ih others ends passed).bind ?_
      rintro _ last ⟨rfl, ended⟩
      exact .pure ⟨rfl, ended⟩

/-- What is known of the arguments holds of what is read for them. -/
theorem yields_checkClassArguments {subcommand : String} {arguments copies : List Expression}
    {line : Nat} (sound : ClassArguments subcommand arguments)
    (known : comparesKnown subcommand (arguments.map Expression.respelled))
    (alike : List.Forall₂ Expression.Copies copies arguments) :
    Yields (checkClassArguments subcommand copies line) state fun _ last => last = state := by
  unfold checkClassArguments
  split
  · rename_i compares
    obtain ⟨item, operator, list, rfl, -⟩ := sound (by simpa using compares)
    obtain _ | ⟨-, _ | ⟨same, _ | ⟨-, _ | _⟩⟩⟩ := alike
    have text := same.text
    rw [← wordText?_respelled] at text
    simp only [comparesKnown, compares, Bool.not_true, Bool.false_or, List.map_cons,
      List.getElem?_cons_succ, List.getElem?_cons_zero, Option.bind_some] at known
    simp only [text]
    split
    · rename_i spelled
      rw [if_pos (by simpa [spelled] using known)]
      exact .pure rfl
    · exact .pure rfl
  · exact .pure rfl

theorem readsCommand_class {token : Token} {subcommand : String} {options : List String}
    {arguments : List Expression} (ends : endsOptions arguments options)
    (compares : comparesKnown subcommand (arguments.map Expression.respelled))
    (legible : legibleArguments names arguments)
    (sound : (Expression.classCommand token subcommand options arguments).Sound)
    (argues : ArguesAll names arguments) :
    ReadsCommand names (.classCommand token subcommand options arguments) := by
  intro setting state gap rest spacing admits gapped faces closes _ _
  obtain ⟨known, listed, checks⟩ := sound
  have faced : state.Faces setting
      (gap ++ ("class".toList ++ ([' '] ++ (subcommand.toList ++ ((spacedWords options).toList ++
        ((spacedWords (writtenAll arguments)).toList ++ rest)))))) := by
    simpa [Expression.written] using faces
  have words : ∀ word ∈ Vocabulary.classSubcommands,
      Lexeme.isBareWord word.toList ∧ isOperatorWord word = false := by decide
  obtain ⟨bare, notOperator⟩ := words subcommand
      (by simpa [Vocabulary.isClassSubcommand] using known)
  have breaks : Lexeme.Breaks ((spacedWords options).toList ++
      ((spacedWords (writtenAll arguments)).toList ++ rest)) :=
    breaks_spacedWords (breaks_spacedWords closes.breaks)
  obtain ⟨kind, -, -, named⟩ := faced.name gapped (by decide) breaks_space
  have here : state.advance.current.kind = .reserved .classWord := kind.trans (by decide)
  obtain ⟨-, text, -, stands⟩ := named.toFaces.name .space bare breaks
  have spelled : state.advance.advance.current.literal = subcommand := text
  have unended := endsCommand_of_starts named.toFaces (starts_of_isBareWord bare)
  have plainly := named.toFaces.notOperator .space bare breaks notOperator
  have commandRead : Yields (classCommand language) state.advance fun result last =>
      ∃ copies, result = some (.classCommand state.advance.current subcommand options copies) ∧
        List.Forall₂ Expression.Copies copies arguments ∧
        last.Stands (setting.knowing (wordNames arguments)) rest := by
    simp only [classCommand, Yields.current_bind, Yields.endsCommand_bind, unended,
      Bool.false_eq_true, if_false, Yields.advance_bind, spelled, known, if_true]
    refine (yields_classOptions listed ends legible closes stands).bind ?_
    rintro _ next ⟨rfl, passed⟩
    refine (readsWords_arguments.yields argues admits closes passed).bind ?_
    rintro copies last ⟨alike, stands⟩
    refine (yields_checkClassArguments checks compares alike).bind ?_
    rintro _ _ rfl
    exact .pure ⟨copies, rfl, alike, stands⟩
  refine .command named.coherent (by simp [startsCommand, here]) (by simp [plainly]) ?_
  simp only [command, Yields.current_bind, commandFamily?, here]
  refine commandRead.mono ?_
  rintro _ last ⟨copies, rfl, alike, stands⟩
  refine ⟨_, rfl, by simp [Expression.shape, shapeAll_of_copies alike], ?_⟩
  simpa [Expression.exclusives, Expression.names, wordNames, Node.declares, Setting.after] using
    stands

/-! ## `regsub` -/

theorem closeParen_notMem_of_isRegsubFlag {flag : String}
    (known : Vocabulary.isRegsubFlag (String.ofList (flag.toList.dropWhile (· == '-')))) :
    ')' ∉ flag.toList := by
  have names : ∀ name ∈ Vocabulary.regsubFlags, ')' ∉ name.toList := by decide
  have name : ')' ∉ flag.toList.dropWhile (· == '-') := by
    simpa using names _ (List.contains_iff_mem.1 known)
  have dashes : ')' ∉ flag.toList.takeWhile (· == '-') := fun inside => by
    simpa using List.mem_takeWhile_imp inside
  rw [← List.takeWhile_append_dropWhile (p := (· == '-')) (l := flag.toList), List.mem_append]
  exact not_or.2 ⟨dashes, name⟩

/-- Flags of `regsub` are read back in front of what does not look like a flag. -/
theorem yields_regsubFlags {flags : List String} {text : List Char}
    (legible : flags.all isLegibleFlag) (stops : setting.Stops .word text)
    (plain : ∀ next : State, next.Faces setting text → next.optionAhead = false)
    (stands : state.Stands setting ((spacedWords flags).toList ++ text)) :
    Yields language.regsubFlags state fun result last =>
      result = flags ∧ last.Stands setting text := by
  induction flags generalizing state with
  | nil =>
    have behind : state.Stands setting text := by simpa [spacedWords_eq_followed] using stands
    change Yields (language.parse .regsubFlags) _ _
    refine .rule stands.coherent ?_
    change Yields (regsubFlags language) _ _
    simp only [regsubFlags, Yields.get_bind, plain state behind.toFaces]
    exact .pure ⟨rfl, behind⟩
  | cons flag flags ih =>
    simp only [List.all_cons, isLegibleFlag, Bool.and_eq_true, bne_iff_ne] at legible
    obtain ⟨⟨⟨⟨starts, run⟩, notLast⟩, known⟩, others⟩ := legible
    have faced : state.Stands setting ([' '] ++ (flag.toList ++
        ((spacedWords flags).toList ++ text))) := by
      simpa [spacedWords_eq_followed] using stands
    obtain ⟨ahead, read⟩ := yields_option starts run
      (closeParen_notMem_of_isRegsubFlag known) faced (stops_spacedWords stops)
    change Yields (language.parse .regsubFlags) _ _
    refine .rule stands.coherent ?_
    change Yields (regsubFlags language) _ _
    simp only [regsubFlags, Yields.get_bind, ahead, if_true, Yields.advance_bind]
    refine read.bind ?_
    rintro _ next ⟨rfl, passed⟩
    simp only [beq_eq_false_iff_ne.2 notLast, Bool.false_eq_true, if_false, known, if_true]
    refine (ih others passed).bind ?_
    rintro _ last ⟨rfl, ended⟩
    exact .pure ⟨rfl, ended⟩

/-- A pattern that is read back, and that no flag and no operator is taken for. -/
structure ReadsPattern (names : Names) (pattern : Expression) : Prop where
  ahead : ∀ ⦃setting : Setting⦄ ⦃state : State⦄ ⦃rest : List Char⦄, Severs rest →
    state.Faces setting ([' '] ++ (pattern.written.toList ++ rest)) →
    state.endsCommand = false ∧ state.optionAhead = false ∧
      Precedence.isStatementOperator state.lookahead = false
  reads : ∀ ⦃setting : Setting⦄ ⦃state : State⦄ ⦃rest : List Char⦄, setting.Admits names →
    setting.Stops .word rest → state.Faces setting ([' '] ++ (pattern.written.toList ++ rest)) →
    Yields (regsubArgument language true) state.advance fun result last =>
      ∃ copy : Expression, result = some copy ∧ copy.shape = pattern.shape ∧
        last.Stands (setting.knowing pattern.names) rest

theorem readsPattern_verbatim {token : Token} {pattern : String}
    (braced : isBraced pattern.toList) :
    ReadsPattern names (.regex token pattern) := by
  have braceFaced {setting : Setting} {state : State} {rest : List Char}
      (faces : state.Faces setting ([' '] ++ ((Expression.regex token pattern).written.toList ++
        rest))) :
      state.Faces setting ([' '] ++ (['\x7b'] ++ (pattern.toList ++ '\x7d' :: rest))) := by
    simpa [Expression.written] using faces
  constructor
  · intro setting state rest _ faces
    obtain ⟨kind, -, apart, -⟩ := (braceFaced faces).token .space .openBrace
    have tight : Lexeme.Trivia.scan false
        (['\x7b'] ++ (pattern.toList ++ '\x7d' :: rest)) = .empty :=
      Lexeme.Trivia.scan_tight _ rfl
    refine ⟨by simp [State.endsCommand, kind, apart, TokenKind.isTerminator], ?_,
      isStatementOperator_of_literal (by simp [kind])⟩
    rw [(braceFaced faces).optionAhead .space tight]
    rfl
  · intro setting state rest _ _ faces
    obtain ⟨kind, -, -, opened⟩ := (braceFaced faces).token .space .openBrace
    have here : state.advance.current.kind = .openBrace := kind
    simp only [regsubArgument, Yields.current_bind, here, beq_self_eq_true, Bool.and_self, if_true]
    refine (yields_captureBrace braced here opened).bind ?_
    rintro _ last ⟨rfl, stands, -⟩
    exact .pure ⟨_, rfl, by simp [Expression.shape],
      by simpa [Expression.names, Node.declares] using stands⟩

theorem readsPattern_word {pattern : Expression} (legible : pattern.legibleArgument names)
    (argument : isArgument pattern) (plain : startsOption pattern.written.toList = false)
    (unbraced : pattern.written.toList.head? ≠ some '\x7b') (argues : Argues names pattern) :
    ReadsPattern names pattern := by
  constructor
  · intro setting state rest severs faces
    exact ⟨argues.begins.goesOn faces severs, faces.noOption legible plain severs,
      not_isStatementOperator faces legible argument severs⟩
  · intro setting state rest admits stops faces
    have notBrace : (state.advance.current.kind == .openBrace) = false := by
      obtain ⟨nonempty, tight⟩ := tight_of_legibleArgument legible
      obtain ⟨kind, -, -, -⟩ := faces.next (Gap.space.scan tight) rfl
      rw [beq_eq_false_iff_ne]
      intro opening
      have brace := Lexeme.scan_openBrace (kind.symm.trans opening)
      obtain ⟨char, later, written⟩ := List.exists_cons_of_ne_nil nonempty
      have first := congrArg List.head? brace
      simp only [written, Lexeme.Trivia.ofGap_length, List.length_singleton, List.drop_one,
        List.tail_cons, List.cons_append, List.head?_take, List.head?_cons] at first
      split at first <;> simp_all
    simp only [regsubArgument, Yields.current_bind, notBrace, Bool.and_false, Bool.false_eq_true,
      if_false]
    refine (argues.reads admits .space faces stops).mono ?_
    rintro _ last ⟨copy, rfl, copies, stands⟩
    exact ⟨copy, rfl, copies.shape, stands⟩

/-- The pattern of `regsub` and the words behind it are read back. -/
theorem yields_regsubArguments {pattern : Expression} {words : List Expression}
    (reads : ReadsPattern names pattern) (argues : ArguesAll (names.plus pattern.names) words)
    (admits : setting.Admits names) (closes : setting.Closes rest)
    (stands : state.Stands setting ([' '] ++ (pattern.written.toList ++
      ((spacedWords (writtenAll words)).toList ++ rest)))) :
    Yields (language.regsubArguments true) state fun result last =>
      ∃ copy copies, result = copy :: copies ∧ copy.shape = pattern.shape ∧
        List.Forall₂ Expression.Copies copies words ∧
        last.Stands (setting.knowing (pattern.names ++ wordNames words)) rest := by
  have stops : setting.Stops .word ((spacedWords (writtenAll words)).toList ++ rest) :=
    stops_spacedWords (closes.stops .word)
  obtain ⟨goesOn, -, -⟩ := reads.ahead stops.severs stands.toFaces
  change Yields (language.parse (.regsubArguments true)) _ _
  refine .rule stands.coherent ?_
  change Yields (regsubArguments language true) _ _
  simp only [regsubArguments, Yields.endsCommand_bind, goesOn, Bool.false_eq_true, if_false,
    Yields.advance_bind]
  refine (reads.reads admits stops stands.toFaces).bind ?_
  rintro _ next ⟨copy, rfl, same, stands⟩
  refine (readsWords_regsubArguments.yields argues (admits.knowing _) (closes.knowing _)
    stands).bind ?_
  rintro copies last ⟨alike, stands⟩
  exact .pure ⟨copy, copies, rfl, same, alike, by rwa [Setting.knowing_knowing] at stands⟩

/-- The result variable of `regsub` is declared when it is a literal name. -/
theorem yields_regsubResult {token : Token} {flags : List String}
    {copy pattern input replacement result : Expression} (copies : copy.Copies result)
    (sound : (Expression.regsub token flags pattern input replacement result).Sound)
    (spared : setting.Spares result.targetNames) (stands : state.Stands setting rest) :
    Yields (regsubResult copy) state fun kept last => kept.shape = result.shape ∧
      last.Stands (setting.knowing result.targetNames) rest := by
  have shape := copies.shape
  by_cases bare : result.isBare
  · obtain ⟨place, name, isReserved, rfl⟩ := exists_of_isBare bare
    cases copy with
    | identifier other text isVariable isKnown =>
      simp only [Expression.shape, Expression.identifier.injEq, true_and, and_true] at shape
      obtain ⟨rfl, rfl⟩ := shape
      refine (yields_declaredTarget sound spared stands).mono ?_
      rintro _ last ⟨rfl, stands⟩
      exact ⟨by simp [bareWord, Expression.shape], stands⟩
    | _ => simp [Expression.shape] at shape
  · have notBare : result.isBare = false := Bool.eq_false_iff.2 bare
    have kept : regsubResult copy = pure copy := by
      unfold regsubResult
      split
      · rcases result with ⟨place, name, _ | _, isReserved⟩ | _ <;>
          simp_all [Expression.isBare, Expression.shape]
      · rfl
    rw [kept, Expression.targetNames_of_not_isBare notBare, Setting.knowing_nil]
    exact .pure ⟨shape, stands⟩

theorem readsCommand_regsub {token : Token} {flags : List String}
    {pattern input replacement result : Expression} (legible : flags.all isLegibleFlag)
    (reads : ReadsPattern names pattern)
    (sound : (Expression.regsub token flags pattern input replacement result).Sound)
    (spared : names.spares result.targetNames)
    (argues : ArguesAll (names.plus pattern.names) [input, replacement, result]) :
    ReadsCommand names (.regsub token flags pattern input replacement result) := by
  intro setting state gap rest spacing admits gapped faces closes _ _
  have faced : state.Faces setting (gap ++ ("regsub".toList ++ ((spacedWords flags).toList ++
      ([' '] ++ (pattern.written.toList ++
        ((spacedWords (writtenAll [input, replacement, result])).toList ++ rest)))))) := by
    simpa [Expression.written, writtenAll, spacedWords_eq_followed] using faces
  have severs : Severs ((spacedWords (writtenAll [input, replacement, result])).toList ++ rest) :=
    severs_spacedWords closes.severs
  obtain ⟨kind, -, -, stands⟩ := faced.name gapped (by decide) (breaks_spacedWords breaks_space)
  have here : state.advance.current.kind = .core .regsub := kind.trans (by decide)
  have starts : (state.advance.endsCommand ||
      !Precedence.isStatementOperator state.advance.lookahead) = true := by
    cases flags with
    | nil =>
      have ahead : state.advance.Faces setting ([' '] ++ (pattern.written.toList ++
          ((spacedWords (writtenAll [input, replacement, result])).toList ++ rest))) := by
        simpa [spacedWords_eq_followed] using stands.toFaces
      simp [(reads.ahead severs ahead).2.2]
    | cons flag flags =>
      simp only [List.all_cons, isLegibleFlag, Bool.and_eq_true] at legible
      obtain ⟨⟨⟨⟨starts, run⟩, -⟩, known⟩, -⟩ := legible
      have ahead : state.advance.Stands setting ([' '] ++ (flag.toList ++
          ((spacedWords flags).toList ++ ([' '] ++ (pattern.written.toList ++
            ((spacedWords (writtenAll [input, replacement, result])).toList ++ rest)))))) := by
        simpa [spacedWords_eq_followed] using stands
      have flagged := (yields_option starts run
        (closeParen_notMem_of_isRegsubFlag known) ahead
        (stops_spacedWords (Setting.stops_space .word))).1
      simp only [State.optionAhead, Bool.and_eq_true, beq_iff_eq] at flagged
      simp [isStatementOperator_of_literal, flagged.1]
  have commandRead : Yields (regsubCommand language) state.advance fun copy last =>
      copy.shape = (Expression.regsub token flags pattern input replacement result).shape ∧
        last.Stands (setting.knowing
          (Expression.regsub token flags pattern input replacement result).names) rest := by
    simp only [regsubCommand, Yields.current_bind]
    refine (yields_regsubFlags legible (Setting.stops_space .word)
      (fun next faces => (reads.ahead severs faces).2.1) stands).bind ?_
    rintro _ next ⟨rfl, passed⟩
    refine (yields_regsubArguments reads argues admits closes passed).bind ?_
    rintro _ last ⟨copy, copies, rfl, same, alike, ended⟩
    obtain _ | ⟨first, _ | ⟨second, _ | ⟨third, _ | _⟩⟩⟩ := alike
    have spares : (setting.knowing (pattern.names ++
        wordNames [input, replacement, result])).Spares result.targetNames := admits.spares spared
    refine (yields_regsubResult third sound spares ended).bind ?_
    rintro kept final ⟨shape, stands⟩
    refine .pure ⟨by simp [Expression.shape, same, first.shape, second.shape, shape], ?_⟩
    rw [Setting.knowing_knowing] at stands
    refine stands.retain fun name inside => ?_
    simp only [Expression.names, Expression.nodes, declaredBy_cons, declaredBy_append,
      Node.declares, wordNames_cons, wordNames_nil, List.append_nil, List.mem_append] at inside ⊢
    tauto
  refine .command stands.coherent (by simp [startsCommand, here]) starts ?_
  simp only [command, Yields.current_bind, commandFamily?, here]
  refine commandRead.bind ?_
  rintro copy last ⟨same, stands⟩
  refine .pure ⟨_, rfl, same, ?_⟩
  simpa [Expression.exclusives, Setting.after] using stands

end Parser

end IRule
