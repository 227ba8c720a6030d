import IRule.Proofs.RoundTrip.Block

/-!
# Arms of switches read back

An arm is its patterns and a block. A dash behind a pattern leads to the next one, and the
patterns in front of a block are collected. What a pattern is spelled like is left open here.
-/

namespace IRule

namespace Lexeme

/-- A blank or a line end is passed over, and keeps what is behind it apart. -/
theorem Trivia.scan_blank {char : Char} (blank : isSpace char ∨ char = '\n') (text : List Char) :
    (Trivia.scan false (char :: text)).length = (Trivia.scan false text).length + 1 ∧
      (Trivia.scan false (char :: text)).spacing.isAdjacent = false := by
  by_cases line : char = '\n'
  · subst line
    simp [Trivia.scan_line, Trivia.afterNewline, Spacing.isAdjacent]
  · have space := blank.resolve_right line
    have scanned : Trivia.scan false (char :: text) = (Trivia.scan false text).afterSpace := by
      conv_lhs => unfold Trivia.scan
      simp [line, space]
    simp [scanned, Trivia.afterSpace, Spacing.isAdjacent]

/-- What stands between the tokens of an arm: separators of any kind, of which the first
is a blank or a line end. -/
structure Apart (gap : List Char) : Prop where
  starts : ∃ char rest, gap = char :: rest ∧ (isSpace char ∨ char = '\n')
  passed : ∀ text, Trivia.scan false text = .empty →
    (Trivia.scan false (gap ++ text)).length = gap.length

/-- Blanks and line ends keep tokens apart. -/
theorem apart_of_blank {gap : List Char} (nonempty : gap ≠ [])
    (blank : ∀ char ∈ gap, isSpace char ∨ char = '\n') : Apart gap := by
  refine ⟨?_, fun text tight => ?_⟩
  · obtain ⟨char, rest, rfl⟩ := List.exists_cons_of_ne_nil nonempty
    exact ⟨char, rest, rfl, blank char (List.mem_cons_self ..)⟩
  · clear nonempty
    induction gap with
    | nil => simp [tight, Trivia.empty]
    | cons char gap ih =>
      have later := ih fun other mem => blank other (List.mem_cons_of_mem _ mem)
      have first := (Trivia.scan_blank (blank char (List.mem_cons_self ..)) (gap ++ text)).1
      rw [List.cons_append, first, later, List.length_cons]

namespace Apart

variable {gap : List Char}

/-- A token behind a gap does not glue. -/
theorem not_adjacent (apart : Apart gap) (text : List Char) :
    (Trivia.scan false (gap ++ text)).spacing.isAdjacent = false := by
  obtain ⟨char, rest, rfl, blank⟩ := apart.starts
  exact (Trivia.scan_blank blank (rest ++ text)).2

theorem breaks (apart : Apart gap) (text : List Char) : Breaks (gap ++ text) := by
  obtain ⟨char, rest, rfl, blank⟩ := apart.starts
  rintro first same
  obtain rfl : char = first := by simpa using same
  rcases blank with space | rfl
  · simp only [isSpace, Bool.or_eq_true, beq_iff_eq] at space
    rcases space with ((rfl | rfl) | rfl) | rfl <;> simp [isWordChar, isNameChar]
  · simp [isWordChar, isNameChar]

/-- A dash in front of a gap stands alone. -/
theorem dash {braces brackets : Nat} (apart : Apart gap) (text : List Char) :
    Spells braces brackets ['-'] (gap ++ text) .minus := by
  obtain ⟨char, rest, rfl, blank⟩ := apart.starts
  have noDigit : char.isDigit = false := by
    rcases blank with space | rfl
    · simp only [isSpace, Bool.or_eq_true, beq_iff_eq] at space
      rcases space with ((rfl | rfl) | rfl) | rfl <;> rfl
    · rfl
  refine ⟨?_, Trivia.scan_tight _ rfl⟩
  simp [Lexeme.scan, startsNumeral, isNameStart, symbol?, symbols, List.isPrefixOf, noDigit]

end Apart

theorem apart_space : Apart [' '] :=
  apart_of_blank (by simp) (by simp [isSpace])

theorem apart_line : Apart ['\n'] :=
  apart_of_blank (by simp) (by simp)

end Lexeme

namespace Parser

open Lexeme (Apart Breaks Severs Spells)

variable {names : Names} {setting middle final : Setting} {options : SwitchOptions}
  {rest : List Char}

/-- The token behind a gap, and what is faced behind it. -/
theorem State.Faces.apart {state : State} {gap word : List Char} {kind : TokenKind}
    (faces : state.Faces setting (gap ++ (word ++ rest))) (apart : Apart gap)
    (spells : Spells setting.braces setting.brackets word rest kind) :
    state.lookahead.kind = kind ∧ state.lookahead.literal = Lexeme.literalOf kind word ∧
      state.advance.Stands (setting.delimit kind) rest := by
  have passed := apart.passed _ spells.tight
  have behind : (gap ++ (word ++ rest)).drop
      (Lexeme.Trivia.scan false (gap ++ (word ++ rest))).length = word ++ rest := by
    rw [passed, List.drop_left]
  obtain ⟨sameKind, literal, -, stands⟩ := faces.next rfl (behind ▸ spells.scan)
  rw [behind, List.take_left] at literal
  rw [behind, List.drop_left] at stands
  exact ⟨sameKind, literal, stands⟩

theorem State.Faces.not_glues {state : State} {gap : List Char}
    (faces : state.Faces setting (gap ++ rest)) (apart : Apart gap) : state.glues = false := by
  simp [State.glues, faces.spacing_eq, apart.not_adjacent]

/-! ## Patterns -/

/-- A pattern as it is spelled, with what stands in front of it and behind it. -/
structure PatternText where
  lead : List Char := [' ']
  spelled : List Char
  /-- The kind of the first token of the spelling. -/
  kind : TokenKind
  gap : List Char := [' ']

namespace PatternText

def written (text : PatternText) : List Char :=
  text.lead ++ (text.spelled ++ text.gap)

/-- Wherever the text stands among arms, a pattern that is accepted is read. -/
structure Reads (options : SwitchOptions) (text : PatternText) (accepts : Pattern → Prop) :
    Prop where
  lead : Apart text.lead
  gap : Apart text.gap
  starts : text.kind ∉ [.closeBrace, .endOfInput]
  ahead : ∀ ⦃setting : Setting⦄ ⦃state : State⦄ ⦃rest : List Char⦄,
    state.Faces setting (text.written ++ rest) → state.lookahead.kind = text.kind
  reads : ∀ ⦃setting : Setting⦄ ⦃state : State⦄ ⦃rest : List Char⦄,
    state.Faces setting (text.written ++ rest) →
    Yields (casePattern language options) state.advance fun result last =>
      ∃ pattern, result = some pattern ∧ accepts pattern ∧
        last.Stands setting (text.gap ++ rest)

/-- Behind the first pattern of an arm, dashes lead over further ones to the text of a block. -/
def fall (body : List Char) : List PatternText → List Char
  | [] => body
  | text :: later => '-' :: (text.written ++ fall body later)

end PatternText

/-- A dash in front of a gap is a lone one. -/
theorem State.Faces.loneDash {state : State} {gap behind : List Char}
    (faces : state.Faces setting (gap ++ (['-'] ++ (behind ++ rest)))) (apart : Apart gap)
    (alone : Apart behind) :
    state.loneDashAhead = true ∧ state.advance.Stands setting (behind ++ rest) := by
  obtain ⟨kind, -, stands⟩ := faces.apart apart (alone.dash rest)
  refine ⟨?_, stands⟩
  have follows : state.lexer.scanner.rest = behind ++ rest := stands.rest
  obtain ⟨char, text, rfl, blank⟩ := alone.starts
  simpa [State.loneDashAhead, kind, State.charAhead?, follows] using blank

/-- Dashes lead to a block, over any number of patterns. -/
theorem yields_fallThrough {α : Type} {spell : α → PatternText} {accepts : α → Pattern → Prop}
    {later : List α} (reads : ∀ head ∈ later, (spell head).Reads options (accepts head))
    {state : State} {gap text : List Char} (apart : Apart gap)
    (stands : state.Stands setting
      (gap ++ (PatternText.fall ('\x7b' :: text) (later.map spell) ++ rest))) :
    Yields (language.fallThrough options) state fun result last =>
      ∃ patterns behind, result = some patterns ∧ List.Forall₂ accepts later patterns ∧
        Apart behind ∧ last.Stands setting (behind ++ (['\x7b'] ++ (text ++ rest))) := by
  induction later generalizing state gap with
  | nil =>
    have faced : state.Stands setting (gap ++ (['\x7b'] ++ (text ++ rest))) := stands
    have noDash : state.loneDashAhead = false := by
      simp [State.loneDashAhead, (faced.toFaces.apart apart .openBrace).1]
    change Yields (language.parse (.fallThrough options)) _ _
    refine .rule stands.coherent ?_
    change Yields (fallThrough language options) _ _
    simp only [fallThrough, Yields.get_bind, noDash]
    exact .pure ⟨[], gap, rfl, .nil, apart, faced⟩
  | cons head later ih =>
    obtain ⟨headReads, laterReads⟩ := List.forall_mem_cons.1 reads
    have faces : state.Faces setting (gap ++ (['-'] ++ ((spell head).lead ++
        ((spell head).spelled ++ ((spell head).gap ++
          (PatternText.fall ('\x7b' :: text) (later.map spell) ++ rest)))))) := by
      simpa [PatternText.fall, PatternText.written] using stands.toFaces
    obtain ⟨dash, dashed⟩ := faces.loneDash apart headReads.lead
    have headFaced : state.advance.Faces setting ((spell head).written ++
        (PatternText.fall ('\x7b' :: text) (later.map spell) ++ rest)) := by
      simpa [PatternText.written] using dashed.toFaces
    have goesOn := headReads.starts
    rw [← headReads.ahead headFaced] at goesOn
    simp only [List.mem_cons, List.not_mem_nil, or_false, not_or] at goesOn
    change Yields (language.parse (.fallThrough options)) _ _
    refine .rule stands.coherent ?_
    change Yields (fallThrough language options) _ _
    simp only [fallThrough, Yields.get_bind, dash, if_true, Yields.advance_bind,
      Yields.isAhead_bind, beq_eq_false_iff_ne.2 goesOn.1, beq_eq_false_iff_ne.2 goesOn.2,
      Bool.or_self, Bool.false_eq_true, if_false]
    refine (headReads.reads headFaced).bind ?_
    rintro _ next ⟨pattern, rfl, accepted, stands⟩
    refine (ih laterReads headReads.gap stands).bind ?_
    rintro _ last ⟨patterns, behind, rfl, alike, apart, stands⟩
    exact .pure ⟨_, behind, rfl, .cons accepted alike, apart, stands⟩

/-- The patterns of an arm as they are kept. -/
def collected (token : Token) (first : Pattern) (later : List Pattern) : CasePattern :=
  if later.isEmpty then .one first else .several token (first :: later)

/-- The patterns of an arm are its first one and those that dashes lead over. -/
theorem yields_casePatterns {α : Type} {first : PatternText} {holds : Pattern → Prop}
    {spell : α → PatternText} {accepts : α → Pattern → Prop} {later : List α} {state : State}
    {text : List Char} (firstReads : first.Reads options holds)
    (reads : ∀ head ∈ later, (spell head).Reads options (accepts head))
    (notDefault : first.kind ≠ .reserved .defaultWord)
    (faces : state.Faces setting (first.written ++
      (PatternText.fall ('\x7b' :: text) (later.map spell) ++ rest))) :
    Yields (casePatterns language options) state.advance fun result last =>
      ∃ pattern behind, result = some pattern ∧
        (∃ token single patterns, pattern = some (collected token single patterns) ∧
          holds single ∧ List.Forall₂ accepts later patterns) ∧
        Apart behind ∧ last.Stands setting (behind ++ (['\x7b'] ++ (text ++ rest))) := by
  rw [← firstReads.ahead faces] at notDefault
  have other : (state.advance.current.kind == .reserved .defaultWord) = false :=
    beq_eq_false_iff_ne.2 notDefault
  simp only [casePatterns, Yields.current_bind, other, Bool.false_eq_true, if_false]
  refine (firstReads.reads faces).bind ?_
  rintro _ next ⟨single, rfl, held, stands⟩
  refine (yields_fallThrough reads firstReads.gap stands).bind ?_
  rintro _ last ⟨patterns, behind, rfl, alike, apart, stands⟩
  cases patterns with
  | nil => exact .pure ⟨_, behind, rfl, ⟨default, single, [], rfl, held, alike⟩, apart, stands⟩
  | cons second patterns =>
    exact .pure ⟨_, behind, rfl, ⟨_, single, _, rfl, held, alike⟩, apart, stands⟩

/-- The word `default` stands for no pattern. -/
theorem yields_casePatterns_default {state : State} {lead gap : List Char} (lean : Apart lead)
    (apart : Apart gap)
    (faces : state.Faces setting (lead ++ ("default".toList ++ (gap ++ rest)))) :
    state.lookahead.kind = .reserved .defaultWord ∧
      Yields (casePatterns language options) state.advance fun result last =>
        result = some none ∧ last.Stands setting (gap ++ rest) := by
  have spells : Spells setting.braces setting.brackets "default".toList (gap ++ rest)
      (.reserved .defaultWord) := .bareWord (by decide) (apart.breaks rest)
  obtain ⟨kind, -, stands⟩ := faces.apart lean spells
  refine ⟨kind, ?_⟩
  have here : (state.advance.current.kind == .reserved .defaultWord) = true := beq_iff_eq.2 kind
  simp only [casePatterns, Yields.current_bind, here, if_true]
  exact .pure ⟨rfl, stands⟩

/-! ## Arms -/

/-- An arm is its patterns and the block behind them. -/
theorem yields_caseArm {state : State} {accepts : Option CasePattern → Prop} {same : Block → Prop}
    {text : List Char}
    (patternsRead : Yields (casePatterns language options) state fun result next =>
      ∃ pattern behind, result = some pattern ∧ accepts pattern ∧ Apart behind ∧
        next.Stands setting (behind ++ (['\x7b'] ++ text)))
    (bodyRead : ∀ next : State, next.Stands (setting.delimit .openBrace) text →
      Yields (block language) next fun body last => same body ∧ last.Stands final rest) :
    Yields (caseArm language options) state fun result last =>
      ∃ token pattern body, result = some (.mk token pattern body) ∧ accepts pattern ∧ same body ∧
        last.Stands final rest := by
  simp only [caseArm, Yields.current_bind]
  refine patternsRead.bind ?_
  rintro _ next ⟨pattern, behind, rfl, accepted, apart, stands⟩
  obtain ⟨kind, -, opened⟩ := stands.toFaces.apart apart .openBrace
  refine (yields_expectBlock kind (bodyRead _ opened)).bind ?_
  rintro _ last ⟨body, rfl, alike, stands⟩
  exact .pure ⟨_, pattern, body, rfl, accepted, alike, stands⟩

/-- No arm stands in front of the closing brace. -/
theorem yields_cases_nil {state : State} {line : Nat} {closing : List Char} (apart : Apart closing)
    (opened : 0 < setting.braces)
    (stands : state.Stands setting (closing ++ (['\x7d'] ++ rest))) :
    Yields (language.cases options line) state fun result last =>
      result = [] ∧ last.Stands (setting.delimit .closeBrace) rest := by
  obtain ⟨kind, -, closed⟩ := stands.toFaces.apart apart (.closeBrace opened)
  change Yields (language.parse (.cases options line)) _ _
  refine .rule stands.coherent ?_
  change Yields (cases language options line) _ _
  simp only [cases, Yields.lookahead_bind, kind, Yields.advance_bind]
  exact .pure ⟨rfl, closed⟩

/-- An arm, and those behind it. -/
theorem yields_cases_cons {state : State} {line : Nat} {accepts : Case → State → Prop}
    {holds : List Case → State → Prop} (coherent : state.Coherent)
    (goesOn : state.lookahead.kind ∉ [.closeBrace, .endOfInput])
    (armRead : Yields (caseArm language options) state.advance fun result next =>
      ∃ arm, result = some arm ∧ accepts arm next)
    (later : ∀ arm next, accepts arm next →
      Yields (language.cases options line) next fun arms last => holds (arm :: arms) last) :
    Yields (language.cases options line) state holds := by
  change Yields (language.parse (.cases options line)) _ _
  refine .rule coherent ?_
  change Yields (cases language options line) _ _
  simp only [cases, Yields.lookahead_bind]
  split
  · simp_all
  · simp_all
  · simp only [Yields.advance_bind]
    refine armRead.bind ?_
    rintro _ next ⟨arm, rfl, accepted⟩
    simp only [Option.isNone_some, Bool.false_eq_true, if_false]
    refine (later arm next accepted).bind ?_
    rintro arms last holds
    exact .pure holds

/-! ## Options -/

/-- Option words of a switch add up to its options. -/
theorem foldlM_words (options : SwitchOptions) :
    options.words.foldlM SwitchOptions.add? {} = some options := by
  obtain ⟨exact, glob, regex, nocase⟩ := options
  cases exact <;> cases glob <;> cases regex <;> cases nocase <;> rfl

/-- Words that add an option look like one. -/
theorem startsOption_of_add? {word : String} {more : SwitchOptions}
    (added : options.add? word = some more) :
    startsOption word.toList ∧ Lexeme.isLiteralRun 0 word.toList ∧ ')' ∉ word.toList ∧
      word ≠ "--" := by
  have listed : word ∈ ["-exact", "-glob", "-regexp", "-regex", "-nocase"] := by
    unfold SwitchOptions.add? at added
    repeat' split at added
    all_goals simp_all <;> tauto
  have looks : ∀ option ∈ ["-exact", "-glob", "-regexp", "-regex", "-nocase"],
      startsOption option.toList ∧ Lexeme.isLiteralRun 0 option.toList ∧ ')' ∉ option.toList ∧
        option ≠ "--" := by
    decide
  exact looks word listed

/-- Option words are read up to the value. -/
theorem yields_switchOptions {words : List String} {before : SwitchOptions}
    (adds : words.foldlM SwitchOptions.add? before = some options) {state : State}
    (stops : setting.Stops .word rest)
    (noOption : ∀ next : State, next.Faces setting rest → next.optionAhead = false)
    (stands : state.Stands setting ((spacedWords words).toList ++ rest)) :
    Yields (language.switchOptions before) state fun result last =>
      result = options ∧ last.Stands setting rest := by
  induction words generalizing before state with
  | nil =>
    obtain rfl : before = options := by simpa using adds
    have faced : state.Stands setting rest := by simpa [spacedWords_eq_followed] using stands
    change Yields (language.parse (.switchOptions before)) _ _
    refine .rule stands.coherent ?_
    change Yields (switchOptions language before) _ _
    simp only [switchOptions, Yields.get_bind, noOption state faced.toFaces]
    exact .pure ⟨rfl, faced⟩
  | cons word words ih =>
    simp only [List.foldlM_cons, Option.bind_eq_bind, Option.bind_eq_some_iff] at adds
    obtain ⟨more, added, adds⟩ := adds
    obtain ⟨starts, run, plain, notEnd⟩ := startsOption_of_add? added
    have faced : state.Stands setting ([' '] ++ (word.toList ++
        ((spacedWords words).toList ++ rest))) := by
      simpa [spacedWords_eq_followed] using stands
    obtain ⟨ahead, read⟩ := yields_option starts run plain faced (stops_spacedWords stops)
    change Yields (language.parse (.switchOptions before)) _ _
    refine .rule stands.coherent ?_
    change Yields (switchOptions language before) _ _
    simp only [switchOptions, Yields.get_bind, ahead, if_true, Yields.advance_bind]
    refine read.bind ?_
    rintro _ next ⟨rfl, passed⟩
    simp only [beq_eq_false_iff_ne.2 notEnd, Bool.false_eq_true, if_false, added]
    exact ih adds passed

/-! ## Switches -/

/-- A switch is its options, its value and the arms between its braces. -/
theorem yields_switchStatement {state : State} {value : Expression} {accepts : List Case → Prop}
    {text : List Char} (argues : Argues names value) (admits : setting.Admits names)
    (noOption : ∀ next : State, next.Faces setting ([' '] ++ (value.written.toList ++
      ([' '] ++ (['\x7b'] ++ text)))) → next.optionAhead = false)
    (arms : ∀ (inner : State) (line : Nat),
      inner.Stands (((setting.knowing value.names).delimit .openBrace).inside .expression) text →
      Yields (language.cases options line) inner fun result last => accepts result ∧
        last.Stands (((final.delimit .openBrace).inside .expression).delimit .closeBrace) rest)
    (stands : state.Stands setting ((spacedWords options.words).toList ++ ([' '] ++
      (value.written.toList ++ ([' '] ++ (['\x7b'] ++ text)))))) :
    Yields (switchStatement language) state fun result last =>
      ∃ subject read, result = some (.switch state.current options subject read) ∧
        subject.shape = value.shape ∧ accepts read ∧ last.Stands final rest := by
  simp only [switchStatement, Yields.current_bind]
  refine (yields_switchOptions (foldlM_words options) (Setting.stops_space .word) noOption
    stands).bind ?_
  rintro read next ⟨same, valued⟩
  subst read
  have goesOn := argues.begins.goesOn valued.toFaces severs_space
  simp only [Yields.endsCommand_bind, goesOn, Bool.false_eq_true, if_false, Yields.advance_bind]
  refine (argues.reads admits .space valued.toFaces (Setting.stops_space .word)).bind ?_
  rintro _ next ⟨subject, rfl, copies, braced⟩
  have behind : next.Faces (setting.knowing value.names) ([' '] ++ (['\x7b'] ++ text)) :=
    braced.toFaces
  obtain ⟨brace, -, -, opened⟩ := behind.token .space .openBrace
  have armsRead (line : Nat) : Yields (within .expression (language.cases options line))
      next.advance fun result last => accepts result ∧ last.Stands final rest := by
    refine .within ((arms _ line (opened.enter .expression)).mono ?_)
    rintro read last ⟨accepted, stands⟩
    have outside : ((final.delimit .openBrace).inside .expression).delimit .closeBrace =
        final.inside .expression := by
      simp [Setting.delimit, Setting.inside]
    rw [outside] at stands
    exact ⟨accepted, stands.leave⟩
  simp only [Yields.isAhead_bind, brace, beq_self_eq_true, if_true, Yields.advance_bind,
    Yields.current_bind]
  refine (armsRead _).bind ?_
  rintro read last ⟨accepted, stands⟩
  exact .pure ⟨subject, read, rfl, copies.shape, accepted, stands⟩

/-! ## Written arms -/

/-- The kind of the token that a pattern starts with. -/
def patternKind : Pattern → TokenKind
  | .plain .. => .string
  | .glob .. | .regex .. => .openBrace

/-- A pattern as it is written behind a gap. -/
def patternText (lead : List Char) (pattern : Pattern) : PatternText :=
  { lead := lead, spelled := pattern.written.toList, kind := patternKind pattern }

/-- Quoted patterns are read back where no option changes them. -/
theorem reads_plain {text : String} {token : Token} {lead : List Char} (apart : Apart lead)
    (legible : (Pattern.plain token text).legible options) :
    (patternText lead (.plain token text)).Reads options
      fun read => read.shape = (Pattern.plain token text).shape := by
  simp only [Pattern.legible, Bool.and_eq_true, Bool.not_eq_true'] at legible
  obtain ⟨⟨noRegex, noGlob⟩, enclosed⟩ := legible
  have spelled {setting : Setting} {state : State} {rest : List Char}
      (faces : state.Faces setting ((patternText lead (.plain token text)).written ++ rest)) :
      state.lookahead.kind = .string ∧
        state.lookahead.literal = Lexeme.literalOf .string ('"' :: text.toList ++ ['"']) ∧
        state.advance.Stands setting ([' '] ++ rest) := by
    have faced : state.Faces setting
        (lead ++ ('"' :: text.toList ++ ['"'] ++ ([' '] ++ rest))) := by
      simpa [patternText, PatternText.written, Pattern.written] using faces
    exact faced.apart apart (.string (Lexeme.Enclosed.of_isEnclosed enclosed).2)
  refine ⟨apart, Lexeme.apart_space, by simp [patternText, patternKind],
    fun setting state rest faces => (spelled faces).1, fun setting state rest faces => ?_⟩
  obtain ⟨kind, literal, stands⟩ := spelled faces
  have here : state.advance.current.kind = .string := kind
  have written : state.advance.current.literal = text := by
    have same : state.advance.current.literal = _ := literal
    rw [same]
    simp [Lexeme.literalOf, unquote]
  simp only [casePattern, Yields.current_bind, here, written, patternOf, noRegex, noGlob,
    Bool.or_self, Bool.false_eq_true, if_false]
  exact .pure ⟨_, rfl, rfl, stands⟩

/-- Braced patterns are read back as what the options make of them. -/
theorem reads_braced {pattern : Pattern} {text lead : List Char} (apart : Apart lead)
    (kind : patternKind pattern = .openBrace)
    (written : pattern.written.toList = '\x7b' :: (text ++ ['\x7d'])) (braced : isBraced text)
    (same : ∀ token, (patternOf options token (String.ofList text) true).shape = pattern.shape) :
    (patternText lead pattern).Reads options fun read => read.shape = pattern.shape := by
  have spelled {setting : Setting} {state : State} {rest : List Char}
      (faces : state.Faces setting ((patternText lead pattern).written ++ rest)) :
      state.lookahead.kind = .openBrace ∧
        state.advance.Stands (setting.delimit .openBrace) (text ++ '\x7d' :: ([' '] ++ rest)) := by
    have faced : state.Faces setting
        (lead ++ (['\x7b'] ++ (text ++ '\x7d' :: ([' '] ++ rest)))) := by
      simpa [patternText, PatternText.written, written] using faces
    obtain ⟨kind, -, stands⟩ := faced.apart apart .openBrace
    exact ⟨kind, stands⟩
  refine ⟨apart, Lexeme.apart_space, by simp [patternText, kind],
    fun setting state rest faces => (spelled faces).1.trans kind.symm,
    fun setting state rest faces => ?_⟩
  obtain ⟨kind, opened⟩ := spelled faces
  have here : state.advance.current.kind = .openBrace := kind
  simp only [casePattern, Yields.current_bind, here]
  refine (yields_captureBrace braced here opened).bind ?_
  rintro _ last ⟨rfl, stands, -⟩
  exact .pure ⟨_, rfl, same _, stands⟩

/-- Legible patterns are read back. -/
theorem reads_pattern {pattern : Pattern} {lead : List Char} (apart : Apart lead)
    (legible : pattern.legible options) :
    (patternText lead pattern).Reads options fun read => read.shape = pattern.shape := by
  cases pattern with
  | plain token text => exact reads_plain apart legible
  | glob token text =>
    simp only [Pattern.legible, Bool.and_eq_true, Bool.not_eq_true'] at legible
    refine reads_braced apart rfl (by simp [Pattern.written]) legible.2 fun other => ?_
    simp [patternOf, legible.1, Pattern.shape]
  | regex token text =>
    simp only [Pattern.legible, Bool.and_eq_true] at legible
    refine reads_braced apart rfl (by simp [Pattern.written]) legible.2 fun other => ?_
    simp [patternOf, legible.1, Pattern.shape]

theorem followed_patterns (patterns : List Pattern) (text : List Char) :
    (followed " - " (patterns.map Pattern.written)).toList ++ ' ' :: text =
      ' ' :: PatternText.fall text (patterns.map (patternText [' '])) := by
  induction patterns with
  | nil => simp [PatternText.fall]
  | cons pattern patterns ih => simp [PatternText.fall, PatternText.written, patternText, ih]

/-- The patterns that are collected are those that are written. -/
theorem shape_collected {token other : Token} {first single : Pattern}
    {later patterns : List Pattern}
    (same : single.shape = first.shape)
    (alike : List.Forall₂ (fun other read => Pattern.shape read = other.shape) later patterns) :
    (collected token single patterns).shape = (collected other first later).shape := by
  have shapes : patterns.map Pattern.shape = later.map Pattern.shape := by
    induction alike with
    | nil => rfl
    | cons same _ ih => simp [same, ih]
  cases alike with
  | nil => simp [collected, CasePattern.shape, same]
  | cons =>
    simp only [collected, List.isEmpty_cons, Bool.false_eq_true, if_false, CasePattern.shape,
      List.map_cons] at shapes ⊢
    rw [same, shapes]

/-- Patterns of an arm are read back in front of a block. -/
theorem yields_patterns {first : Pattern} (later : List Pattern) (token : Token) {state : State}
    {text : List Char} (firstLegible : first.legible options)
    (laterLegible : ∀ other ∈ later, other.legible options)
    (faces : state.Faces setting (['\n'] ++ (first.written.toList ++
      ((followed " - " (later.map Pattern.written)).toList ++ ' ' :: '\x7b' :: text)))) :
    state.lookahead.kind ∉ [.closeBrace, .endOfInput] ∧
      Yields (casePatterns language options) state.advance fun result last =>
        ∃ copy behind, result = some copy ∧
          copy.map CasePattern.shape = some (collected token first later).shape ∧ Apart behind ∧
          last.Stands setting (behind ++ (['\x7b'] ++ text)) := by
  have faced : state.Faces setting ((patternText ['\n'] first).written ++
      (PatternText.fall ('\x7b' :: text) (later.map (patternText [' '])) ++ [])) := by
    rw [followed_patterns] at faces
    simpa [patternText, PatternText.written] using faces
  have firstReads := reads_pattern Lexeme.apart_line firstLegible
  have notDefault : (patternText ['\n'] first).kind ≠ .reserved .defaultWord := by
    cases first <;> simp [patternText, patternKind]
  refine ⟨by rw [firstReads.ahead faced]; exact firstReads.starts, ?_⟩
  refine (yields_casePatterns firstReads
    (fun other mem => reads_pattern Lexeme.apart_space (laterLegible other mem)) notDefault
    faced).mono ?_
  rintro _ last ⟨_, behind, rfl, ⟨place, single, patterns, rfl, same, alike⟩, apart, stands⟩
  rw [List.append_nil] at stands
  exact ⟨_, behind, rfl, congrArg some (shape_collected same alike), apart, stands⟩

/-- What is in front of the block of an arm is read back. -/
theorem yields_caseHead {pattern : Option CasePattern} {state : State} {text : List Char}
    (legible : pattern.all (·.legible options))
    (faces : state.Faces setting (['\n'] ++ ((caseHead pattern).toList ++ ' ' :: '\x7b' :: text))) :
    state.lookahead.kind ∉ [.closeBrace, .endOfInput] ∧
      Yields (casePatterns language options) state.advance fun result last =>
        ∃ copy behind, result = some copy ∧
          copy.map CasePattern.shape = pattern.map CasePattern.shape ∧ Apart behind ∧
          last.Stands setting (behind ++ (['\x7b'] ++ text)) := by
  cases pattern with
  | none =>
    obtain ⟨kind, read⟩ : state.lookahead.kind = .reserved .defaultWord ∧
        Yields (casePatterns language options) state.advance fun result last =>
          result = some none ∧ last.Stands setting ([' '] ++ '\x7b' :: text) :=
      yields_casePatterns_default Lexeme.apart_line Lexeme.apart_space faces
    refine ⟨by simp [kind], read.mono ?_⟩
    rintro _ last ⟨rfl, stands⟩
    exact ⟨none, [' '], rfl, rfl, Lexeme.apart_space, stands⟩
  | some pattern =>
    simp only [Option.all_some] at legible
    cases pattern with
    | one pattern =>
      simp only [CasePattern.legible] at legible
      exact yields_patterns [] default legible (by simp)
        (by simpa [caseHead, CasePattern.written] using faces)
    | several token patterns =>
      simp only [CasePattern.legible, Bool.and_eq_true, List.all_eq_true, decide_eq_true_eq]
        at legible
      obtain ⟨each, more⟩ := legible
      obtain _ | ⟨first, _ | ⟨second, later⟩⟩ := patterns
      · simp at more
      · simp at more
      · exact yields_patterns (second :: later) token (each first (by simp))
          (fun other mem => each other (List.mem_cons_of_mem _ mem))
          (by simpa [caseHead, CasePattern.written, separated_cons] using faces)

/-- Arms whose blocks are read back, one behind the other. -/
inductive ReadsCases (options : SwitchOptions) : Names → List Case → Prop where
  | nil {names : Names} : ReadsCases options names []
  | cons {names : Names} {token : Token} {pattern : Option CasePattern} {body : Block}
      {rest : List Case} (legible : pattern.all (·.legible options))
      (reads : ReadsBlock names body) (later : ReadsCases options (names.plus body.names) rest) :
      ReadsCases options names (.mk token pattern body :: rest)

/-- Arms are read back up to the brace that closes them. -/
theorem ReadsCases.yields {cases : List Case} (reads : ReadsCases options names cases)
    {state : State} {line : Nat} (admits : setting.Admits names) (opened : 0 < setting.braces)
    (stands : state.Stands setting ((writtenCases cases).toList ++ '\n' :: '\x7d' :: rest)) :
    Yields (language.cases options line) state fun result last =>
      shapeCases result = shapeCases cases ∧
        last.Stands ((setting.knowing (declaredBy (caseNodes cases))).delimit .closeBrace)
        rest := by
  induction reads generalizing setting state with
  | nil =>
    refine (yields_cases_nil Lexeme.apart_line opened
      (by simpa [writtenCases] using stands)).mono ?_
    rintro _ last ⟨rfl, stands⟩
    exact ⟨rfl, by simpa using stands⟩
  | @cons names token pattern body arms legible reads later ih =>
    obtain ⟨inner, text, bodyRead⟩ := reads
    have faced : state.Faces setting (['\n'] ++ ((caseHead pattern).toList ++ ' ' :: '\x7b' ::
        (inner ++ ((writtenCases arms).toList ++ '\n' :: '\x7d' :: rest)))) := by
      simpa [writtenCases, text] using stands.toFaces
    obtain ⟨goesOn, patternsRead⟩ := yields_caseHead legible faced
    have armRead : Yields (caseArm language options) state.advance fun result next =>
        ∃ arm, result = some arm ∧ (shapeCases [arm] = shapeCases [.mk token pattern body] ∧
          next.Stands (setting.knowing body.names)
            ((writtenCases arms).toList ++ '\n' :: '\x7d' :: rest)) := by
      refine (yields_caseArm patternsRead fun next stands => bodyRead admits stands).mono ?_
      rintro _ next ⟨place, copy, block, rfl, same, alike, stands⟩
      exact ⟨_, rfl, by simp [shapeCases, same, alike], stands⟩
    refine yields_cases_cons stands.coherent goesOn armRead ?_
    rintro ⟨place, copy, block⟩ next ⟨same, stands⟩
    refine (ih (admits.knowing _) opened stands).mono ?_
    rintro copies last ⟨shapes, stands⟩
    rw [Setting.knowing_knowing] at stands
    refine ⟨?_, by simpa [Block.names] using stands⟩
    simp only [shapeCases, List.cons.injEq, and_true] at same
    simp only [shapeCases, same, shapes]

end Parser

end IRule
