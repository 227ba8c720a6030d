import IRule.Proofs.RoundTrip.Argument

/-!
# Commands read back

A command is a name and words behind it. What its checks ask of the words is
known from the script the text was written from.
-/

namespace IRule

namespace Parser

variable {names : Names} {setting behind : Setting} {rest : List Char}

/-! ## Texts of words -/

/-- Words of the same texts. -/
abbrev SameTexts (first second : List Expression) : Prop :=
  List.Forall₂ (fun left right => left.wordText? = right.wordText?) first second

theorem positional_sameTexts {first second : List Expression} (same : SameTexts first second) :
    SameTexts (positional first) (positional second) := by
  induction same with
  | nil => exact .nil
  | @cons left right _ _ alike _ ih =>
    have option : isOption left = isOption right := by simp [isOption, alike]
    unfold positional at ih ⊢
    rw [List.filter_cons, List.filter_cons, option]
    split
    · exact .cons alike ih
    · exact ih

theorem wordText?_respelled (word : Expression) :
    word.respelled.wordText? = word.spelledText? := by
  cases word <;> rfl

/-- Words are copied with the texts they are written with. -/
theorem sameTexts_respelled {copies words : List Expression}
    (alike : List.Forall₂ Expression.Copies copies words) :
    SameTexts copies (words.map Expression.respelled) := by
  induction alike with
  | nil => exact .nil
  | cons same _ ih => exact .cons (same.text.trans (wordText?_respelled _).symm) ih

/-- Which variables a command assigns depends on the texts of the words alone. -/
theorem assignedNames_congr {first second : List Expression} (same : SameTexts first second)
    (command : String) : assignedNames command first = assignedNames command second := by
  have texts : (positional first).map Expression.wordText? =
      (positional second).map Expression.wordText? := by
    rw [← List.forall₂_eq_eq_eq, List.forall₂_map_left_iff, List.forall₂_map_right_iff]
    exact positional_sameTexts same
  have head : (positional first).head?.bind Expression.wordText? =
      (positional second).head?.bind Expression.wordText? := by
    simpa [Option.bind_map] using congrArg (fun texts => texts.head?.bind id) texts
  have behind (skipped : Nat) : ((positional first).drop skipped).filterMap Expression.wordText? =
      ((positional second).drop skipped).filterMap Expression.wordText? := by
    simpa [← List.map_drop, List.filterMap_map] using
      congrArg (fun texts => (texts.drop skipped).filterMap id) texts
  simp only [assignedNames, head, behind]

/-! ## Plain commands -/

theorem isStandaloneWord_mono {known declared : List String} {name : String}
    (more : ∀ other ∈ known, other ∈ declared) (standalone : Naming.isStandaloneWord known name) :
    Naming.isStandaloneWord declared name := by
  simp only [Naming.isStandaloneWord, Bool.or_eq_true, List.contains_iff_mem] at standalone ⊢
  grind

/-- Kinds of the names of plain commands, other than words. -/
def plainKinds : List TokenKind :=
  [.core .log, .reserved .ifWord, .reserved .switch, .reserved .foreach, .reserved .returnWord]

/-- A `set` is no plain command. -/
theorem ne_set_of_isPlainCommand {name : String} (plain : isPlainCommand name) : name ≠ "set" := by
  rintro rfl
  exact absurd plain (by decide)

/-- A plain command is its name and the words that are read behind it. -/
theorem yields_invocation {before after : List Diagnostic → Prop} {holds : List Expression → Prop}
    {name : String} {state : State} {gap text : List Char} {spacing : Spacing}
    (legible : isLegibleWord name) (plain : isPlainCommand name)
    (standalone : Naming.isStandaloneWord state.declared name) (gapped : Gap gap spacing)
    (breaks : Lexeme.Breaks text) (faces : state.quiet.Faces setting (gap ++ (name.toList ++ text)))
    (goesOn : ∀ next : State, next.Awaits before setting text →
      (next.endsCommand || !Precedence.isStatementOperator next.lookahead) = true)
    (given : ∀ next : State, next.Awaits before setting text →
      Yields language.arguments next fun copies last =>
        holds copies ∧ last.Awaits after behind rest)
    (spared : ∀ copies, holds copies → behind.Spares (assignedNames name copies))
    (found : before state.diagnostics) :
    Yields language.commandOrExpression state.advance fun result last =>
      ∃ token inner isReserved copies, result = some (.invocation token
        (.identifier inner name false isReserved) copies) ∧ holds copies ∧
          last.Awaits after (behind.knowing (assignedNames name copies)) rest := by
  simp only [isLegibleWord, Bool.and_eq_true] at legible
  obtain ⟨kind, text, notPlus, stands⟩ := faces.name gapped legible.1.1 breaks
  have kind : state.advance.current.kind = Lexeme.wordKind name.toList := kind
  have text : state.advance.current.literal = name := text
  have notPlus : state.advance.current.isPlus = false := notPlus
  have named : state.advance.Awaits before setting _ := ⟨stands, found⟩
  have word : state.advance.current.kind ∈ plainKinds ∨
      state.advance.current.kind = .word ∧
        (Family.ofName? name = none ∨ Family.ofName? name = some .ip) := by
    unfold isPlainCommand at plain
    rw [kind]
    split at plain <;> simp_all [plainKinds]
  simp only [plainKinds, List.mem_cons, List.not_mem_nil, or_false] at word
  have starts : startsCommand state.advance.current := by
    rcases word with (kind | kind | kind | kind | kind) | ⟨kind, -⟩ <;>
      simp [startsCommand, kind, notPlus]
  have noFamily : commandFamily? state.advance.current = none := by
    rcases word with (kind | kind | kind | kind | kind) | ⟨kind, family | family⟩
    all_goals simp only [commandFamily?, kind]
    · simp [text, family]
    · simp [text, family]
  have known : Naming.isStandaloneWord state.advance.declared name := standalone
  have nameRead : Yields (standaloneWord state.advance.current) state.advance fun result last =>
      result = .identifier state.advance.current name false state.advance.current.kind.isReserved ∧
        last = state.advance := by
    simp only [standaloneWord, Yields.get_bind, text, known, if_true]
    exact .pure ⟨rfl, rfl⟩
  have commandRead : Yields (do return some (← plainCommand language)) state.advance
      fun result last => ∃ token inner isReserved copies, result = some (.invocation token
        (.identifier inner name false isReserved) copies) ∧ holds copies ∧
          last.Awaits after (behind.knowing (assignedNames name copies)) rest := by
    have plainly : Yields (plainCommand language) state.advance fun result last =>
        ∃ copies, result = .invocation state.advance.current (.identifier state.advance.current name
            false state.advance.current.kind.isReserved) copies ∧
          holds copies ∧ last.Awaits after (behind.knowing (assignedNames name copies)) rest := by
      simp only [plainCommand, Yields.current_bind, text]
      refine nameRead.bind ?_
      rintro _ _ ⟨rfl, rfl⟩
      refine (given _ named).bind ?_
      rintro copies last ⟨held, awaits⟩
      exact ⟨_, _, rfl, copies, rfl, held, awaits.declareAll (spared copies held)⟩
    refine plainly.bind ?_
    rintro _ last ⟨copies, rfl, held, awaits⟩
    exact .pure ⟨_, _, _, copies, rfl, held, awaits⟩
  refine .command named.coherent starts (goesOn _ named) ?_
  simp only [command, Yields.current_bind, noFamily]
  rcases word with (kind | kind | kind | kind | kind) | ⟨kind, -⟩ <;> simpa [kind] using commandRead

theorem readsCommand_invocation {token inner : Token} {name : String} {isReserved : Bool}
    {arguments : List Expression} (legible : isLegibleWord name) (plain : isPlainCommand name)
    (standalone : Naming.isStandaloneWord names.known name)
    (legibleArguments : legibleArguments names arguments)
    (argument : arguments.head?.all isArgument)
    (spared : names.spares (assignedNames name (arguments.map Expression.respelled)))
    (argues : ArguesAll names arguments) :
    ReadsCommand names (.invocation token (.identifier inner name false isReserved) arguments) := by
  intro setting state gap rest spacing admits gapped faces closes _ _
  have faced : state.quiet.Faces setting (gap ++ (name.toList ++
      ((spacedWords (writtenAll arguments)).toList ++ rest))) := by
    simpa [State.quiet_eq faces.clean, Expression.written] using faces
  have known : Naming.isStandaloneWord state.declared name :=
    isStandaloneWord_mono (fun other inside => faces.knows.known other (admits.known other inside))
      standalone
  refine (yields_invocation legible plain known gapped (breaks_spacedWords closes.breaks) faced
    (fun next awaits => ?_) (fun next awaits => awaits.arguments argues admits closes)
    (fun copies alike => ?_) faces.clean).mono ?_
  · exact goesOn_of_legibleArguments legibleArguments argument closes
      (State.awaits_iff_stands.1 awaits)
  · rw [assignedNames_congr (sameTexts_respelled alike)]
    exact admits.spares spared
  · rintro _ last ⟨_, _, _, copies, rfl, alike, awaits⟩
    refine ⟨_, rfl, by simp [Expression.shape, shapeAll_of_copies alike], ?_⟩
    rw [assignedNames_congr (sameTexts_respelled alike), Setting.knowing_knowing,
      State.awaits_iff_stands] at awaits
    simp only [Expression.exclusives, Setting.after, Setting.excluding_empty]
    refine awaits.retain fun name inside => ?_
    simp only [Expression.names, Expression.nodes, declaredBy_cons, declaredBy_append,
      Node.declares, beq_iff_eq, ne_set_of_isPlainCommand plain, if_false, declaredBy_nil,
      List.nil_append, List.mem_append] at inside ⊢
    exact inside.symm

/-! ## Commands of the families -/

/-- A command that nothing excludes is declared. -/
theorem yields_declareExclusive {state : State} {set : Exclusives} {line : Nat}
    {declared : List String} (free : setting.scopes.current.inter set.rivals = .empty)
    (stands : state.Stands (setting.knowing declared) rest) :
    Yields (declareExclusive set line) state fun _ last =>
      last.Stands (setting.after set declared) rest := by
  have accepted : state.scopes.declare set =
      .ok { state.scopes with current := state.scopes.current.union set } := by
    simp [Scopes.declare, stands.scopes, Setting.knowing, free]
  simp only [declareExclusive, Yields.get_bind, accepted]
  refine ⟨_, _, rfl, stands.congr rfl rfl rfl rfl rfl rfl rfl stands.nesting ?_ stands.checked
    (stands.knows.congr rfl rfl) stands.clean⟩
  simp [Setting.after, Setting.excluding, Setting.knowing, stands.scopes]

/-- The name of the header depends on the texts of the words alone. -/
theorem headerText_congr {first second : List Expression} (same : SameTexts first second) :
    (headerArgument? first).bind Expression.wordText? =
      (headerArgument? second).bind Expression.wordText? := by
  have texts := positional_sameTexts same
  unfold headerArgument?
  generalize positional first = left at texts ⊢
  generalize positional second = right at texts ⊢
  cases texts with
  | nil => rfl
  | @cons left right _ _ alike later =>
    simp only [alike]
    split
    · split
      · cases later with
        | nil => rfl
        | cons alike _ => exact alike
      · exact alike
    · exact alike

/-- Whether a word is the name of a command of the family. -/
theorem commandFamily?_of_isFamilyCommand {token : Token} {family : Family} {name : String}
    (known : isFamilyCommand family name) (kind : token.kind = Lexeme.wordKind name.toList)
    (text : token.literal = name) (notPlus : token.isPlus = false) :
    commandFamily? token = some family ∧ startsCommand token := by
  unfold isFamilyCommand at known
  rw [← kind] at known
  split at known
  · rename_i listed
    simp only [beq_iff_eq] at known
    simp [commandFamily?, startsCommand, listed, known]
  · rename_i unlisted
    simp only [Bool.and_eq_true, beq_iff_eq, bne_iff_ne] at known
    obtain ⟨found, notIp⟩ := known
    refine ⟨?_, by simp [startsCommand, unlisted, notPlus]⟩
    simp only [commandFamily?, unlisted, text, found]
  · simp at known

theorem readsCommand_namespaced {token : Token} {family : Family} {name : String}
    {arguments : List Expression} (legible : isLegibleWord name)
    (known : isFamilyCommand family name)
    (legibleArguments : legibleArguments names arguments)
    (argument : arguments.head?.all isArgument)
    (header : (name != "HTTP::header" || namesHeader (arguments.map Expression.respelled)) = true)
    (argues : ArguesAll names arguments) :
    ReadsCommand names (.namespaced token family name arguments) := by
  intro setting state gap rest spacing admits gapped faces closes _ free
  simp only [isLegibleWord, Bool.and_eq_true] at legible
  have faced : state.Faces setting (gap ++ (name.toList ++
      ((spacedWords (writtenAll arguments)).toList ++ rest))) := by
    simpa [Expression.written] using faces
  obtain ⟨kind, text, notPlus, stands⟩ :=
    faced.name gapped legible.1.1 (breaks_spacedWords closes.breaks)
  obtain ⟨found, starts⟩ := commandFamily?_of_isFamilyCommand known kind text notPlus
  have commandRead : Yields (namespacedCommand language family) state.advance fun result last =>
      ∃ copies, result = .namespaced state.advance.current family name copies ∧
        List.Forall₂ Expression.Copies copies arguments ∧
        last.Stands (setting.after (Expression.namespaced token family name arguments).exclusives
          (wordNames arguments)) rest := by
    simp only [namespacedCommand, Yields.current_bind, text]
    refine (readsWords_arguments.yields argues admits closes stands).bind ?_
    rintro copies last ⟨alike, stands⟩
    by_cases headed : name = "HTTP::header"
    · have known : namesHeader (arguments.map Expression.respelled) := by
        simpa [headed] using header
      have checked : Yields (checkHeader copies state.advance.current.line) last
          fun _ final => final = last := by
        unfold checkHeader
        rw [headerText_congr (sameTexts_respelled alike)]
        unfold namesHeader at known
        split
        · rename_i given found
          rw [if_pos (by simpa [found] using known)]
          exact .pure rfl
        · exact .pure rfl
      have harmless : (Expression.namespaced token family name arguments).exclusives = .empty := by
        simp [Expression.exclusives, headed, Exclusives.empty]
      rw [harmless, Setting.after, Setting.excluding_empty]
      simp only [headed, beq_self_eq_true, if_true]
      refine checked.bind ?_
      rintro _ _ rfl
      exact .pure ⟨copies, rfl, alike, stands⟩
    by_cases redirect : name = "HTTP::redirect"
    · have excludes : (Expression.namespaced token family name arguments).exclusives =
          { redirect := true } := by
        simp [Expression.exclusives, redirect]
      rw [excludes] at free ⊢
      simp only [redirect, beq_self_eq_true, if_true]
      refine (yields_declareExclusive free stands).bind ?_
      rintro _ final stands
      exact .pure ⟨copies, rfl, alike, stands⟩
    by_cases respond : name = "HTTP::respond"
    · have excludes : (Expression.namespaced token family name arguments).exclusives =
          { respond := true } := by
        simp [Expression.exclusives, respond]
      rw [excludes] at free ⊢
      simp only [respond, beq_self_eq_true, if_true]
      refine (yields_declareExclusive free stands).bind ?_
      rintro _ final stands
      exact .pure ⟨copies, rfl, alike, stands⟩
    · have harmless : (Expression.namespaced token family name arguments).exclusives = .empty := by
        simp [Expression.exclusives, redirect, respond, Exclusives.empty]
      rw [harmless, Setting.after, Setting.excluding_empty]
      simp only [beq_eq_false_iff_ne.2 headed, beq_eq_false_iff_ne.2 redirect,
        beq_eq_false_iff_ne.2 respond, Bool.false_eq_true, if_false]
      exact .pure ⟨copies, rfl, alike, stands⟩
  refine .command stands.coherent starts
    (goesOn_of_legibleArguments legibleArguments argument closes stands) ?_
  simp only [command, Yields.current_bind, found]
  refine commandRead.bind ?_
  rintro _ last ⟨copies, rfl, alike, stands⟩
  refine .pure ⟨_, rfl, by simp [Expression.shape, shapeAll_of_copies alike], ?_⟩
  simpa [Expression.names, wordNames, Node.declares] using stands

/-! ## Operations of `string` -/

/-- The copy of a word is an option only if the word is one. -/
theorem Expression.Copies.isOption {copy word : Expression} (copies : copy.Copies word)
    (option : isOption copy) : Parser.isOption word := by
  have text := copies.text
  cases word with
  | number token value =>
    unfold Parser.isOption at option
    rw [text, Expression.spelledText?, Option.map_some, Text.int64Text, Text.toList_toString]
      at option
    split at option
    · rename_i next later digits
      rw [Option.some.injEq] at digits
      split at digits
      · have digit := Text.isDigit_of_mem_toDigits (digits ▸ List.mem_cons_self ..)
        simp at digit
      · obtain ⟨-, digits⟩ := List.cons.inj digits
        have digit := Text.isDigit_of_mem_toDigits (digits ▸ List.mem_cons_self ..)
        simp only [Bool.or_eq_true, beq_iff_eq] at option
        rcases option with letter | rfl
        · have start : Lexeme.isNameStart next := by simp [Lexeme.isNameStart, letter]
          simp [Lexeme.not_isDigit_of_isNameStart start] at digit
        · simp at digit
    · simp at option
  | boolean token value =>
    unfold Parser.isOption at option
    rw [text] at option
    cases value <;> simp [Expression.spelledText?] at option
  | _ => simpa [Parser.isOption, text, Expression.spelledText?] using option

theorem positional_length_le {copies words : List Expression}
    (alike : List.Forall₂ Expression.Copies copies words) :
    (positional words).length ≤ (positional copies).length := by
  induction alike with
  | nil => exact le_rfl
  | @cons copy word _ _ same _ ih =>
    unfold positional at ih ⊢
    rw [List.filter_cons, List.filter_cons]
    split
    · rename_i positional
      have kept : (!isOption copy) = true := by
        by_contra option
        simp_all [Expression.Copies.isOption same]
      simpa [kept] using ih
    · split
      · simp only [List.length_cons]
        omega
      · exact ih

/-! ### Pairs of a `string map` -/

theorem length_shapeAll (expressions : List Expression) :
    (shapeAll expressions).length = expressions.length := by
  induction expressions with
  | nil => rfl
  | cons _ _ ih => simp [shapeAll, ih]

theorem length_members (pairs : List (Expression × Expression)) :
    (members pairs).length = 2 * pairs.length := by
  induction pairs with
  | nil => rfl
  | cons _ _ ih => simp [members, ih, Nat.mul_succ]

/-- Members are put together to the pairs they come from. -/
theorem shapePairs_inPairs {copies : List Expression} {pairs : List (Expression × Expression)}
    (same : shapeAll copies = shapeAll (members pairs)) :
    shapePairs (inPairs copies) = shapePairs pairs := by
  induction pairs generalizing copies with
  | nil =>
    cases copies with
    | nil => rfl
    | cons => simp [members, shapeAll] at same
  | cons pair pairs ih =>
    obtain _ | ⟨first, _ | ⟨second, copies⟩⟩ := copies
    · simp [members, shapeAll] at same
    · simp [members, shapeAll] at same
    · simp only [members, shapeAll, List.cons.injEq] at same
      simp [inPairs, shapePairs, same.1, same.2.1, ih same.2.2]

theorem writtenPairs_members (pairs : List (Expression × Expression)) :
    separated " " (writtenPairs " " pairs) = separated " " (writtenAll (members pairs)) := by
  have behind : ∀ pairs : List (Expression × Expression),
      followed " " (writtenPairs " " pairs) = followed " " (writtenAll (members pairs)) := by
    intro pairs
    induction pairs with
    | nil => rfl
    | cons pair pairs ih => simp [writtenPairs, members, writtenAll, ih, String.append_assoc]
  cases pairs with
  | nil => rfl
  | cons pair pairs =>
    simp [writtenPairs, members, writtenAll, separated_cons, behind, String.append_assoc]

/-- Pairs are written like the list of their members. -/
theorem writtenAll_unpaired (words : List Expression) :
    writtenAll (unpaired words) = writtenAll words := by
  fun_induction unpaired words with
  | case1 | case3 => rfl
  | case2 token pairs rest => simp [writtenAll, Expression.written, writtenPairs_members]
  | case4 word rest _ _ ih => simp [writtenAll, ih]

/-- What is read of a `string map` is paired as it was. -/
theorem copies_pairFirstList {copies words : List Expression} (legible : legibleMapped names words)
    (alike : List.Forall₂ Expression.Copies copies (unpaired words)) :
    List.Forall₂ Expression.Copies (pairFirstList copies) words := by
  fun_induction unpaired words generalizing names copies with
  | case1 =>
    cases alike
    exact .nil
  | case2 token pairs rest =>
    cases alike with
    | @cons copy _ copies _ same later =>
      have shape := same.shape
      rw [Expression.shape] at shape
      cases copy with
      | list first elements =>
        rw [Expression.shape, Expression.list.injEq] at shape
        have even : elements.length % 2 = 0 := by
          rw [← length_shapeAll, shape.2, length_shapeAll, length_members]
          omega
        rw [pairFirstList, if_pos (by simp [even])]
        exact .cons ⟨by simp [Expression.shape, shapePairs_inPairs shape.2], rfl⟩ later
      | _ => simp [Expression.shape] at shape
  | case3 token words rest =>
    cases alike with
    | @cons copy _ copies _ same later =>
      have shape := same.shape
      rw [Expression.shape] at shape
      cases copy with
      | list first elements =>
        rw [Expression.shape, Expression.list.injEq] at shape
        simp only [legibleMapped, Bool.and_eq_true, beq_iff_eq] at legible
        have odd : elements.length % 2 = 1 := by
          rw [← length_shapeAll, shape.2, length_shapeAll]
          exact legible.1.2
        rw [pairFirstList, if_neg (by simp [odd])]
        exact .cons same later
      | _ => simp [Expression.shape] at shape
  | case4 word rest noPairs noList ih =>
    cases alike with
    | @cons copy _ copies _ same later =>
      rw [legibleMapped.eq_4 _ _ _ noPairs noList, Bool.and_eq_true] at legible
      have noCopy : ∀ token elements, copy ≠ .list token elements := by
        rintro token elements rfl
        have shape := same.shape
        cases word <;> simp_all [Expression.shape]
      rw [pairFirstList.eq_3 _ _ noCopy]
      exact .cons same (ih legible.2 later)

/-- Arguments of an operation of `string` as they are written. -/
def givenArguments (operation : String) (arguments : List Expression) : List Expression :=
  if operation == "map" then unpaired arguments else arguments

/-- Arguments of an operation of `string` as they are kept. -/
def keptArguments (operation : String) (given : List Expression) : List Expression :=
  if operation == "map" then pairFirstList given else given

theorem writtenAll_givenArguments (operation : String) (arguments : List Expression) :
    writtenAll (givenArguments operation arguments) = writtenAll arguments := by
  unfold givenArguments
  split
  · exact writtenAll_unpaired arguments
  · rfl

/-- What is declared in pairs is declared in the list of their members. -/
theorem wordNames_givenArguments (operation : String) (arguments : List Expression) :
    wordNames (givenArguments operation arguments) = wordNames arguments := by
  have unpairs : wordNames (unpaired arguments) = wordNames arguments := by
    fun_induction unpaired arguments with
    | case1 | case3 => rfl
    | case2 token pairs rest => simp [Expression.names, Node.declares, pairNodes_eq]
    | case4 word rest _ _ ih => simp [ih]
  unfold givenArguments
  split
  · exact unpairs
  · rfl

theorem copies_keptArguments {operation : String} {copies arguments : List Expression}
    (legible : operation = "map" → legibleMapped names arguments)
    (alike : List.Forall₂ Expression.Copies copies (givenArguments operation arguments)) :
    List.Forall₂ Expression.Copies (keptArguments operation copies) arguments := by
  unfold givenArguments at alike
  unfold keptArguments
  split at alike
  · rename_i map
    rw [if_pos map]
    exact copies_pairFirstList (legible (beq_iff_eq.1 map)) alike
  · rename_i other
    rwa [if_neg other]

/-! ### Reading an operation -/

/-- An operation of `string` is its name and the words that are read behind it, whose number
is checked. -/
theorem yields_stringOperation {before middle after : List Diagnostic → Prop}
    {holds kept : List Expression → Prop} {operation : String} {least : Nat} {state : State}
    {gap text : List Char} {spacing : Spacing} (legible : isLegibleWord operation)
    (plain : isOperatorWord operation = false)
    (arity : Vocabulary.stringArity? operation = some least) (gapped : Gap gap spacing)
    (breaks : Lexeme.Breaks text)
    (faces : state.quiet.Faces setting (gap ++ ("string".toList ++ ([' '] ++ (operation.toList ++
      text)))))
    (given : ∀ next : State, next.Awaits before setting text →
      Yields language.arguments next fun copies last =>
        holds copies ∧ last.Awaits middle behind rest)
    (checked : ∀ (copies : List Expression) (next : State) (line : Nat), holds copies →
      next.Awaits middle behind rest → kept (keptArguments operation copies) ∧
        Yields (checkArity operation (positional (keptArguments operation copies)).length line) next
          fun _ last => last.Awaits after behind rest)
    (found : before state.diagnostics) :
    Yields language.commandOrExpression state.advance fun result last =>
      ∃ token copies, result = some (.stringOperation token operation copies) ∧ kept copies ∧
        last.Awaits after behind rest := by
  simp only [isLegibleWord, Bool.and_eq_true] at legible
  have apart : Lexeme.Breaks ([' '] ++ (operation.toList ++ text)) := by
    simp [Lexeme.Breaks, Lexeme.isWordChar, Lexeme.isNameChar]
  obtain ⟨kind, -, -, named⟩ := faces.name gapped (by decide) apart
  have here : state.advance.current.kind = .core .string := kind.trans (by decide)
  obtain ⟨-, operationText, -, stands⟩ := named.toFaces.name .space legible.1.1 breaks
  have operated : state.advance.advance.Awaits before setting text := ⟨stands, found⟩
  have spelled : state.advance.advance.current.literal = operation := operationText
  have follows : state.quiet.advance.endsCommand = false :=
    endsCommand_of_starts named.toFaces (starts_of_isBareWord legible.1.1)
  have unended : state.advance.endsCommand = false := follows
  have notOperator : Precedence.isStatementOperator state.quiet.advance.lookahead = false :=
    named.toFaces.notOperator .space legible.1.1 breaks plain
  have notOperator : Precedence.isStatementOperator state.advance.lookahead = false := notOperator
  have commandRead : Yields (stringCommand language) state.advance fun result last =>
      ∃ copies, result = some (.stringOperation state.advance.current operation copies) ∧
        kept copies ∧ last.Awaits after behind rest := by
    simp only [stringCommand, Yields.current_bind, Yields.endsCommand_bind, unended,
      Bool.false_eq_true, if_false, Yields.advance_bind, spelled, arity, Option.isNone_some]
    refine (given _ operated).bind ?_
    rintro copies last ⟨held, awaits⟩
    obtain ⟨shaped, checks⟩ := checked copies last state.advance.current.line held awaits
    refine checks.bind ?_
    rintro _ final awaits
    exact .pure ⟨keptArguments operation copies, rfl, shaped, awaits⟩
  have coherent : state.advance.Coherent :=
    named.coherent.congr rfl rfl rfl rfl rfl
  refine .command coherent (by simp [startsCommand, here]) (by simp [notOperator]) ?_
  simp only [command, Yields.current_bind, commandFamily?, here]
  refine commandRead.mono ?_
  rintro _ last ⟨copies, rfl, held, awaits⟩
  exact ⟨_, copies, rfl, held, awaits⟩

theorem readsCommand_stringOperation {token : Token} {operation : String}
    {arguments : List Expression} (legible : isLegibleWord operation)
    (plain : isOperatorWord operation = false)
    (mapped : operation = "map" → legibleMapped names arguments)
    (sound : (Expression.stringOperation token operation arguments).Sound)
    (argues : ArguesAll names (givenArguments operation arguments)) :
    ReadsCommand names (.stringOperation token operation arguments) := by
  intro setting state gap rest spacing admits gapped faces closes _ _
  obtain ⟨least, arity, enough⟩ := sound
  have faced : state.quiet.Faces setting (gap ++ ("string".toList ++ ([' '] ++ (operation.toList ++
      ((spacedWords (writtenAll (givenArguments operation arguments))).toList ++ rest))))) := by
    simpa [State.quiet_eq faces.clean, Expression.written, writtenAll_givenArguments] using faces
  have checked : ∀ (copies : List Expression) (next : State) (line : Nat),
      List.Forall₂ Expression.Copies copies (givenArguments operation arguments) →
      next.Awaits (· = []) (setting.knowing (wordNames (givenArguments operation arguments))) rest →
      List.Forall₂ Expression.Copies (keptArguments operation copies) arguments ∧
        Yields (checkArity operation (positional (keptArguments operation copies)).length line) next
          fun _ last => last.Awaits (· = [])
            (setting.knowing (wordNames (givenArguments operation arguments))) rest := by
    intro copies next line alike awaits
    have kept := copies_keptArguments mapped alike
    have given := enough.trans (positional_length_le kept)
    refine ⟨kept, ?_⟩
    simp only [checkArity, arity, Nat.not_lt.2 given, if_false]
    exact .pure awaits
  have operationRead : Yields language.commandOrExpression state.advance fun result last =>
      ∃ token copies, result = some (.stringOperation token operation copies) ∧
        List.Forall₂ Expression.Copies copies arguments ∧ last.Awaits (· = [])
          (setting.knowing (wordNames (givenArguments operation arguments))) rest :=
    yields_stringOperation legible plain arity gapped (breaks_spacedWords closes.breaks) faced
      (fun next awaits => awaits.arguments argues admits closes) checked faces.clean
  refine operationRead.mono ?_
  rintro _ last ⟨_, copies, rfl, alike, awaits⟩
  refine ⟨_, rfl, by simp [Expression.shape, shapeAll_of_copies alike], ?_⟩
  rw [wordNames_givenArguments, State.awaits_iff_stands] at awaits
  simpa [Expression.exclusives, Expression.names, wordNames, Node.declares, Setting.after] using
    awaits

/-! ## Targets -/

theorem readsCommand_target {token : Token} {kind : TargetKind} {arguments : List Expression}
    (legibleArguments : legibleArguments names arguments)
    (argument : arguments.head?.all isArgument)
    (nonempty : arguments ≠ []) (argues : ArguesAll names arguments) :
    ReadsCommand names (.target token kind arguments) := by
  intro setting state gap rest spacing admits gapped faces closes _ free
  have faced : state.Faces setting (gap ++ (kind.keyword.toList ++
      ((spacedWords (writtenAll arguments)).toList ++ rest))) := by
    simpa [Expression.written] using faces
  obtain ⟨known, text, -, stands⟩ :=
    faced.name gapped (by cases kind <;> decide) (breaks_spacedWords closes.breaks)
  have commandRead : Yields (targetCommand language kind) state.advance fun result last =>
      ∃ copies, result = .target state.advance.current kind copies ∧
        List.Forall₂ Expression.Copies copies arguments ∧
        last.Stands (setting.after (Expression.target token kind arguments).exclusives
          (wordNames arguments)) rest := by
    simp only [targetCommand, Yields.current_bind]
    refine (readsWords_arguments.yields argues admits closes stands).bind ?_
    rintro copies last ⟨alike, stands⟩
    have given : copies.isEmpty = false := by
      cases alike <;> simp_all
    simp only [given, Bool.false_eq_true, if_false]
    cases kind with
    | pool | node =>
      refine (yields_declareExclusive free stands).bind ?_
      rintro _ final stands
      exact .pure ⟨copies, rfl, alike, stands⟩
  have here : state.advance.current.kind = .core (if kind = .pool then .pool else .node) := by
    rw [known]
    cases kind <;> decide
  refine .command stands.coherent (by simp [startsCommand, here])
    (goesOn_of_legibleArguments legibleArguments argument closes stands) ?_
  have named : Yields (do return some (← targetCommand language kind)) state.advance
      fun result last => ∃ copy : Expression, result = some copy ∧
        copy.shape = (Expression.target token kind arguments).shape ∧
        last.Stands (setting.after (Expression.target token kind arguments).exclusives
          (Expression.target token kind arguments).names) rest := by
    refine commandRead.bind ?_
    rintro _ last ⟨copies, rfl, alike, stands⟩
    refine .pure ⟨_, rfl, by simp [Expression.shape, shapeAll_of_copies alike], ?_⟩
    simpa [Expression.names, wordNames, Node.declares] using stands
  simp only [command, Yields.current_bind, commandFamily?, here]
  cases kind <;> exact named

end Parser

end IRule
