import IRule.Proofs.Parser.Accounting.Word
import IRule.Proofs.Parser.Command

/-!
# Blocks and commands

A `set` is the one command whose reports quote nodes, by their canonical text; all other
reports quote words, which stand in the rule.
-/

namespace IRule.Parser

variable {source : List Char} {declared : List String} {grammar other : Grammar} {state : State}

/-! ## Blocks and handlers -/

/-- One more statement, if it was kept, in front of those that were read later. -/
theorem onLines_collect {result : Option Statement} {later : List Statement}
    (first : ∀ statement ∈ result, OnLines source statement.tokens)
    (rest : OnLines source (statementTokens later)) :
    OnLines source (statementTokens (result.toList ++ later)) := by
  cases result with
  | none => exact rest
  | some statement => exact onLines_append.2 ⟨first statement rfl, rest⟩

/-- The statements of a block have lines of the rule, and a missing brace is reported
where the block starts. -/
theorem blockBody_accounts {line : Nat} (lawful : Lawful source declared grammar other)
    (sound : Sound source declared state) (real : HasLine source line) :
    Accounts source declared (blockBody grammar line) (blockBody other line) state
      fun statements _ => OnLines source (statementTokens statements) := by
  unfold blockBody
  simp only [Accounts.current_bind]
  split
  case h_1 => exact .pure sound onLines_nil
  case h_2 =>
    exact (Accounts.report sound real (.silent rfl) (by simp)).bind
      fun _ _ sound _ => .pure sound onLines_nil
  case h_3 =>
    refine (lawful .statement _ sound trivial).bind fun statement _ sound known => ?_
    refine .advance_bind ((lawful (.blockBody line) _ sound.advance real).bind
      fun later _ sound rest => .pure sound (onLines_collect known rest))

/-- A block has the line of its opening brace. -/
theorem block_accounts (lawful : Lawful source declared grammar other)
    (sound : Sound source declared state) :
    Accounts source declared (block grammar) (block other) state
      fun body _ => OnLines source body.tokens := by
  have line := sound.line
  unfold block
  simp only [Accounts.current_bind]
  refine .inScope (fun body => OnLines source (Block.tokens body)) sound fun sound => ?_
  refine .within sound fun sound => .advance_bind ?_
  refine (lawful (.blockBody _) _ sound.advance line).mono fun statements _ _ known => ?_
  simpa [Block.tokens] using ⟨line, known⟩

theorem expectBlock_accounts {head : BlockHead} (lawful : Lawful source declared grammar other)
    (sound : Sound source declared state) :
    Accounts source declared (expectBlock grammar head) (expectBlock other head) state
      fun result _ => ∀ body ∈ result, OnLines source body.tokens := by
  unfold expectBlock
  simp only [Accounts.isAhead_bind]
  refine .ite (fun _ => .advance_bind ?_) fun _ => ?_
  · exact (block_accounts lawful sound.advance).bind fun _ _ sound known =>
      .pure sound (by simpa using known)
  · exact .giveUp (.reportAhead sound (.one rfl sound.descriptionAhead) (by simp))

/-- The name of an event is quoted when it is not in the table. -/
theorem eventName_accounts (sound : Sound source declared state) :
    Accounts source declared eventName eventName state fun event _ => event.WordFrom source := by
  have line := sound.line
  have literal := sound.literal
  unfold eventName
  simp only [Accounts.current_bind]
  refine .ite (fun _ => .pure sound (bareWord_wordFrom line literal)) fun _ => ?_
  refine (Accounts.reportHere sound ?_ (by simp)).bind fun _ _ sound _ =>
    .pure sound (invalid_wordFrom line literal)
  exact .one rfl literal

theorem handlerPriority_accounts (sound : Sound source declared state) :
    Accounts source declared handlerPriority handlerPriority state fun _ _ => True := by
  unfold handlerPriority
  simp only [Accounts.get_bind]
  refine .ite (fun _ => .pure sound trivial) fun _ => .advance_bind ?_
  have sound := sound.advance
  simp only [Accounts.isAhead_bind]
  refine .ite (fun _ => .advance_bind ?_) fun _ => ?_
  · simp only [Accounts.current_bind]
    exact .pure sound.advance trivial
  · refine (Accounts.reportAhead sound ?_ (by simp)).bind fun _ _ sound _ => .pure sound trivial
    exact .one rfl sound.descriptionAhead

/-- A handler is drawn from the rule with its event and its block. -/
theorem handler_accounts (lawful : Lawful source declared grammar other)
    (sound : Sound source declared state) :
    Accounts source declared (handler grammar) (handler other) state
      fun result _ => ∀ value ∈ result, value.WordFrom source := by
  have line := sound.line
  unfold handler
  simp only [Accounts.current_bind, Accounts.endsCommand_bind, Accounts.isAhead_bind]
  refine .ite (fun _ => ?_) fun _ => .advance_bind ?_
  · exact .giveUp (.reportAhead sound (.one rfl sound.descriptionAhead) (by simp))
  refine (eventName_accounts sound.advance).bind fun event _ sound known => ?_
  refine (handlerPriority_accounts sound).bind fun _ _ sound _ => ?_
  refine (expectBlock_accounts lawful sound).keep rfl rfl fun body _ sound inner => .pure sound ?_
  rintro _ ⟨⟩
  refine .of_node ?_ ?_ rfl
  · simpa [Expression.tokens] using ⟨line, known.lines, inner⟩
  · simpa [Expression.texts] using known.texts

/-! ## Assignments -/

/-- A target that is no legal name is quoted in its report. -/
theorem variableTarget_accounts {token : Token} {text : String}
    (sound : Sound source declared state) (real : HasLine source token.line)
    (quotes : Quotes source text) :
    Accounts source declared (variableTarget token text) (variableTarget token text) state
      fun result _ => result.1.WordFrom source := by
  unfold variableTarget
  refine .ite (fun _ => .pure sound (bareWord_wordFrom real quotes)) fun _ => ?_
  refine (Accounts.report sound real ?_ (by simp)).bind fun _ _ sound _ =>
    .pure sound (invalid_wordFrom real quotes)
  exact .one rfl quotes

/-- Declaring the variable of a target reports nothing more. -/
theorem declaredTarget_accounts {token : Token} {text : String}
    (sound : Sound source declared state) (real : HasLine source token.line)
    (quotes : Quotes source text) :
    Accounts source declared (declaredTarget token text) (declaredTarget token text) state
      fun target _ => target.WordFrom source := by
  unfold declaredTarget
  refine (variableTarget_accounts sound real quotes).bind fun named _ sound known => ?_
  obtain ⟨target, name⟩ := named
  exact (Accounts.declare sound name).bind fun _ _ sound _ => .pure sound known

/-- The target of a `set` is drawn from the rule, whichever kind it is of. -/
theorem setTarget_accounts (lawful : Lawful source declared grammar other)
    (sound : Sound source declared state) :
    Accounts source declared (setTarget grammar) (setTarget other) state
      fun result _ => ∀ target ∈ result, target.1.WordFrom source := by
  have line := sound.line
  have read : Accounts source declared
      (grammar.word .word >>= fun name => pure (name.map fun name => (name, none)))
      (other.word .word >>= fun name => pure (name.map fun name => (name, none))) state
      fun (result : Option (Expression × Option String)) _ =>
        ∀ target ∈ result, target.1.WordFrom source :=
    .mapped (lawful (.word .word) state sound trivial) fun _ _ _ known => known
  unfold setTarget
  simp only [Accounts.current_bind]
  split
  case h_1 =>
    refine (bracketed_accounts lawful sound).bind fun inner _ sound known => .pure sound ?_
    rintro _ ⟨⟩
    refine .of_node ?_ ?_ rfl
    · simpa [Expression.tokens] using ⟨line, known.lines⟩
    · simpa [Expression.texts] using known.texts
  case h_2 => exact read
  case h_3 => exact read
  case h_4 =>
    refine (rawWordText_accounts lawful sound).bind fun text _ sound quotes => ?_
    refine (variableTarget_accounts sound line quotes).bind fun target _ sound known => ?_
    exact .pure sound (by simpa using known)

/-- The reports of a `set` quote its words by their canonical text. -/
theorem setParts_accounts (lawful : Lawful source declared grammar other)
    (sound : Sound source declared state) :
    Accounts source declared (setParts grammar) (setParts other) state
      fun result _ => ∀ parts ∈ result,
        parts.1.WordFrom source ∧ parts.2.WordFrom source := by
  unfold setParts
  simp only [Accounts.endsCommand_bind]
  refine .ite (fun _ => .giveUp (.reportHere sound (.silent rfl) (by simp))) fun _ =>
    .advance_bind ?_
  refine (setTarget_accounts lawful sound.advance).keep rfl rfl fun named _ sound target => ?_
  obtain ⟨name, toDeclare⟩ := named
  simp only [Accounts.endsCommand_bind]
  refine .ite (fun _ => ?_) fun _ => .advance_bind ?_
  · refine (Accounts.reportHere sound ?_ (by simp)).bind fun _ _ sound _ => .pure sound (by simp)
    exact .nodes [name] rfl rfl (allDrawn_singleton.2 target.toDrawnFrom)
  refine (lawful (.word .word) _ sound.advance trivial).keep rfl rfl
    fun value middle sound known => ?_
  have finish (last : State) (sound : Sound source declared last) :
      Accounts source declared (declare toDeclare >>= fun _ => pure (some (name, value)))
        (declare toDeclare >>= fun _ => pure (some (name, value))) last fun result _ =>
        ∀ parts ∈ result, parts.1.WordFrom source ∧ parts.2.WordFrom source :=
    (Accounts.declare sound toDeclare).bind fun _ _ sound _ =>
      .pure sound (by simpa using ⟨target, known⟩)
  simp only [Accounts.endsCommand_bind]
  refine .ite (fun _ => finish middle sound) fun _ => ?_
  refine (Accounts.reportAhead sound ?_ (by simp)).bind fun _ _ sound _ => ?_
  · refine .nodes [name, value] rfl rfl ?_
    simpa [AllDrawn] using ⟨target.toDrawnFrom, known.toDrawnFrom⟩
  · exact (lawful (.skipCommand 0) _ sound trivial).bind fun _ _ sound _ => finish _ sound

/-! ## Arguments -/

/-- The arguments of a command are words of the rule. -/
theorem arguments_accounts (lawful : Lawful source declared grammar other)
    (sound : Sound source declared state) :
    Accounts source declared (arguments grammar) (arguments other) state
      fun given _ => AllWords source given := by
  unfold arguments
  simp only [Accounts.endsCommand_bind]
  refine .ite (fun _ => .pure sound allWords_nil) fun _ => .advance_bind ?_
  refine (lawful (.word .word) _ sound.advance trivial).bind fun argument _ sound known => ?_
  refine (lawful .arguments _ sound trivial).bind fun later _ sound rest => ?_
  exact .pure sound (AllWords.collect rest known)

/-- A command that is refused is reported with the other one, and neither is quoted. -/
theorem declareExclusive_accounts {set : Exclusives} {line : Nat}
    (single : set ∈ singleExclusives) (sound : Sound source declared state)
    (real : HasLine source line) :
    Accounts source declared (declareExclusive set line) (declareExclusive set line) state
      fun _ _ => True := by
  unfold declareExclusive
  simp only [Accounts.get_bind]
  cases allowed : state.scopes.declare set with
  | ok scopes => exact .run rfl (sound.step (.exclude single allowed) rfl) trivial
  | error conflict => exact (Accounts.report sound real (.silent rfl) (by simp)).trivial

/-! ## Commands of known shape -/

/-- The name of a header is one of the arguments. -/
theorem headerArgument?_mem {given : List Expression} {argument : Expression}
    (found : headerArgument? given = some argument) : argument ∈ given := by
  suffices argument ∈ positional given from List.mem_of_mem_filter this
  unfold headerArgument? at found
  split at found
  · cases found
  · rename_i first later shape
    rw [shape]
    split at found
    · split at found
      · exact List.mem_cons_of_mem _ (List.mem_of_head? found)
      · cases found
        exact List.mem_cons_self ..
    · cases found
      exact List.mem_cons_self ..

/-- The name of a header is quoted from the arguments. -/
theorem checkHeader_accounts {given : List Expression} {line : Nat}
    (sound : Sound source declared state) (real : HasLine source line)
    (words : AllWords source given) :
    Accounts source declared (checkHeader given line) (checkHeader given line) state
      fun _ _ => True := by
  unfold checkHeader
  split
  · rename_i name found
    obtain ⟨argument, isHeader, text⟩ := Option.bind_eq_some_iff.1 found
    have quotes := (words argument (headerArgument?_mem isHeader)).word name text
    refine .ite (fun _ => .pure sound trivial) fun _ =>
      (Accounts.report sound real ?_ (by simp)).trivial
    exact .one rfl quotes
  · exact .pure sound trivial

/-- A command of a family is drawn from the rule with its arguments. -/
theorem namespacedCommand_accounts {family : Family} (lawful : Lawful source declared grammar other)
    (sound : Sound source declared state) :
    Accounts source declared (namespacedCommand grammar family) (namespacedCommand other family)
      state fun value _ => value.WordFrom source := by
  have line := sound.line
  have literal := sound.literal
  unfold namespacedCommand
  simp only [Accounts.current_bind]
  refine (lawful .arguments _ sound trivial).bind fun given middle sound known => ?_
  have command (last : State) (sound : Sound source declared last) :
      Accounts source declared
        (pure (Expression.namespaced state.current family state.current.literal given))
        (pure (Expression.namespaced state.current family state.current.literal given)) last
        fun value _ => value.WordFrom source := by
    refine .pure sound (.of_node ?_ ?_ rfl)
    · simpa [Expression.tokens] using ⟨line, known.drawn.onLines⟩
    · simpa [Expression.texts] using ⟨literal.lineFeed, known.drawn.keepsLines⟩
  refine .ite (fun _ => ?_) fun _ => .ite (fun _ => ?_) fun _ => .ite (fun _ => ?_) fun _ => ?_
  · exact (checkHeader_accounts sound line known).bind fun _ last sound _ => command last sound
  · exact (declareExclusive_accounts (by simp [singleExclusives]) sound line).bind
      fun _ last sound _ => command last sound
  · exact (declareExclusive_accounts (by simp [singleExclusives]) sound line).bind
      fun _ last sound _ => command last sound
  · exact command middle sound

/-- Elements in pairs keep their lines. -/
theorem onLines_inPairs {elements : List Expression}
    (lines : OnLines source (tokensOf elements)) :
    OnLines source (pairTokens (inPairs elements)) := by
  fun_induction inPairs elements with
  | case1 first second later ih =>
    simp only [tokensOf, onLines_append] at lines
    simpa only [pairTokens, onLines_append] using ⟨lines.1, lines.2.1, ih lines.2.2⟩
  | case2 => simp [pairTokens]

/-- Elements in pairs keep their texts. -/
theorem keepsLines_inPairs {elements : List Expression}
    (texts : KeepsLines source (textsOf elements)) :
    KeepsLines source (pairTexts (inPairs elements)) := by
  fun_induction inPairs elements with
  | case1 first second later ih =>
    simp only [textsOf, keepsLines_append] at texts
    simpa only [pairTexts, keepsLines_append] using ⟨texts.1, texts.2.1, ih texts.2.2⟩
  | case2 => simp [pairTexts]

/-- Taking the first list as pairs makes up nothing. -/
theorem pairFirstList_words {given : List Expression} (words : AllWords source given) :
    AllWords source (pairFirstList given) := by
  fun_induction pairFirstList given with
  | case1 => exact words
  | case2 token elements later even =>
    obtain ⟨list, words⟩ := List.forall_mem_cons.1 words
    refine List.forall_mem_cons.2 ⟨.of_node ?_ ?_ rfl, words⟩
    · have lines := list.lines
      simp only [Expression.tokens, onLines_cons] at lines
      simpa [Expression.tokens] using ⟨lines.1, onLines_inPairs lines.2⟩
    · have texts := list.texts
      simp only [Expression.texts] at texts
      simpa [Expression.texts] using keepsLines_inPairs texts
  | case3 => exact words
  | case4 argument later _ ih =>
    obtain ⟨first, words⟩ := List.forall_mem_cons.1 words
    exact List.forall_mem_cons.2 ⟨first, ih words⟩

/-- The report of a wrong number of arguments quotes the operation. -/
theorem checkArity_accounts {operation : String} {given line : Nat}
    (sound : Sound source declared state) (real : HasLine source line)
    (quotes : Quotes source operation) :
    Accounts source declared (checkArity operation given line) (checkArity operation given line)
      state fun _ _ => True := by
  unfold checkArity
  split
  · refine .ite (fun _ => (Accounts.report sound real ?_ (by simp)).trivial) fun _ =>
      .pure sound trivial
    exact .one rfl quotes
  · exact .pure sound trivial

/-- An operation of `string` is drawn from the rule, also where its list is taken as
pairs. -/
theorem stringCommand_accounts (lawful : Lawful source declared grammar other)
    (sound : Sound source declared state) :
    Accounts source declared (stringCommand grammar) (stringCommand other) state
      fun result _ => ∀ value ∈ result, value.WordFrom source := by
  have line := sound.line
  unfold stringCommand
  simp only [Accounts.current_bind, Accounts.endsCommand_bind]
  refine .ite (fun _ => .giveUp (.reportHere sound (.silent rfl) (by simp))) fun _ =>
    .advance_bind ?_
  have sound := sound.advance
  have literal := sound.literal
  simp only [Accounts.current_bind]
  refine .check sound (fun _ => .reportHere sound ?_ (by simp)) fun _ sound => ?_
  · exact .one rfl literal
  refine (lawful .arguments _ sound trivial).bind fun given _ sound known => ?_
  refine (checkArity_accounts sound line literal).bind fun _ _ sound _ => .pure sound ?_
  rintro _ ⟨⟩
  have shaped : AllWords source (if (state.advance.current.literal == "map") = true
      then pairFirstList given else given) := by
    split
    · exact pairFirstList_words known
    · exact known
  refine .of_node ?_ ?_ rfl
  · simpa only [Expression.tokens, onLines_cons] using ⟨line, shaped.drawn.onLines⟩
  · simpa only [Expression.texts, keepsLines_cons] using
      ⟨literal.lineFeed, shaped.drawn.keepsLines⟩

/-- Options are quoted from the rule, the unknown ones in their reports too. -/
theorem classOptions_accounts (lawful : Lawful source declared grammar other)
    (sound : Sound source declared state) :
    Accounts source declared (classOptions grammar) (classOptions other) state
      fun options _ => ∀ option ∈ options, Quotes source option := by
  unfold classOptions
  simp only [Accounts.get_bind]
  refine .ite (fun _ => .advance_bind ?_) fun _ => .pure sound (by simp)
  refine (rawWordText_accounts lawful sound.advance).bind fun option _ sound quotes => ?_
  refine .checkUnless sound (fun _ => .reportHere sound ?_ (by simp)) fun _ sound => ?_
  · exact .one rfl quotes
  refine .ite (fun _ => .pure sound (by simpa using quotes)) fun _ => ?_
  refine (lawful .classOptions _ sound trivial).bind fun later _ sound rest => ?_
  exact .pure sound (List.forall_mem_cons.2 ⟨quotes, rest⟩)

/-- The report of an unknown operator quotes it from the arguments. -/
theorem checkClassArguments_accounts {subcommand : String} {given : List Expression} {line : Nat}
    (sound : Sound source declared state) (real : HasLine source line)
    (quotes : Quotes source subcommand) (words : AllWords source given) :
    Accounts source declared (checkClassArguments subcommand given line)
      (checkClassArguments subcommand given line) state fun _ _ => True := by
  unfold checkClassArguments
  refine .ite (fun _ => ?_) fun _ => .pure sound trivial
  split
  · rename_i item operator name
    split
    · rename_i text isText
      have operator := (words operator (by simp)).word text isText
      refine .ite (fun _ => .pure sound trivial) fun _ =>
        (Accounts.report sound real ?_ (by simp)).trivial
      exact .of_quotes (by simpa [Problem.quoted] using ⟨quotes, operator⟩)
    · exact .pure sound trivial
  · refine (Accounts.report sound real ?_ (by simp)).trivial
    exact .one rfl quotes

theorem keepsLines_of_quotes {texts : List String} (quotes : ∀ text ∈ texts, Quotes source text) :
    KeepsLines source texts :=
  fun text mem => (quotes text mem).lineFeed

/-- A `class` command is drawn from the rule with its options. -/
theorem classCommand_accounts (lawful : Lawful source declared grammar other)
    (sound : Sound source declared state) :
    Accounts source declared (classCommand grammar) (classCommand other) state
      fun result _ => ∀ value ∈ result, value.WordFrom source := by
  have line := sound.line
  unfold classCommand
  simp only [Accounts.current_bind, Accounts.endsCommand_bind]
  refine .ite (fun _ => .giveUp (.reportHere sound (.silent rfl) (by simp))) fun _ =>
    .advance_bind ?_
  have sound := sound.advance
  have literal := sound.literal
  simp only [Accounts.current_bind]
  refine .checkUnless sound (fun _ => .reportHere sound ?_ (by simp)) fun _ sound => ?_
  · exact .one rfl literal
  refine (lawful .classOptions _ sound trivial).bind fun options _ sound quotes => ?_
  refine (lawful .arguments _ sound trivial).bind fun given _ sound known => ?_
  refine (checkClassArguments_accounts sound line literal known).bind
    fun _ _ sound _ => .pure sound ?_
  rintro _ ⟨⟩
  refine .of_node ?_ ?_ rfl
  · simpa [Expression.tokens] using ⟨line, known.drawn.onLines⟩
  · simpa [Expression.texts] using
      ⟨literal.lineFeed, keepsLines_of_quotes quotes, known.drawn.keepsLines⟩

/-! ## `regsub` -/

/-- Flags are quoted from the rule. -/
theorem regsubFlags_accounts (lawful : Lawful source declared grammar other)
    (sound : Sound source declared state) :
    Accounts source declared (regsubFlags grammar) (regsubFlags other) state
      fun flags _ => ∀ flag ∈ flags, Quotes source flag := by
  unfold regsubFlags
  simp only [Accounts.get_bind]
  refine .ite (fun _ => .advance_bind ?_) fun _ => .pure sound (by simp)
  refine (rawWordText_accounts lawful sound.advance).bind fun flag _ sound quotes => ?_
  refine .ite (fun _ => .pure sound (by simp)) fun _ => ?_
  refine .checkUnless sound (fun _ => .reportHere sound ?_ (by simp)) fun _ sound => ?_
  · exact .one rfl quotes
  refine (lawful .regsubFlags _ sound trivial).bind fun later _ sound rest => ?_
  exact .pure sound (List.forall_mem_cons.2 ⟨quotes, rest⟩)

/-- A pattern in braces is quoted from the rule. -/
theorem regsubArgument_accounts {first : Bool} (lawful : Lawful source declared grammar other)
    (sound : Sound source declared state) :
    Accounts source declared (regsubArgument grammar first) (regsubArgument other first) state
      fun result _ => ∀ value ∈ result, value.WordFrom source := by
  have line := sound.line
  unfold regsubArgument
  simp only [Accounts.current_bind]
  refine .ite (fun _ => ?_) fun _ => lawful (.word .word) _ sound trivial
  refine .mapped ((captureBrace_accounts lawful sound).mono fun _ _ _ captured body taken =>
    (captured body taken).1) fun body _ _ quotes => ?_
  exact Expression.wordFrom_leaf line quotes rfl (by simp [Expression.texts])
    (by simp [Expression.wordText?])

/-- The arguments of a `regsub` are words of the rule. -/
theorem regsubArguments_accounts {first : Bool} (lawful : Lawful source declared grammar other)
    (sound : Sound source declared state) :
    Accounts source declared (regsubArguments grammar first) (regsubArguments other first) state
      fun given _ => AllWords source given := by
  unfold regsubArguments
  simp only [Accounts.endsCommand_bind]
  refine .ite (fun _ => .pure sound allWords_nil) fun _ => .advance_bind ?_
  refine (regsubArgument_accounts lawful sound.advance).bind fun argument _ sound known => ?_
  refine (lawful (.regsubArguments _) _ sound trivial).bind fun later _ sound rest => ?_
  exact .pure sound (AllWords.collect rest known)

/-- The result variable is drawn from the rule, declared or not. -/
theorem regsubResult_accounts {result : Expression} (sound : Sound source declared state)
    (known : result.WordFrom source) :
    Accounts source declared (regsubResult result) (regsubResult result) state
      fun value _ => value.WordFrom source := by
  unfold regsubResult
  split
  · rename_i token name reserved
    refine declaredTarget_accounts sound known.line (known.word name ?_)
    simp [Expression.wordText?]
  · exact .pure sound known

/-- Without four arguments the flags become words, on the line of the command. -/
theorem regsubCommand_accounts (lawful : Lawful source declared grammar other)
    (sound : Sound source declared state) :
    Accounts source declared (regsubCommand grammar) (regsubCommand other) state
      fun value _ => value.WordFrom source := by
  have line := sound.line
  have literal := sound.literal
  unfold regsubCommand
  simp only [Accounts.current_bind]
  refine (lawful .regsubFlags _ sound trivial).bind fun flags _ sound quotes => ?_
  refine (lawful (.regsubArguments true) _ sound trivial).bind fun given _ sound known => ?_
  split
  · rename_i pattern input replacement result
    have pattern := known pattern (by simp)
    have input := known input (by simp)
    have replacement := known replacement (by simp)
    refine (regsubResult_accounts sound (known result (by simp))).bind
      fun value _ sound result => .pure sound (.of_node ?_ ?_ rfl)
    · simpa [Expression.tokens] using
        ⟨line, pattern.lines, input.lines, replacement.lines, result.lines⟩
    · simpa [Expression.texts] using ⟨keepsLines_of_quotes quotes, pattern.texts, input.texts,
        replacement.texts, result.texts⟩
  · refine (Accounts.report sound line (.silent rfl) (by simp)).bind
      fun _ _ sound _ => .pure sound ?_
    have words : AllWords source (flags.map (fun flag =>
        bareWord ⟨.word, flag, state.current.line, .nowhere, .none⟩ flag) ++ given) := by
      refine List.forall_mem_append.2 ⟨fun value mem => ?_, known⟩
      obtain ⟨flag, inside, rfl⟩ := List.mem_map.1 mem
      exact bareWord_wordFrom line (quotes flag inside)
    have name := bareWord_wordFrom line literal
    refine .of_node ?_ ?_ rfl
    · simpa only [Expression.tokens, onLines_cons, onLines_append] using
        ⟨line, name.lines, words.drawn.onLines⟩
    · simpa only [Expression.texts, keepsLines_append] using ⟨name.texts, words.drawn.keepsLines⟩

/-! ## Targets, `set` and plain commands -/

/-- A target of a request is drawn from the rule with its arguments. -/
theorem targetCommand_accounts {kind : TargetKind} (lawful : Lawful source declared grammar other)
    (sound : Sound source declared state) :
    Accounts source declared (targetCommand grammar kind) (targetCommand other kind) state
      fun value _ => value.WordFrom source := by
  have line := sound.line
  unfold targetCommand
  simp only [Accounts.current_bind]
  refine (lawful .arguments _ sound trivial).bind fun given _ sound known => ?_
  have target : (Expression.target state.current kind given).WordFrom source := by
    refine .of_node ?_ ?_ rfl
    · simpa [Expression.tokens] using ⟨line, known.drawn.onLines⟩
    · simpa [Expression.texts] using known.drawn.keepsLines
  refine .check sound (fun _ => .reportHere sound ?_ (by simp)) fun _ sound => ?_
  · have selected : '
' ∉ kind.keyword.toList := by cases kind <;> decide
    exact .one rfl (quotes_of_oneLine selected)
  cases kind with
  | pool =>
    exact (declareExclusive_accounts (by simp [singleExclusives]) sound line).bind
      fun _ _ sound _ => .pure sound target
  | node =>
    exact (declareExclusive_accounts (by simp [singleExclusives]) sound line).bind
      fun _ _ sound _ => .pure sound target

/-- A `set` between brackets is drawn from the rule with its target and its value. -/
theorem setCommand_accounts (lawful : Lawful source declared grammar other)
    (sound : Sound source declared state) :
    Accounts source declared (setCommand grammar) (setCommand other) state
      fun result _ => ∀ value ∈ result, value.WordFrom source := by
  have line := sound.line
  have literal := sound.literal
  unfold setCommand
  simp only [Accounts.current_bind]
  refine (setParts_accounts lawful sound).keep rfl rfl fun parts _ sound known => ?_
  obtain ⟨name, value⟩ := parts
  refine .pure sound ?_
  rintro _ ⟨⟩
  have word := bareWord_wordFrom line literal
  have words : AllWords source [name, value] := by simpa [AllWords] using known
  refine .of_node ?_ ?_ rfl
  · simpa only [Expression.tokens, onLines_cons, onLines_append] using
      ⟨line, word.lines, words.drawn.onLines⟩
  · simpa only [Expression.texts, keepsLines_append] using ⟨word.texts, words.drawn.keepsLines⟩

/-- Only a string takes more than one line, and a string is no word. -/
theorem standaloneWord_accounts (sound : Sound source declared state) {token : Token}
    (real : HasLine source token.line) (quotes : Quotes source token.literal) :
    Accounts source declared (standaloneWord token) (standaloneWord token) state
      fun value _ => value.WordFrom source := by
  unfold standaloneWord
  simp only [Accounts.get_bind]
  refine .ite (fun _ => .pure sound ?_) fun _ => ?_
  · exact Expression.wordFrom_leaf real quotes rfl (by simp [Expression.texts])
      (by simp [Expression.wordText?])
  · refine (Accounts.report sound real ?_ (by simp)).bind fun _ _ sound _ =>
      .pure sound (invalid_wordFrom real quotes)
    exact .one rfl quotes

/-- Variables that a command declares for its arguments are no reports. -/
theorem plainCommand_accounts (lawful : Lawful source declared grammar other)
    (sound : Sound source declared state) :
    Accounts source declared (plainCommand grammar) (plainCommand other) state
      fun value _ => value.WordFrom source := by
  have line := sound.line
  unfold plainCommand
  simp only [Accounts.current_bind]
  refine (standaloneWord_accounts sound line sound.literal).bind fun name _ sound known => ?_
  refine (lawful .arguments _ sound trivial).bind fun given middle sound words => ?_
  refine .run_bind rfl (.pure (sound.step (.declare middle _) rfl) (.of_node ?_ ?_ rfl))
  · simpa [Expression.tokens] using ⟨line, known.lines, words.drawn.onLines⟩
  · simpa [Expression.texts] using ⟨known.texts, words.drawn.keepsLines⟩

/-- Whichever command is read is drawn from the rule. -/
theorem command_accounts (lawful : Lawful source declared grammar other)
    (sound : Sound source declared state) :
    Accounts source declared (command grammar) (command other) state
      fun result _ => ∀ value ∈ result, value.WordFrom source := by
  have kept {first second : Parse Expression}
      (accounts : Accounts source declared first second state
        fun value _ => value.WordFrom source) :
      Accounts source declared (first >>= fun value => pure (some value))
        (second >>= fun value => pure (some value)) state
        fun result _ => ∀ value ∈ result, value.WordFrom source :=
    accounts.bind fun _ _ sound known => .pure sound (by simpa using known)
  unfold command
  simp only [Accounts.current_bind]
  split
  · exact kept (namespacedCommand_accounts lawful sound)
  · split
    case h_1 => exact handler_accounts lawful sound
    case h_2 => exact stringCommand_accounts lawful sound
    case h_3 => exact classCommand_accounts lawful sound
    case h_4 => exact kept (regsubCommand_accounts lawful sound)
    case h_5 => exact kept (targetCommand_accounts lawful sound)
    case h_6 => exact kept (targetCommand_accounts lawful sound)
    case h_7 => exact setCommand_accounts lawful sound
    case h_8 => exact kept (plainCommand_accounts lawful sound)

end IRule.Parser
