import IRule.Proofs.Parser.Vouching.Word

/-!
# Calls and flags in blocks and commands

`regsub` is the one command with flags, and it keeps those that are reported too. A
command has the calls and flags of its words, and a block those of its statements. No
command is an operation, and each starts at its first token.
-/

namespace IRule.Parser

variable {transcript : Transcript} {grammar : Grammar} {state : State}

/-! ## Blocks and handlers -/

/-- The statements of a block are covered one after the other. -/
theorem blockBody_vouches {line : Nat} (vouching : Vouching transcript grammar) :
    Vouches transcript (blockBody grammar line) state
      fun statements _ => AllVouched transcript (statementNodes statements) := by
  unfold blockBody
  simp only [Vouches.current_bind]
  split
  case h_1 => exact .pure (by simp)
  case h_2 => exact .after .reported fun _ _ => .pure (by simp)
  case h_3 =>
    refine (vouching.vouches .statement _).bind fun statement _ => ?_
    simp only [Vouches.advance_bind]
    exact (vouching.vouches (.blockBody line) _).bind
      fun later _ => .pure fun rest first => rest.collectStatement first

/-- A block holds what its statements do. -/
theorem block_vouches (vouching : Vouching transcript grammar) :
    Vouches transcript (block grammar) state fun body _ => AllVouched transcript body.nodes := by
  unfold block
  simp only [Vouches.current_bind]
  refine .inScope (.within ?_)
  simp only [Vouches.advance_bind]
  exact (vouching.vouches (.blockBody _) _).mono fun statements _ known => by simpa using known

/-- A block that is missing is reported. -/
theorem expectBlock_vouches {head : BlockHead} (vouching : Vouching transcript grammar) :
    Vouches transcript (expectBlock grammar head) state
      fun result _ => ∀ body ∈ result, AllVouched transcript body.nodes := by
  unfold expectBlock
  simp only [Vouches.isAhead_bind]
  refine .ite (fun _ => ?_) fun _ => .giveUp .reportedAhead
  simp only [Vouches.advance_bind]
  exact .kept (block_vouches vouching)

theorem eventName_vouches :
    Vouches transcript eventName state fun event _ => AllVouched transcript event.nodes := by
  unfold eventName
  simp only [Vouches.current_bind]
  exact .ite (fun _ => .pure (wordVouched_bareWord _ _).nodes)
    fun _ => .after .reportedHere fun _ _ => .pure (by simp)

/-- A handler starts at its first word and holds what its block does. -/
theorem handler_vouches (vouching : Vouching transcript grammar) :
    Vouches transcript (handler grammar) state
      fun result _ => ∀ value ∈ result, WordVouched transcript state.current value := by
  unfold handler
  simp only [Vouches.current_bind, Vouches.endsCommand_bind, Vouches.isAhead_bind]
  refine .ite (fun _ => .giveUp .reportedAhead) fun _ => ?_
  simp only [Vouches.advance_bind]
  refine eventName_vouches.bind fun event _ => ?_
  refine .after handlerPriority_grows.vouches fun _ _ => ?_
  refine (expectBlock_vouches vouching).bind fun body _ => ?_
  cases body with
  | none => exact .pure (by simp)
  | some body =>
    refine .pure fun inner event => ?_
    rintro _ ⟨⟩
    exact ⟨by simpa using ⟨event, inner body rfl⟩, rfl, rfl⟩

/-! ## Assignments -/

theorem variableTarget_vouches {token : Token} {text : String} :
    Vouches transcript (variableTarget token text) state
      fun result _ => AllVouched transcript result.1.nodes := by
  unfold variableTarget
  exact .ite (fun _ => .pure (wordVouched_bareWord _ _).nodes)
    fun _ => .after .reported fun _ _ => .pure (by simp)

theorem declaredTarget_vouches {token : Token} {text : String} :
    Vouches transcript (declaredTarget token text) state
      fun target _ => AllVouched transcript target.nodes := by
  unfold declaredTarget
  refine variableTarget_vouches.bind ?_
  rintro ⟨target, name⟩ _
  exact .after (Grows.declare name).vouches fun _ _ => .pure id

/-- The target of a `set` is a bracket, a word or a name. -/
theorem setTarget_vouches (vouching : Vouching transcript grammar) :
    Vouches transcript (setTarget grammar) state
      fun result _ => ∀ target ∈ result, AllVouched transcript target.1.nodes := by
  have read : Vouches transcript
      (grammar.word .word >>= fun name => pure (name.map fun name => (name, none))) state
      fun (result : Option (Expression × Option String)) _ =>
        ∀ target ∈ result, AllVouched transcript target.1.nodes :=
    .mapped vouching.word fun _ _ known => known
  unfold setTarget
  simp only [Vouches.current_bind]
  split
  case h_1 =>
    exact (bracketed_vouches vouching).bind fun inner _ => .pure fun known => by
      simpa using known.nodes
  case h_2 => exact read
  case h_3 => exact read
  case h_4 =>
    refine .after (rawWordText_grows vouching.declares).vouches fun _ _ => ?_
    exact variableTarget_vouches.bind fun _ _ => .pure (by simp)

/-- Target and value of a `set` are covered, whatever is reported behind them. -/
theorem setParts_vouches (vouching : Vouching transcript grammar) :
    Vouches transcript (setParts grammar) state fun result _ => ∀ parts ∈ result,
      AllVouched transcript parts.1.nodes ∧ AllVouched transcript parts.2.nodes := by
  unfold setParts
  simp only [Vouches.endsCommand_bind]
  refine .ite (fun _ => .giveUp .reportedHere) fun _ => ?_
  simp only [Vouches.advance_bind]
  refine (setTarget_vouches vouching).keep rfl ?_
  rintro ⟨name, toDeclare⟩ _
  simp only [Vouches.endsCommand_bind]
  refine .ite (fun _ => .after .reportedHere fun _ _ => .pure (by simp)) fun _ => ?_
  simp only [Vouches.advance_bind]
  refine vouching.word.bind fun value middle => ?_
  cases value with
  | none => exact .pure (by simp)
  | some value =>
    have finish (last : State) :
        Vouches transcript (declare toDeclare >>= fun _ => pure (some (name, value))) last
          fun result _ => (∀ shown ∈ some value, AllVouched transcript shown.nodes) →
            AllVouched transcript name.nodes → ∀ parts ∈ result,
              AllVouched transcript parts.1.nodes ∧ AllVouched transcript parts.2.nodes :=
      .after (Grows.declare toDeclare).vouches fun _ _ => .pure (by simp; tauto)
    simp only [Vouches.endsCommand_bind]
    refine .ite (fun _ => finish middle) fun _ => .after .reportedAhead fun _ _ => ?_
    exact .after (vouching.vouches (.skipCommand 0) _) fun _ _ => finish _

/-! ## Arguments -/

/-- The arguments of a command are words each. -/
theorem arguments_vouches (vouching : Vouching transcript grammar) :
    Vouches transcript (arguments grammar) state
      fun given _ => AllVouched transcript (nodesOf given) := by
  unfold arguments
  simp only [Vouches.endsCommand_bind]
  refine .ite (fun _ => .pure (by simp)) fun _ => ?_
  simp only [Vouches.advance_bind]
  refine vouching.word.bind fun argument _ => ?_
  exact (vouching.vouches .arguments _).bind
    fun later _ => .pure fun rest first => rest.collect first

/-! ## Commands of known shape -/

/-- A command of a family holds what its arguments do. -/
theorem namespacedCommand_vouches {family : Family} (vouching : Vouching transcript grammar) :
    Vouches transcript (namespacedCommand grammar family) state
      fun value _ => WordVouched transcript state.current value := by
  unfold namespacedCommand
  simp only [Vouches.current_bind]
  refine (vouching.vouches .arguments _).bind fun given middle => ?_
  have command (token : Token) (last : State) :
      Vouches transcript (pure (Expression.namespaced token family token.literal given)) last
        fun value _ => AllVouched transcript (nodesOf given) → WordVouched transcript token value :=
    .pure fun known => ⟨by simpa using known, rfl, rfl⟩
  refine .ite (fun _ => ?_) fun _ => .ite (fun _ => ?_) fun _ => .ite (fun _ => ?_) fun _ => ?_
  · exact .after checkHeader_grows.vouches fun _ last => command _ last
  · exact .after declareExclusive_grows.vouches fun _ last => command _ last
  · exact .after declareExclusive_grows.vouches fun _ last => command _ last
  · exact command _ middle

/-- Taking the first list as pairs makes up neither calls nor flags. -/
theorem stringCommand_vouches (vouching : Vouching transcript grammar) :
    Vouches transcript (stringCommand grammar) state
      fun result _ => ∀ value ∈ result, WordVouched transcript state.current value := by
  unfold stringCommand
  simp only [Vouches.current_bind, Vouches.endsCommand_bind]
  refine .ite (fun _ => .giveUp .reportedHere) fun _ => ?_
  simp only [Vouches.advance_bind, Vouches.current_bind]
  refine .check .reportedHere fun _ => (vouching.vouches .arguments _).bind fun given _ => ?_
  refine .after checkArity_grows.vouches fun _ _ => .pure fun known => ?_
  rintro _ ⟨⟩
  refine ⟨?_, rfl, rfl⟩
  simp only [Expression.nodes, allVouched_cons]
  refine ⟨trivial, ?_⟩
  split
  · exact known.rearranged (rearranges_pairFirstList _)
  · exact known

/-- Options of `class` are no flags in the sense of `regsub`. -/
theorem classCommand_vouches (vouching : Vouching transcript grammar) :
    Vouches transcript (classCommand grammar) state
      fun result _ => ∀ value ∈ result, WordVouched transcript state.current value := by
  unfold classCommand
  simp only [Vouches.current_bind, Vouches.endsCommand_bind]
  refine .ite (fun _ => .giveUp .reportedHere) fun _ => ?_
  simp only [Vouches.advance_bind, Vouches.current_bind]
  refine .checkUnless .reportedHere fun _ => ?_
  refine .after (vouching.vouches .classOptions _) fun options _ => ?_
  refine (vouching.vouches .arguments _).bind fun given _ => ?_
  refine .after checkClassArguments_grows.vouches fun _ _ => .pure fun known => ?_
  rintro _ ⟨⟩
  exact ⟨by simpa using known, rfl, rfl⟩

/-! ## `regsub` -/

/-- A word is kept whether it is reported or not. -/
theorem regsubFlags_vouches (vouching : Vouching transcript grammar)
    (sound : Sound transcript.source transcript.declared state) :
    Vouches transcript (regsubFlags grammar) state
      fun flags _ => FlagWords transcript.reports state flags := by
  unfold regsubFlags
  simp only [Vouches.get_bind]
  refine .ite (fun ahead => ?_) fun plain => .pure (.none plain)
  simp only [Vouches.advance_bind]
  refine .bindRun (rawWordText_grows vouching.declares).vouches fun word middle runs => ?_
  obtain ⟨reads, -⟩ := rawWordText_accounts vouching.lawful sound.advance word middle runs
  have minus : state.lookahead.kind = .minus := by
    simp only [State.optionAhead, Bool.and_eq_true, beq_iff_eq] at ahead
    exact ahead.1
  have dash := head?_rawWordText sound minus reads
  refine .ite (fun ends => .pure fun _ => ?_) fun goesOn => ?_
  · rw [beq_iff_eq.1 ends] at reads
    exact .dashes ahead reads
  refine .ite (fun found => ?_) fun missing => .bindRun .reportedHere fun _ next reports => ?_
  · have listed := (isListedFlag_iff dash).2 found
    exact (vouching.vouches .regsubFlags middle).bind fun later _ => .pure fun words _ =>
      .listed ahead reads listed words
  · cases reports
    have goesOn : word ≠ "--" := fun ends => goesOn (beq_iff_eq.2 ends)
    have unlisted : ¬IsListedFlag word := fun listed => missing ((isListedFlag_iff dash).1 listed)
    exact (vouching.vouches .regsubFlags _).bind fun later _ => .pure fun words reported _ =>
      .reported ahead reads goesOn unlisted reported.1 words

/-- A pattern in braces is not read as code. -/
theorem regsubArgument_vouches {first : Bool} (vouching : Vouching transcript grammar) :
    Vouches transcript (regsubArgument grammar first) state
      fun result _ => ∀ value ∈ result, AllVouched transcript value.nodes := by
  unfold regsubArgument
  simp only [Vouches.current_bind]
  refine .ite (fun _ => ?_) fun _ => vouching.word
  exact .after (captureBrace_grows vouching.declares).vouches fun body _ => .pure (by simp)

/-- The arguments of a `regsub` are covered one after the other. -/
theorem regsubArguments_vouches {first : Bool} (vouching : Vouching transcript grammar) :
    Vouches transcript (regsubArguments grammar first) state
      fun given _ => AllVouched transcript (nodesOf given) := by
  unfold regsubArguments
  simp only [Vouches.endsCommand_bind]
  refine .ite (fun _ => .pure (by simp)) fun _ => ?_
  simp only [Vouches.advance_bind]
  refine (regsubArgument_vouches vouching).bind fun argument _ => ?_
  exact (vouching.vouches (.regsubArguments _) _).bind
    fun later _ => .pure fun rest first => rest.collect first

/-- The result variable is kept or reported. -/
theorem regsubResult_vouches {result : Expression} :
    Vouches transcript (regsubResult result) state fun target _ =>
      AllVouched transcript result.nodes → AllVouched transcript target.nodes := by
  unfold regsubResult
  split
  · exact declaredTarget_vouches.mono fun _ _ known _ => known
  · exact .pure id

/-- A `regsub` stands where the parser was when it found the flags; with other than four
arguments they become words. -/
theorem regsubCommand_vouches (vouching : Vouching transcript grammar)
    (sound : Sound transcript.source transcript.declared state) :
    Vouches transcript (regsubCommand grammar) state
      fun value _ => WordVouched transcript state.current value := by
  unfold regsubCommand
  simp only [Vouches.current_bind]
  refine (vouching.vouches .regsubFlags _).bind fun flags _ => ?_
  refine (vouching.vouches (.regsubArguments true) _).bind fun given _ => ?_
  split
  case h_1 pattern input replacement result =>
    refine regsubResult_vouches.bind fun target _ => .pure fun kept known words => ?_
    have shows : transcript.Shows state.current flags := ⟨state, sound.visited, rfl, words⟩
    simp only [Production.Vouched, nodesOf, allVouched_append] at known
    obtain ⟨pattern, input, replacement, result, -⟩ := known
    exact ⟨by simpa using ⟨shows, pattern, input, replacement, kept result⟩, rfl, rfl⟩
  case h_2 =>
    refine .after .reported fun _ _ => .pure fun known _ => ?_
    have plain : AllVouched transcript (nodesOf (flags.map fun flag =>
        bareWord ⟨.word, flag, state.current.line, .nowhere, .none⟩ flag)) :=
      allVouched_nodesOf.2 (by simp [bareWord])
    exact ⟨by simpa [bareWord] using ⟨plain, known⟩, rfl, rfl⟩

/-! ## Targets, `set` and plain commands -/

/-- `pool` and `node` hold what their arguments do. -/
theorem targetCommand_vouches {kind : TargetKind} (vouching : Vouching transcript grammar) :
    Vouches transcript (targetCommand grammar kind) state
      fun value _ => WordVouched transcript state.current value := by
  unfold targetCommand
  simp only [Vouches.current_bind]
  refine (vouching.vouches .arguments _).bind fun given _ => .check .reportedHere fun _ => ?_
  cases kind <;>
    exact .after declareExclusive_grows.vouches fun _ _ => .pure fun known =>
      ⟨by simpa using known, rfl, rfl⟩

/-- A `set` between brackets holds what its parts do. -/
theorem setCommand_vouches (vouching : Vouching transcript grammar) :
    Vouches transcript (setCommand grammar) state
      fun result _ => ∀ value ∈ result, WordVouched transcript state.current value := by
  unfold setCommand
  simp only [Vouches.current_bind]
  refine (setParts_vouches vouching).keep rfl ?_
  rintro ⟨name, value⟩ _
  refine .pure fun known => ?_
  rintro _ ⟨⟩
  exact ⟨by simpa [bareWord] using known, rfl, rfl⟩

/-- A word that must not stand alone is still that word. -/
theorem standaloneWord_vouches {token : Token} :
    Vouches transcript (standaloneWord token) state
      fun value _ => WordVouched transcript token value := by
  unfold standaloneWord
  simp only [Vouches.get_bind]
  exact .ite (fun _ => .pure ⟨by simp, rfl, rfl⟩)
    fun _ => .after .reported fun _ _ => .pure ⟨by simp, rfl, rfl⟩

/-- A plain command holds what its arguments do. -/
theorem plainCommand_vouches (vouching : Vouching transcript grammar) :
    Vouches transcript (plainCommand grammar) state
      fun value _ => WordVouched transcript state.current value := by
  unfold plainCommand
  simp only [Vouches.current_bind]
  refine standaloneWord_vouches.bind fun name _ => ?_
  refine (vouching.vouches .arguments _).bind fun given _ => ?_
  refine .modify_bind (List.Subset.refl _) (.pure fun known first => ?_)
  exact ⟨by simpa using ⟨first.nodes, known⟩, rfl, rfl⟩

/-- Every command starts at its first token, and none is an operation. -/
theorem command_vouches (vouching : Vouching transcript grammar)
    (sound : Sound transcript.source transcript.declared state) :
    Vouches transcript (command grammar) state
      fun result _ => ∀ value ∈ result, WordVouched transcript state.current value := by
  unfold command
  simp only [Vouches.current_bind]
  split
  · exact .kept (namespacedCommand_vouches vouching)
  · split
    · exact handler_vouches vouching
    · exact stringCommand_vouches vouching
    · exact classCommand_vouches vouching
    · exact .kept (regsubCommand_vouches vouching sound)
    · exact .kept (targetCommand_vouches vouching)
    · exact .kept (targetCommand_vouches vouching)
    · exact setCommand_vouches vouching
    · exact .kept (plainCommand_vouches vouching)

end IRule.Parser
