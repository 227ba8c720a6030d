import IRule.Proofs.Parser.Command
import IRule.Proofs.Parser.Declaring.Word

/-!
# Blocks and commands

A block ends a scope, which the declared variables outlive. The target of a `set` is
declared behind its value, that of a `regsub` at its end; either is declared when
the command has been read. Only the word `set` makes a command that assigns.
-/

namespace IRule.Parser

variable {grammar : Grammar} {state : State}

/-! ## Blocks and handlers -/

/-- What the statements of a block assign is declared at its end. -/
theorem blockBody_grows {line : Nat} (declares : grammar.Declares) :
    Grows (blockBody grammar line) state fun statements last =>
      targetsIn (statementNodes statements) ⊆ last.declared := by
  unfold blockBody
  simp only [Grows.current_bind]
  split
  case h_1 => exact .pure (by simp)
  case h_2 => exact .record_bind rfl (spares_problem (by simp)) (.pure (by simp))
  case h_3 =>
    refine (declares .statement _).bind fun statement middle _ known => .advance_bind ?_
    refine (declares (.blockBody line) _).bind fun later _ onward rest => .pure ?_
    exact ((Growth.advance middle).trans onward).collectStatement known rest

/-- The declared variables outlive the scope of a block. -/
theorem block_grows (declares : grammar.Declares) :
    Grows (block grammar) state fun body last => targetsIn body.nodes ⊆ last.declared := by
  unfold block
  simp only [Grows.current_bind]
  refine .inScope (fun (body : Block) names => targetsIn body.nodes ⊆ names) ?_
  refine .within (fun statements names => targetsIn (Block.mk _ statements).nodes ⊆ names) ?_
  exact .advance_bind (declares (.blockBody _) _)

/-- A block that is missing assigns nothing. -/
theorem expectBlock_grows {head : BlockHead} (declares : grammar.Declares) :
    Grows (expectBlock grammar head) state fun result last =>
      ∀ body ∈ result, targetsIn body.nodes ⊆ last.declared := by
  unfold expectBlock
  simp only [Grows.isAhead_bind]
  refine .ite (fun _ => .advance_bind ?_) fun _ => .giveUp rfl (spares_problem (by simp))
  exact (block_grows declares).bind fun _ _ _ known => .pure (by simpa using known)

/-- The name of an event is no assignment, known or not. -/
theorem eventName_grows : Grows eventName state fun event _ => targetsIn event.nodes = [] := by
  unfold eventName
  simp only [Grows.current_bind]
  refine .ite (fun _ => .pure (by simp [bareWord])) fun _ => ?_
  exact .record_bind rfl (spares_problem (by simp)) (.pure (by simp))

theorem handlerPriority_grows : Grows handlerPriority state fun _ _ => True := by
  unfold handlerPriority
  simp only [Grows.get_bind]
  refine .ite (fun _ => .pure trivial) fun _ => .advance_bind ?_
  simp only [Grows.isAhead_bind]
  refine .ite (fun _ => .advance_bind ?_)
    fun _ => .record_bind rfl (spares_problem (by simp)) (.pure trivial)
  simp only [Grows.current_bind]
  exact .pure trivial

/-- A handler assigns what its block does. -/
theorem handler_grows (declares : grammar.Declares) :
    Grows (handler grammar) state fun result last =>
      ∀ value ∈ result, targetsIn value.nodes ⊆ last.declared ∧ value.isSetWord = false := by
  unfold handler
  simp only [Grows.current_bind, Grows.endsCommand_bind, Grows.isAhead_bind]
  refine .ite (fun _ => .giveUp rfl (spares_problem (by simp))) fun _ => .advance_bind ?_
  refine eventName_grows.bind fun event _ _ none => handlerPriority_grows.bind fun _ _ _ _ => ?_
  refine (expectBlock_grows declares).keep rfl fun body _ _ known => .pure ?_
  rintro _ ⟨⟩
  exact ⟨by simpa [none] using known, rfl⟩

/-! ## Assignments -/

/-- A literal name stands for no more than the variable to be declared for it. -/
theorem variableTarget_grows {token : Token} {text : String} :
    Grows (variableTarget token text) state fun result _ =>
      targetsIn result.1.nodes = [] ∧ result.1.nameTarget ⊆ result.2.toList ∧
        ∀ first elements, result.1 ≠ .list first elements := by
  unfold variableTarget
  refine .ite (fun _ => .pure ?_) fun _ => .record_bind rfl (spares_problem (by simp)) (.pure ?_)
  · exact ⟨by simp [bareWord],
      by simp [bareWord, Expression.nameTarget, declaredName], by simp [bareWord]⟩
  · exact ⟨by simp, by simp [Expression.nameTarget], by simp⟩

/-- A literal name is declared on the spot. -/
theorem declaredTarget_grows {token : Token} {text : String} :
    Grows (declaredTarget token text) state fun target last =>
      targetsIn target.nodes = [] ∧ target.nameTarget ⊆ last.declared ∧
        ∀ first elements, target ≠ .list first elements := by
  unfold declaredTarget
  refine variableTarget_grows.bind fun named _ _ known => ?_
  obtain ⟨target, name⟩ := named
  refine (Grows.declare name).bind fun _ _ _ declared => .pure ?_
  exact ⟨known.1, List.Subset.trans known.2.1 declared, known.2.2⟩

/-- A target that is read as a word is no literal name. -/
theorem StartsAt.literalTarget_eq_nil {token : Token} {value : Expression}
    (starts : StartsAt token value) (kind : token.kind = .reference ∨ token.kind = .string) :
    value.literalTarget = [] := by
  unfold Expression.literalTarget
  split
  · rw [starts.name _ _ _ rfl]
    rw [if_pos kind.symm]
  · rfl

/-- The target of a `set` is not declared yet, but known to be what is declared later. -/
theorem setTarget_grows (declares : grammar.Declares) :
    Grows (setTarget grammar) state fun result last =>
      ∀ target ∈ result, targetsIn target.1.nodes ⊆ last.declared ∧
        target.1.literalTarget ⊆ target.2.toList := by
  have read (kind : state.current.kind = .reference ∨ state.current.kind = .string) :
      Grows (grammar.word .word >>= fun name => pure (name.map fun name => (name, none))) state
        fun (result : Option (Expression × Option String)) last =>
          ∀ target ∈ result, targetsIn target.1.nodes ⊆ last.declared ∧
            target.1.literalTarget ⊆ target.2.toList :=
    .mapped (declares (.word .word) state) fun name last _ known =>
      ⟨known.1, by simp [known.2.literalTarget_eq_nil kind]⟩
  unfold setTarget
  simp only [Grows.current_bind]
  split
  case h_1 =>
    refine (bracketed_grows declares state.current).bind fun inner _ _ known => .pure ?_
    rintro _ ⟨⟩
    exact ⟨by simpa using known.1, by simp [Expression.literalTarget]⟩
  case h_2 reference => exact read (.inl reference)
  case h_3 string => exact read (.inr string)
  case h_4 =>
    refine (rawWordText_grows declares).bind fun text _ _ _ => ?_
    refine variableTarget_grows.bind fun target _ _ known => .pure ?_
    rintro _ ⟨⟩
    exact ⟨by simp [known.1], List.Subset.trans (Expression.literalTarget_subset _) known.2.1⟩

/-- The target of a `set` is declared when the command has been read. -/
theorem setParts_grows (declares : grammar.Declares) :
    Grows (setParts grammar) state fun result last =>
      ∀ parts ∈ result, parts.1.literalTarget ⊆ last.declared ∧
        targetsIn parts.1.nodes ⊆ last.declared ∧ targetsIn parts.2.nodes ⊆ last.declared := by
  unfold setParts
  simp only [Grows.endsCommand_bind]
  refine .ite (fun _ => .giveUp rfl (spares_problem (by simp))) fun _ => .advance_bind ?_
  refine (setTarget_grows declares).keep rfl fun written targeted _ target => ?_
  obtain ⟨name, declared⟩ := written
  simp only [Grows.endsCommand_bind]
  refine .ite (fun _ => .giveUp rfl (spares_problem (by simp))) fun _ => .advance_bind ?_
  refine (declares.word .word).keep rfl fun value middle toValue known => ?_
  have finish (last : State) (growth : Growth middle last) :
      Grows (declare declared >>= fun _ => pure (some (name, value))) last fun result last =>
        ∀ parts ∈ result, parts.1.literalTarget ⊆ last.declared ∧
          targetsIn parts.1.nodes ⊆ last.declared ∧ targetsIn parts.2.nodes ⊆ last.declared := by
    refine (Grows.declare declared).bind fun _ _ onward there => .pure ?_
    rintro _ ⟨⟩
    have growth := growth.trans onward
    exact ⟨List.Subset.trans target.2 there,
      (((Growth.advance targeted).trans toValue).trans growth).keeps target.1, growth.keeps known⟩
  simp only [Grows.endsCommand_bind]
  refine .ite (fun _ => finish middle (.refl middle)) fun _ => ?_
  refine .bind (.record rfl (spares_problem (by simp))) fun _ _ reported _ => ?_
  refine (declares (.skipCommand 0) _).bind fun _ _ onward _ => ?_
  exact finish _ (reported.trans onward)

/-! ## Arguments -/

/-- What the arguments of a command assign is declared behind them. -/
theorem arguments_grows (declares : grammar.Declares) :
    Grows (arguments grammar) state fun given last =>
      targetsIn (nodesOf given) ⊆ last.declared := by
  unfold arguments
  simp only [Grows.endsCommand_bind]
  refine .ite (fun _ => .pure (by simp)) fun _ => .advance_bind ?_
  refine (declares.word .word).bind fun argument _ _ known => ?_
  exact (declares .arguments _).bind fun later _ onward rest => .pure (onward.collect known rest)

/-- Commands that exclude each other are no variables. -/
theorem declareExclusive_grows {set : Exclusives} {line : Nat} :
    Grows (declareExclusive set line) state fun _ _ => True := by
  unfold declareExclusive
  simp only [Grows.get_bind]
  cases state.scopes.declare set with
  | ok scopes => exact .run rfl (.of_quiet (List.Subset.refl _) rfl) trivial
  | error conflict => exact .record rfl (spares_problem (by simp))

/-! ## Commands of known shape -/

theorem checkHeader_grows {given : List Expression} {line : Nat} :
    Grows (checkHeader given line) state fun _ _ => True := by
  unfold checkHeader
  split
  · exact .ite (fun _ => .pure trivial) fun _ => .record rfl (spares_problem (by simp))
  · exact .pure trivial

/-- A command of a family assigns what its arguments do. -/
theorem namespacedCommand_grows {family : Family} (declares : grammar.Declares) :
    Grows (namespacedCommand grammar family) state fun value last =>
      targetsIn value.nodes ⊆ last.declared ∧ value.isSetWord = false := by
  unfold namespacedCommand
  simp only [Grows.current_bind]
  refine (declares .arguments _).bind fun given middle _ known => ?_
  have command (last : State) (growth : Growth middle last) :
      Grows (pure (Expression.namespaced state.current family state.current.literal given)) last
        fun value last => targetsIn value.nodes ⊆ last.declared ∧ value.isSetWord = false :=
    .pure ⟨by simpa using growth.keeps known, rfl⟩
  refine .ite (fun _ => ?_) fun _ => .ite (fun _ => ?_) fun _ => .ite (fun _ => ?_) fun _ => ?_
  · exact checkHeader_grows.bind fun _ last growth _ => command last growth
  · exact declareExclusive_grows.bind fun _ last growth _ => command last growth
  · exact declareExclusive_grows.bind fun _ last growth _ => command last growth
  · exact command middle (.refl middle)

theorem checkArity_grows {operation : String} {given line : Nat} :
    Grows (checkArity operation given line) state fun _ _ => True := by
  unfold checkArity
  split
  · exact .ite (fun _ => .record rfl (spares_problem (by simp))) fun _ => .pure trivial
  · exact .pure trivial

/-- Taking a list as pairs leaves its assignments. -/
theorem stringCommand_grows (declares : grammar.Declares) :
    Grows (stringCommand grammar) state fun result last =>
      ∀ value ∈ result, targetsIn value.nodes ⊆ last.declared ∧ value.isSetWord = false := by
  unfold stringCommand
  simp only [Grows.current_bind, Grows.endsCommand_bind]
  refine .ite (fun _ => .giveUp rfl (spares_problem (by simp))) fun _ => .advance_bind ?_
  simp only [Grows.current_bind]
  refine .check (fun _ => .record rfl (spares_problem (by simp))) fun _ _ => ?_
  refine (declares .arguments _).bind fun given _ _ known => ?_
  refine checkArity_grows.bind fun _ _ growth _ => .pure ?_
  rintro _ ⟨⟩
  have given : targetsIn (nodesOf given) ⊆ _ := growth.keeps known
  refine ⟨?_, rfl⟩
  simp only [Expression.nodes, targetsIn_cons, Node.targets, List.nil_append]
  split
  · exact List.Subset.trans (rearranges_pairFirstList _).targetsIn_subset given
  · exact given

/-- Options are cut out of the text. -/
theorem classOptions_grows (declares : grammar.Declares) :
    Grows (classOptions grammar) state fun _ _ => True := by
  unfold classOptions
  simp only [Grows.get_bind]
  refine .ite (fun _ => .advance_bind ?_) fun _ => .pure trivial
  refine (rawWordText_grows declares).bind fun option _ _ _ => ?_
  refine .checkUnless (fun _ => .record rfl (spares_problem (by simp))) fun _ _ => ?_
  refine .ite (fun _ => .pure trivial) fun _ => ?_
  exact (declares .classOptions _).bind fun _ _ _ _ => .pure trivial

theorem checkClassArguments_grows {subcommand : String} {given : List Expression} {line : Nat} :
    Grows (checkClassArguments subcommand given line) state fun _ _ => True := by
  unfold checkClassArguments
  refine .ite (fun _ => ?_) fun _ => .pure trivial
  split
  · split
    · exact .ite (fun _ => .pure trivial) fun _ => .record rfl (spares_problem (by simp))
    · exact .pure trivial
  · exact .record rfl (spares_problem (by simp))

/-- A `class` command assigns what its arguments do. -/
theorem classCommand_grows (declares : grammar.Declares) :
    Grows (classCommand grammar) state fun result last =>
      ∀ value ∈ result, targetsIn value.nodes ⊆ last.declared ∧ value.isSetWord = false := by
  unfold classCommand
  simp only [Grows.current_bind, Grows.endsCommand_bind]
  refine .ite (fun _ => .giveUp rfl (spares_problem (by simp))) fun _ => .advance_bind ?_
  simp only [Grows.current_bind]
  refine .checkUnless (fun _ => .record rfl (spares_problem (by simp))) fun _ _ => ?_
  refine (declares .classOptions _).bind fun options _ _ _ => ?_
  refine (declares .arguments _).bind fun given _ _ known => ?_
  refine checkClassArguments_grows.bind fun _ _ growth _ => .pure ?_
  rintro _ ⟨⟩
  exact ⟨by simpa using growth.keeps known, rfl⟩

/-! ## `regsub` -/

/-- Flags are cut out of the text. -/
theorem regsubFlags_grows (declares : grammar.Declares) :
    Grows (regsubFlags grammar) state fun _ _ => True := by
  unfold regsubFlags
  simp only [Grows.get_bind]
  refine .ite (fun _ => .advance_bind ?_) fun _ => .pure trivial
  refine (rawWordText_grows declares).bind fun flag _ _ _ => ?_
  refine .ite (fun _ => .pure trivial)
    fun _ => .checkUnless (fun _ => .record rfl (spares_problem (by simp))) fun _ _ => ?_
  exact (declares .regsubFlags _).bind fun _ _ _ _ => .pure trivial

/-- A pattern in braces is not read, and assigns nothing. -/
theorem regsubArgument_grows {first : Bool} (declares : grammar.Declares) :
    Grows (regsubArgument grammar first) state fun result last =>
      ∀ value ∈ result, targetsIn value.nodes ⊆ last.declared := by
  unfold regsubArgument
  simp only [Grows.current_bind]
  refine .ite (fun _ => ?_) fun _ => declares.word .word
  refine (captureBrace_grows declares).bind fun body _ _ _ => .pure ?_
  cases body <;> simp

/-- What the arguments of a `regsub` assign is declared behind them. -/
theorem regsubArguments_grows {first : Bool} (declares : grammar.Declares) :
    Grows (regsubArguments grammar first) state fun given last =>
      targetsIn (nodesOf given) ⊆ last.declared := by
  unfold regsubArguments
  simp only [Grows.endsCommand_bind]
  refine .ite (fun _ => .pure (by simp)) fun _ => .advance_bind ?_
  refine (regsubArgument_grows declares).bind fun argument _ _ known => ?_
  refine (declares (.regsubArguments _) _).bind fun later _ onward rest => .pure ?_
  exact onward.collect known rest

/-- The result variable of a `regsub` is declared at its end. -/
theorem regsubResult_grows {result : Expression} :
    Grows (regsubResult result) state fun target last =>
      target.literalTarget ⊆ last.declared ∧ targetsIn target.nodes ⊆ targetsIn result.nodes := by
  unfold regsubResult
  split
  · refine declaredTarget_grows.mono fun target last _ known => ?_
    exact ⟨List.Subset.trans target.literalTarget_subset known.2.1, by simp [known.1]⟩
  · rename_i other
    refine .pure ⟨?_, List.Subset.refl _⟩
    unfold Expression.literalTarget
    split
    · exact absurd rfl (other _ _ _)
    · simp

/-- With other than four arguments a `regsub` is a plain command, and assigns no result.
-/
theorem regsubCommand_grows (declares : grammar.Declares) :
    Grows (regsubCommand grammar) state fun value last =>
      state.current.kind ≠ .reserved .set →
        targetsIn value.nodes ⊆ last.declared ∧ value.isSetWord = false := by
  unfold regsubCommand
  simp only [Grows.current_bind]
  refine (declares .regsubFlags _).bind fun flags _ _ _ => ?_
  refine (declares (.regsubArguments true) _).bind fun given middle _ known => ?_
  have known : targetsIn (nodesOf given) ⊆ middle.declared := known
  split
  · simp only [nodesOf, targetsIn_append, List.append_subset] at known
    refine regsubResult_grows.bind fun target last growth declared => .pure fun _ => ⟨?_, rfl⟩
    simp only [Expression.nodes, targetsIn_cons, targetsIn_append, Node.targets, List.append_subset]
    exact ⟨declared.1, growth.keeps known.1, growth.keeps known.2.1, growth.keeps known.2.2.1,
      List.Subset.trans declared.2 (growth.keeps known.2.2.2.1)⟩
  · refine .bind (.record rfl (spares_problem (by simp))) fun _ _ growth _ =>
      .pure fun kind => ⟨?_, rfl⟩
    have plain : (bareWord state.current state.current.literal).isSetWord = false := by
      simpa [bareWord, Expression.isSetWord] using kind
    have words : targetsIn (nodesOf (flags.map fun flag =>
        bareWord ⟨.word, flag, state.current.line, .nowhere, .none⟩ flag)) = [] := by
      rw [nodesOf_eq_flatMap, List.flatMap_map, targetsIn, List.flatMap_assoc]
      simp [bareWord]
    simp only [Expression.nodes, nodesOf_append, targetsIn_cons, targetsIn_append, Node.targets,
      commandTargets_eq_nil plain, words, List.nil_append]
    simpa [bareWord] using growth.keeps known

/-! ## Targets, `set` and plain commands -/

/-- `pool` and `node` assign what their arguments do. -/
theorem targetCommand_grows {kind : TargetKind} (declares : grammar.Declares) :
    Grows (targetCommand grammar kind) state fun value last =>
      targetsIn value.nodes ⊆ last.declared ∧ value.isSetWord = false := by
  unfold targetCommand
  simp only [Grows.current_bind]
  refine (declares .arguments _).bind fun given _ _ known => ?_
  refine .check (fun _ => .record rfl (spares_problem (by simp))) fun _ checked => ?_
  cases kind with
  | pool | node =>
    refine declareExclusive_grows.bind fun _ _ growth _ => .pure ⟨?_, rfl⟩
    simpa using (checked.trans growth).keeps known

/-- A `set` between brackets is a command with the word `set` as its name. -/
theorem setCommand_grows (declares : grammar.Declares) :
    Grows (setCommand grammar) state fun result last =>
      ∀ value ∈ result, targetsIn value.nodes ⊆ last.declared ∧ value.isSetWord = false := by
  unfold setCommand
  simp only [Grows.current_bind]
  refine (setParts_grows declares).keep rfl fun parts last _ known => ?_
  obtain ⟨name, value⟩ := parts
  refine .pure ?_
  rintro _ ⟨⟩
  refine ⟨?_, rfl⟩
  have assigned : commandTargets (bareWord state.current state.current.literal) [name, value] ⊆
      last.declared := by
    simp only [commandTargets]
    split
    · exact known.1
    · simp
  simpa [bareWord] using ⟨assigned, known.2⟩

/-- Only the token `set` makes the word `set`. -/
theorem standaloneWord_grows {token : Token} :
    Grows (standaloneWord token) state fun value _ =>
      targetsIn value.nodes = [] ∧ (token.kind ≠ .reserved .set → value.isSetWord = false) := by
  unfold standaloneWord
  simp only [Grows.get_bind]
  refine .ite (fun _ => .pure ?_) fun _ => .record_bind rfl (spares_problem (by simp)) (.pure ?_)
  · exact ⟨by simp, by simp [Expression.isSetWord]⟩
  · exact ⟨by simp, fun _ => rfl⟩

/-- A command declares variables for its arguments, and assigns what these do. -/
theorem plainCommand_grows (declares : grammar.Declares) :
    Grows (plainCommand grammar) state fun value last =>
      state.current.kind ≠ .reserved .set →
        targetsIn value.nodes ⊆ last.declared ∧ value.isSetWord = false := by
  unfold plainCommand
  simp only [Grows.current_bind]
  refine standaloneWord_grows.bind fun name _ _ none => ?_
  refine (declares .arguments _).bind fun given middle _ known => ?_
  refine .run_bind rfl (.of_quiet (fun _ inside => Naming.mem_addAll _ inside) rfl)
    (.pure fun kind => ⟨?_, rfl⟩)
  have given : targetsIn (nodesOf given) ⊆ middle.declared := known
  simp only [Expression.nodes, targetsIn_cons, targetsIn_append, Node.targets,
    commandTargets_eq_nil (none.2 kind), none.1, List.nil_append]
  exact fun _ inside => Naming.mem_addAll _ (given inside)

/-- No command is itself the word `set`. -/
theorem command_grows (declares : grammar.Declares) :
    Grows (command grammar) state fun result last =>
      ∀ value ∈ result, targetsIn value.nodes ⊆ last.declared ∧ value.isSetWord = false := by
  have one {action : Parse Expression}
      (grows : Grows action state fun value last =>
        targetsIn value.nodes ⊆ last.declared ∧ value.isSetWord = false) :
      Grows (action >>= fun value => pure (some value)) state fun result last =>
        ∀ value ∈ result, targetsIn value.nodes ⊆ last.declared ∧ value.isSetWord = false :=
    grows.bind fun _ _ _ known => .pure (by simpa using known)
  unfold command
  simp only [Grows.current_bind]
  split
  · exact one (namespacedCommand_grows declares)
  · split
    case h_1 => exact handler_grows declares
    case h_2 => exact stringCommand_grows declares
    case h_3 => exact classCommand_grows declares
    case h_4 kind => exact one ((regsubCommand_grows declares).mono (by simp [kind]))
    case h_5 => exact one (targetCommand_grows declares)
    case h_6 => exact one (targetCommand_grows declares)
    case h_7 => exact setCommand_grows declares
    case h_8 notSet =>
      exact one ((plainCommand_grows declares).mono fun _ _ _ known => known notSet)

end IRule.Parser
