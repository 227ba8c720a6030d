import IRule.Proofs.Parser.Block

/-!
# Commands

Each command is checked while it is read, so one that was read without a problem
meets the condition on its node. Commands that exclude others are declared in
the scope they are read in.
-/

namespace IRule.Parser

variable {grammar other : Grammar} {state : State}

/-! ## Assignments -/

/-- A target that was not reported is a bare word with a legal name. -/
theorem variableTarget_reads {token : Token} {text : String} :
    Reads (variableTarget token text) (variableTarget token text) state fun result _ =>
      result.1 = bareWord token text ∧ Naming.isVariableName text := by
  unfold variableTarget
  refine .ite (fun legal => .pure ⟨rfl, legal⟩) fun _ => ?_
  exact .report_bind (by simp) fun _ _ => .pure trivial

/-- Declaring the variable of a target leaves the target as it is. -/
theorem declaredTarget_reads {token : Token} {text : String} :
    Reads (declaredTarget token text) (declaredTarget token text) state fun target _ =>
      target = bareWord token text ∧ Naming.isVariableName text := by
  unfold declaredTarget
  refine .bind variableTarget_reads fun named _ _ => ?_
  obtain ⟨target, name⟩ := named
  exact .bind (.declare name) fun _ _ _ => .pure fun _ legal => legal

/-- The target of a `set` is a bracket, a reference, a string or a legal name. -/
theorem setTarget_reads (calls : Calls grammar other 2 state) :
    Reads (setTarget grammar) (setTarget other) state
      fun result _ => ∀ target ∈ result, target.1.Valid := by
  unfold setTarget
  simp only [Reads.current_bind]
  have named (name : Option Expression) (plain : ∀ value ∈ name, value.Plain) :
      ∀ target ∈ name.map fun name => (name, (none : Option String)), target.1.Valid := by
    intro target found
    obtain ⟨name, rfl, rfl⟩ := Option.map_eq_some_iff.1 found
    exact (plain name rfl).valid
  split
  case h_1 =>
    refine .bind (bracketed_reads (calls.lower (by decide))) fun inner _ _ => .pure ?_
    intro plain target found
    cases found
    exact plain.valid
  case h_2 => exact .bind (calls.now (.word .word) (by decide)) fun name _ _ => .pure (named name)
  case h_3 => exact .bind (calls.now (.word .word) (by decide)) fun name _ _ => .pure (named name)
  case h_4 =>
    refine .bind (rawWordText_reads (calls.lower (by decide))) fun text _ _ => ?_
    refine .bind variableTarget_reads fun target _ _ => .pure ?_
    rintro ⟨same, -⟩ - _ found
    cases found
    rw [same]
    trivial

/-- Target and value of a `set` are valid; without one of them there is no `set`. -/
theorem setParts_reads (calls : Calls grammar other 0 state) :
    Reads (setParts grammar) (setParts other) state
      fun result _ => ∀ parts ∈ result, parts.1.Valid ∧ parts.2.Valid := by
  unfold setParts
  simp only [Reads.endsCommand_bind]
  refine .ite (fun _ => .reportHere_bind (by simp) fun _ _ => .pure trivial) fun goesOn => ?_
  have onward := calls.ahead (State.more_of_goesOn goesOn)
  refine .advance_bind (.bindOption (setTarget_reads (onward.lower (by decide)))
    (fun _ _ => .pure fun _ => by simp) fun parts middle passage => ?_)
  obtain ⟨name, declared⟩ := parts
  have onward := onward.after passage
  simp only [Reads.endsCommand_bind]
  refine .ite (fun _ => .reportHere_bind (by simp) fun _ _ => .pure trivial) fun _ => ?_
  refine .advance_bind (.bindOption (onward.onward.call (.word .word))
    (fun _ _ => .pure fun _ _ => by simp) fun value last reading => ?_)
  simp only [Reads.endsCommand_bind]
  have onward := onward.onward.after reading
  refine .ite (fun _ => ?_) fun _ => ?_
  · refine .bind (.declare declared) fun _ _ _ => .pure ?_
    intro _ valueGood nameGood parts found
    cases found
    exact ⟨nameGood _ rfl, (valueGood _ rfl).valid⟩
  · refine .reportAhead_bind (by simp) fun _ reported => ?_
    refine .bind ((onward.after reported).call (.skipCommand 0)) fun _ _ _ => ?_
    exact .bind (.declare declared) fun _ _ _ => .pure fun _ _ => trivial

/-! ## Arguments -/

/-- Arguments are words up to the end of the command. -/
theorem arguments_reads (calls : Calls grammar other 0 state) :
    Reads (arguments grammar) (arguments other) state fun values _ => AllValid values := by
  unfold arguments
  simp only [Reads.endsCommand_bind]
  refine .ite (fun _ => .pure trivial) fun goesOn => .advance_bind ?_
  have onward := calls.ahead (State.more_of_goesOn goesOn)
  refine .bind (onward.call (.word .word)) fun argument middle passage => ?_
  refine .bind ((onward.after passage).call .arguments) fun later _ _ => .pure ?_
  intro rest first
  exact allValid_append.2 ⟨allValid_toList.2 fun value found => (first value found).valid, rest⟩

/-- A command that is not refused is declared in the scope. -/
theorem declareExclusive_reads {set : Exclusives} {line : Nat} (single : set ∈ singleExclusives) :
    Reads (declareExclusive set line) (declareExclusive set line) state
      fun _ last => set.Within last.scopes.current := by
  unfold declareExclusive
  simp only [Reads.get_bind]
  cases allowed : state.scopes.declare set with
  | error conflict => exact .report (by simp)
  | ok scopes =>
    refine ⟨(), _, rfl, rfl, .exclude single allowed, fun _ => ?_⟩
    obtain ⟨-, rfl⟩ := Scopes.declare_ok allowed
    constructor <;> simp +contextual [Exclusives.union]

/-! ## Namespaced commands -/

/-- A header whose name is not legal is reported. -/
theorem checkHeader_reads {values : List Expression} {line : Nat} :
    Reads (checkHeader values line) (checkHeader values line) state fun _ _ =>
      ∀ name, (headerArgument? values).bind Expression.wordText? = some name →
        Naming.isHeaderName name := by
  unfold checkHeader
  cases (headerArgument? values).bind Expression.wordText? with
  | none => exact .pure (by simp)
  | some name => exact .ite (fun legal => .pure (by simpa using legal)) fun _ => .report (by simp)

/-- A command of a family excludes others by its name alone. -/
theorem namespaced_within {token : Token} {family : Family} {command : String}
    {values : List Expression} {scope : Exclusives}
    (redirect : command = "HTTP::redirect" → scope.redirect)
    (respond : command = "HTTP::respond" → scope.respond) :
    (Expression.namespaced token family command values).exclusives.Within scope where
  node := by simp [Expression.exclusives]
  pool := by simp [Expression.exclusives]
  redirect := by simpa [Expression.exclusives] using redirect
  respond := by simpa [Expression.exclusives] using respond

/-- What a command of a family excludes is within the scope, for it was declared there. -/
theorem namespacedCommand_reads {family : Family} (calls : Calls grammar other 1 state) :
    Reads (namespacedCommand grammar family) (namespacedCommand other family) state
      fun value last => value.Valid ∧ value.exclusives.Within last.scopes.current := by
  unfold namespacedCommand
  simp only [Reads.current_bind]
  refine .bind (calls.now .arguments Nat.one_pos) fun given middle _ => ?_
  refine .ite (fun header => ?_) fun header => .ite (fun redirect => ?_) fun redirect =>
    .ite (fun respond => ?_) fun respond => ?_
  · refine .bind checkHeader_reads fun _ _ _ => .pure fun legal valid => ?_
    have name := beq_iff_eq.1 header
    exact ⟨⟨fun _ => legal, valid⟩, namespaced_within (by simp [name]) (by simp [name])⟩
  · refine .bind (declareExclusive_reads (by simp [singleExclusives])) fun _ _ _ =>
      .pure fun declared valid => ?_
    have name := beq_iff_eq.1 redirect
    exact ⟨⟨by simp [Expression.Sound, name], valid⟩,
      namespaced_within (fun _ => declared.redirect rfl) (by simp [name])⟩
  · refine .bind (declareExclusive_reads (by simp [singleExclusives])) fun _ _ _ =>
      .pure fun declared valid => ?_
    have name := beq_iff_eq.1 respond
    exact ⟨⟨by simp [Expression.Sound, name], valid⟩,
      namespaced_within (by simp [name]) fun _ => declared.respond rfl⟩
  · refine .pure fun valid => ?_
    simp only [beq_iff_eq] at header redirect respond
    exact ⟨⟨fun name => absurd name header, valid⟩,
      namespaced_within (fun name => absurd name redirect) fun name => absurd name respond⟩

/-! ## Shaped commands -/

/-- Elements in pairs are the elements. -/
theorem inPairs_valid {values : List Expression} (valid : AllValid values) :
    PairsValid (inPairs values) := by
  fun_induction inPairs values with
  | case1 first second later ih => exact ⟨valid.1, valid.2.1, ih valid.2.2⟩
  | case2 => trivial

/-- Only the first list is taken as pairs, and the other arguments stay. -/
theorem pairFirstList_valid {values : List Expression} (valid : AllValid values) :
    AllValid (pairFirstList values) := by
  fun_induction pairFirstList values with
  | case1 => trivial
  | case2 token elements later _ => exact ⟨inPairs_valid valid.1, valid.2⟩
  | case3 => exact valid
  | case4 value later _ ih => exact ⟨valid.1, ih valid.2⟩

/-- An operation with too few arguments is reported. -/
theorem checkArity_reads {operation : String} {given line : Nat} :
    Reads (checkArity operation given line) (checkArity operation given line) state fun _ _ =>
      ∀ least, Vocabulary.stringArity? operation = some least → least ≤ given := by
  unfold checkArity
  cases Vocabulary.stringArity? operation with
  | none => exact .pure (by simp)
  | some least =>
    exact .ite (fun _ => .report (by simp)) fun enough => .pure (by simpa using enough)

/-- An operation of `string` has as many arguments as the table asks for. -/
theorem stringCommand_reads (calls : Calls grammar other 0 state) :
    Reads (stringCommand grammar) (stringCommand other) state
      fun result _ => ∀ value ∈ result, value.Plain := by
  unfold stringCommand
  simp only [Reads.current_bind, Reads.endsCommand_bind]
  refine .ite (fun _ => .reportHere_bind (by simp) fun _ _ => .pure trivial) fun goesOn => ?_
  have onward := calls.ahead (State.more_of_goesOn goesOn)
  refine .advance_bind ?_
  simp only [Reads.current_bind]
  generalize state.advance.current.literal = operation
  refine .check ((Vocabulary.stringArity? operation).isSome) (fun _ => .reportHere (by simp))
    (by simp [Option.isSome_iff_ne_none]) ?_
  intro middle passage
  refine .bind ((onward.after passage).call .arguments) fun given _ _ => ?_
  refine .bind checkArity_reads fun _ _ _ => .pure ?_
  intro enough valid known value found
  cases found
  obtain ⟨least, arity⟩ := Option.isSome_iff_exists.1 known
  refine ⟨⟨⟨least, arity, enough least arity⟩, ?_⟩, rfl⟩
  split
  · exact pairFirstList_valid valid
  · exact valid

/-- An option that is not in the table is reported. -/
theorem classOptions_reads (calls : Calls grammar other 0 state) :
    Reads (classOptions grammar) (classOptions other) state
      fun options _ => ∀ option ∈ options, option ∈ Vocabulary.classOptions := by
  unfold classOptions
  simp only [Reads.get_bind]
  refine .ite (fun ahead => .advance_bind ?_) fun _ => .pure (by simp)
  have onward := calls.ahead (State.more_of_optionAhead ahead)
  refine .bind (rawWordText_reads (onward.lower (by decide))) fun option middle passage => ?_
  refine .checkUnless (option ∈ Vocabulary.classOptions) rfl rfl (fun _ => .reportHere (by simp))
    (by simp) ?_
  intro checked checking
  refine .ite (fun _ => .pure fun known _ => by simpa using known) fun _ => ?_
  refine .bind (((onward.after passage).after checking).call .classOptions) fun later _ _ =>
    .pure ?_
  intro rest known _
  simpa using ⟨known, rest⟩

/-- A `class` command whose arguments do not fit its subcommand is reported. -/
theorem checkClassArguments_reads {subcommand : String} {values : List Expression} {line : Nat} :
    Reads (checkClassArguments subcommand values line) (checkClassArguments subcommand values line)
      state fun _ _ => ClassArguments subcommand values := by
  unfold checkClassArguments
  refine .ite (fun _ => ?_) fun others => .pure fun searching =>
    absurd searching (by simpa using others)
  split
  case h_2 => exact .report (by simp)
  case h_1 item operator list =>
    cases text : operator.wordText? with
    | none => exact .pure fun _ => ⟨item, operator, list, rfl, by simp [text]⟩
    | some text =>
      refine .ite (fun known => .pure fun _ => ⟨item, operator, list, rfl, ?_⟩)
        fun _ => .report (by simp)
      simpa [text] using known

/-- Options and arguments of a `class` command are those that its node is asked for. -/
theorem classCommand_reads (calls : Calls grammar other 0 state) :
    Reads (classCommand grammar) (classCommand other) state
      fun result _ => ∀ value ∈ result, value.Plain := by
  unfold classCommand
  simp only [Reads.current_bind, Reads.endsCommand_bind]
  refine .ite (fun _ => .reportHere_bind (by simp) fun _ _ => .pure trivial) fun goesOn => ?_
  have onward := calls.ahead (State.more_of_goesOn goesOn)
  refine .advance_bind ?_
  simp only [Reads.current_bind]
  generalize state.advance.current.literal = subcommand
  refine .checkUnless (Vocabulary.isClassSubcommand subcommand) rfl rfl
    (fun _ => .reportHere (by simp)) id ?_
  intro named naming
  have onward := onward.after naming
  refine .bind (onward.call .classOptions) fun options middle passage => ?_
  refine .bind ((onward.after passage).call .arguments) fun given _ _ => ?_
  refine .bind checkClassArguments_reads fun _ _ _ => .pure ?_
  intro fitting valid legal known value found
  cases found
  exact ⟨⟨⟨known, legal, fitting⟩, valid⟩, rfl⟩

/-! ## `regsub` -/

/-- Nothing is owed for flags: those of a valid `regsub` are not looked at. -/
theorem regsubFlags_reads (calls : Calls grammar other 0 state) :
    Reads (regsubFlags grammar) (regsubFlags other) state fun _ _ => True := by
  unfold regsubFlags
  simp only [Reads.get_bind]
  refine .ite (fun ahead => .advance_bind ?_) fun _ => .pure trivial
  have onward := calls.ahead (State.more_of_optionAhead ahead)
  refine .bind (rawWordText_reads (onward.lower (by decide))) fun flag middle passage => ?_
  refine .ite (fun _ => .pure fun _ => trivial) fun _ => ?_
  refine .checkUnless True rfl rfl (fun _ => .reportHere (by simp)) (fun _ => trivial) ?_
  intro checked checking
  refine .bind (((onward.after passage).after checking).call .regsubFlags) fun _ _ _ => ?_
  exact .pure fun _ _ _ => trivial

/-- A pattern in braces is a regular expression, and any other argument is a word. -/
theorem regsubArgument_reads {first : Bool} (calls : Calls grammar other 2 state) :
    Reads (regsubArgument grammar first) (regsubArgument other first) state
      fun result _ => ∀ value ∈ result, value.Valid := by
  unfold regsubArgument
  simp only [Reads.current_bind]
  refine .ite (fun _ => ?_) fun _ => ?_
  · refine captureBrace_bind (calls.lower (by decide)) (fun _ _ => .pure trivial) ?_
    exact fun body _ _ _ => .pure (by simp [Expression.Valid])
  · exact (calls.now (.word .word) (by decide)).mono fun _ _ _ plain value found =>
      (plain value found).valid

/-- The arguments of a `regsub` are valid, the braced pattern among them. -/
theorem regsubArguments_reads {first : Bool} (calls : Calls grammar other 0 state) :
    Reads (regsubArguments grammar first) (regsubArguments other first) state
      fun values _ => AllValid values := by
  unfold regsubArguments
  simp only [Reads.endsCommand_bind]
  refine .ite (fun _ => .pure trivial) fun goesOn => .advance_bind ?_
  have onward := calls.ahead (State.more_of_goesOn goesOn)
  refine .bind (regsubArgument_reads (onward.lower (by decide))) fun argument middle passage => ?_
  refine .bind ((onward.after passage).call (.regsubArguments _)) fun later _ _ => .pure ?_
  intro rest valid
  exact allValid_append.2 ⟨allValid_toList.2 valid, rest⟩

/-- Only a legal name comes out as a plain word. -/
theorem regsubResult_reads {value : Expression} :
    Reads (regsubResult value) (regsubResult value) state fun result _ =>
      (value.Valid → result.Valid) ∧
        ∀ token name reserved, result = .identifier token name false reserved →
          Naming.isVariableName name := by
  unfold regsubResult
  split
  case h_1 token name _ =>
    refine declaredTarget_reads.mono ?_
    rintro _ _ - ⟨rfl, legal⟩
    refine ⟨fun _ => trivial, fun _ _ _ same => ?_⟩
    cases same
    exact legal
  case h_2 named =>
    exact .pure ⟨id, fun token name reserved same => absurd same (named token name reserved)⟩

/-- A `regsub` is sound if its result variable, where it is a name, has a legal one. -/
theorem regsub_sound {token : Token} {flags : List String}
    {pattern input replacement result : Expression}
    (legal : ∀ token name reserved, result = .identifier token name false reserved →
      Naming.isVariableName name) :
    (Expression.regsub token flags pattern input replacement result).Sound := by
  cases result with
  | identifier token name isVariable reserved =>
    cases isVariable
    · exact legal token name reserved rfl
    · trivial
  | _ => trivial

/-- A `regsub` with other than four arguments is reported, so a valid one has them all. -/
theorem regsubCommand_reads (calls : Calls grammar other 1 state) :
    Reads (regsubCommand grammar) (regsubCommand other) state fun value _ => value.Plain := by
  unfold regsubCommand
  simp only [Reads.current_bind]
  refine .bind (calls.now .regsubFlags Nat.one_pos) fun flags middle passage => ?_
  refine .bind ((calls.after passage).now (.regsubArguments true) Nat.one_pos) fun given _ _ => ?_
  split
  case h_2 => exact .report_bind (by simp) fun _ _ => .pure trivial
  case h_1 pattern input replacement result =>
    refine .bind regsubResult_reads fun result _ _ => .pure ?_
    rintro ⟨kept, legal⟩ ⟨first, second, third, fourth, -⟩ -
    exact ⟨⟨regsub_sound legal, first, second, third, kept fourth⟩, rfl⟩

/-! ## Targets, `set` and plain commands -/

/-- `pool` and `node` exclude each other, and the scope knows which was declared. -/
theorem targetCommand_reads {kind : TargetKind} (calls : Calls grammar other 1 state) :
    Reads (targetCommand grammar kind) (targetCommand other kind) state
      fun value last => value.Valid ∧ value.exclusives.Within last.scopes.current := by
  unfold targetCommand
  simp only [Reads.current_bind]
  refine .bind (calls.now .arguments Nat.one_pos) fun given middle _ => ?_
  refine .check (given ≠ []) (fun _ => .reportHere (by simp)) (by simp) fun checked _ => ?_
  cases kind with
  | pool =>
    refine .bind (declareExclusive_reads (by simp [singleExclusives])) fun _ _ _ => .pure ?_
    exact fun declared some valid => ⟨⟨some, valid⟩, declared⟩
  | node =>
    refine .bind (declareExclusive_reads (by simp [singleExclusives])) fun _ _ _ => .pure ?_
    exact fun declared some valid => ⟨⟨some, valid⟩, declared⟩

/-- A `set` between brackets has a target and a value, like one that stands alone. -/
theorem setCommand_reads (calls : Calls grammar other 0 state) :
    Reads (setCommand grammar) (setCommand other) state
      fun result _ => ∀ value ∈ result, value.Plain := by
  unfold setCommand
  simp only [Reads.current_bind]
  refine .bindOption (setParts_reads calls)
    (fun _ _ => .pure fun _ => by simp) fun parts _ _ => ?_
  obtain ⟨name, value⟩ := parts
  refine .pure ?_
  intro valid value found
  cases found
  exact ⟨⟨trivial, (valid _ rfl).1, (valid _ rfl).2, trivial⟩, rfl⟩

/-- A word that must not stand alone is reported. -/
theorem standaloneWord_reads {token : Token} :
    Reads (standaloneWord token) (standaloneWord token) state fun value _ => value.Plain := by
  unfold standaloneWord
  simp only [Reads.get_bind]
  refine .ite (fun _ => .pure ⟨trivial, rfl⟩) fun _ => ?_
  exact .report_bind (by simp) fun _ _ => .pure trivial

/-- A command without a shape of its own is its name with the arguments. -/
theorem plainCommand_reads (calls : Calls grammar other 1 state) :
    Reads (plainCommand grammar) (plainCommand other) state fun value _ => value.Plain := by
  unfold plainCommand
  simp only [Reads.current_bind]
  refine .bind standaloneWord_reads fun name middle passage => ?_
  refine .bind ((calls.after passage).now .arguments Nat.one_pos) fun given last _ => ?_
  refine .run_bind rfl (.of_step (.declare last _) rfl rfl) (.pure ?_)
  exact fun _ valid named => ⟨⟨named.valid, valid⟩, rfl⟩

/-- A command that excludes others was declared in the scope it stands in. -/
theorem command_reads (calls : Calls grammar other 1 state) :
    Reads (command grammar) (command other) state fun result last =>
      ∀ value ∈ result, value.Valid ∧ value.exclusives.Within last.scopes.current := by
  unfold command
  simp only [Reads.current_bind]
  cases commandFamily? state.current with
  | some family =>
    exact .bind (namespacedCommand_reads calls) fun _ _ _ => .pure fun good => by simpa using good
  | none =>
    have plain {result : Option Expression} {last : State} (plain : ∀ value ∈ result, value.Plain) :
        ∀ value ∈ result, value.Valid ∧ value.exclusives.Within last.scopes.current :=
      fun value found => (plain value found).within _
    dsimp only
    split
    case h_1 => exact (handler_reads (calls.lower (by decide))).mono fun _ _ _ => plain
    case h_2 => exact (stringCommand_reads (calls.lower (by decide))).mono fun _ _ _ => plain
    case h_3 => exact (classCommand_reads (calls.lower (by decide))).mono fun _ _ _ => plain
    case h_4 =>
      exact .bind (regsubCommand_reads calls) fun _ _ _ => .pure fun good => by
        simpa using good.within _
    case h_5 =>
      exact .bind (targetCommand_reads calls) fun _ _ _ => .pure fun good => by simpa using good
    case h_6 =>
      exact .bind (targetCommand_reads calls) fun _ _ _ => .pure fun good => by simpa using good
    case h_7 => exact (setCommand_reads (calls.lower (by decide))).mono fun _ _ _ => plain
    case h_8 =>
      exact .bind (plainCommand_reads calls) fun _ _ _ => .pure fun good => by
        simpa using good.within _

end IRule.Parser
