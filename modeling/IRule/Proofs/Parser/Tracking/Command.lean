import IRule.Proofs.Parser.Tracking.Word

/-!
# Blocks and commands

A block closes the scope it opened, and a command declares no more than a single
exclusive name in the scope it stands in. A command that is given up has reported
what it lacks.
-/

namespace IRule.Parser

variable {grammar other : Grammar} {permits : List Diagnostic → Prop} {state : State}

/-! ## Blocks and handlers -/

/-- The statements of a block are read inside its scope. -/
theorem blockBody_tracks {line : Nat} (answers : Answers grammar other permits state) :
    Tracks (blockBody grammar line) (blockBody other line) state fun _ => True := by
  unfold blockBody
  simp only [Tracks.current_bind]
  split
  case h_1 => exact .pure trivial
  case h_2 => exact .giveUp rfl
  case h_3 =>
    refine (answers.call .statement rfl).andThen fun _ _ _ => .advance_bind ?_
    exact (answers.call (.blockBody line) rfl).andThen fun _ _ _ => .pure trivial

/-- What stands between the braces of a block. -/
theorem blockInside_tracks {line : Nat} (answers : Answers grammar other permits state)
    {inner : State} :
    Tracks (within .script (advance >>= fun _ => grammar.blockBody line))
      (within .script (advance >>= fun _ => other.blockBody line)) inner fun _ => True :=
  .within (.advance_bind (answers.call (.blockBody line) rfl).trivial)

/-- A block leaves the scopes as they were before it. -/
theorem block_tracks (answers : Answers grammar other permits state) {inner : State} :
    Tracks (block grammar) (block other) inner fun _ => True := by
  unfold block
  simp only [Tracks.current_bind]
  exact .inScope (blockInside_tracks answers)

/-- A block that is missing is reported. -/
theorem expectBlock_tracks {head : BlockHead} (answers : Answers grammar other permits state)
    {inner : State} :
    Tracks (expectBlock grammar head) (expectBlock other head) inner (·.isSome) := by
  unfold expectBlock
  simp only [Tracks.isAhead_bind]
  refine .ite (fun _ => .advance_bind ?_) fun _ => .giveUp rfl
  exact (block_tracks answers).andThen fun _ _ _ => .pure rfl

/-- An unknown event is reported, and the handler is read on. -/
theorem eventName_tracks : Tracks eventName eventName state fun _ => True := by
  unfold eventName
  simp only [Tracks.current_bind]
  exact .ite (fun _ => .pure trivial) fun _ => .giveUp rfl

theorem handlerPriority_tracks : Tracks handlerPriority handlerPriority state fun _ => True := by
  unfold handlerPriority
  simp only [Tracks.get_bind]
  refine .ite (fun _ => .pure trivial) fun _ => .advance_bind ?_
  simp only [Tracks.isAhead_bind]
  refine .ite (fun _ => .advance_bind ?_) fun _ => .giveUp rfl
  simp only [Tracks.current_bind]
  exact .pure trivial

/-- A handler is given up only where its block is missing, which is reported. -/
theorem handler_tracks (answers : Answers grammar other permits state) :
    Tracks (handler grammar) (handler other) state (·.isSome) := by
  unfold handler
  simp only [Tracks.current_bind, Tracks.endsCommand_bind, Tracks.isAhead_bind]
  refine .ite (fun _ => .giveUp rfl) fun _ => .advance_bind ?_
  refine eventName_tracks.andThen fun _ _ _ => handlerPriority_tracks.andThen fun _ _ _ => ?_
  exact (expectBlock_tracks answers).keep rfl rfl fun _ _ _ => .pure rfl

/-! ## Assignments -/

/-- A target that is no legal name is reported and stands as it is. -/
theorem variableTarget_tracks {token : Token} {text : String} :
    Tracks (variableTarget token text) (variableTarget token text) state fun _ => True := by
  unfold variableTarget
  exact .ite (fun _ => .pure trivial) fun _ => .giveUp rfl

theorem declaredTarget_tracks {token : Token} {text : String} :
    Tracks (declaredTarget token text) (declaredTarget token text) state fun _ => True := by
  unfold declaredTarget
  refine variableTarget_tracks.andThen fun (_, name) _ _ => ?_
  exact (Tracks.declare name).andThen fun _ _ _ => .pure trivial

/-- A target is dropped only with the word that it is. -/
theorem setTarget_tracks (answers : Answers grammar other permits state) {inner : State} :
    Tracks (setTarget grammar) (setTarget other) inner (·.isSome) := by
  unfold setTarget
  simp only [Tracks.current_bind]
  split
  case h_1 => exact (bracketed_tracks answers).andThen fun _ _ _ => .pure rfl
  case h_2 => exact (answers.call (.word .word) rfl).mapped
  case h_3 => exact (answers.call (.word .word) rfl).mapped
  case h_4 =>
    refine (rawWordText_tracks answers).andThen fun _ _ _ => ?_
    exact variableTarget_tracks.andThen fun _ _ _ => .pure rfl

/-- A `set` without a target or a value is reported. -/
theorem setParts_tracks (answers : Answers grammar other permits state) :
    Tracks (setParts grammar) (setParts other) state (·.isSome) := by
  unfold setParts
  simp only [Tracks.endsCommand_bind]
  refine .ite (fun _ => .giveUp rfl) fun _ => .advance_bind ?_
  have onward := answers.after (.advance state)
  refine (setTarget_tracks answers).keep rfl rfl fun written targeted toValue => ?_
  obtain ⟨name, declared⟩ := written
  simp only [Tracks.endsCommand_bind]
  refine .ite (fun _ => .giveUp rfl) fun _ => .advance_bind ?_
  have onward := (onward.after toValue).after (.advance targeted)
  refine (answers.call (.word .word) rfl).keep rfl rfl fun value _ behind => ?_
  simp only [Tracks.endsCommand_bind]
  refine .ite (fun _ => ?_) fun _ => .record_bind rfl fun _ _ reported => ?_
  · exact (Tracks.declare declared).andThen fun _ _ _ => .pure rfl
  · refine ((onward.after behind).recover reported (.skipCommand 0)).andThen fun _ _ _ => ?_
    exact (Tracks.declare declared).andThen fun _ _ _ => .pure trivial

/-! ## Arguments -/

/-- Arguments that are dropped have been reported one by one. -/
theorem arguments_tracks (answers : Answers grammar other permits state) :
    Tracks (arguments grammar) (arguments other) state fun _ => True := by
  unfold arguments
  simp only [Tracks.endsCommand_bind]
  refine .ite (fun _ => .pure trivial) fun _ => .advance_bind ?_
  refine (answers.call (.word .word) rfl).andThen fun _ _ _ => ?_
  exact (answers.call .arguments rfl).andThen fun _ _ _ => .pure trivial

/-- A command that is refused is reported, and the scope stays as it was. -/
theorem declareExclusive_tracks {set : Exclusives} {line : Nat}
    (single : set ∈ singleExclusives) :
    Tracks (declareExclusive set line) (declareExclusive set line) state fun _ => True := by
  unfold declareExclusive
  simp only [Tracks.get_bind]
  cases allowed : state.scopes.declare set with
  | ok scopes => exact .run rfl (.exclude single allowed) fun _ => trivial
  | error conflict => exact .record rfl

/-! ## Commands of known shape -/

/-- Checks of arguments report and change nothing. -/
theorem checkHeader_tracks {given : List Expression} {line : Nat} :
    Tracks (checkHeader given line) (checkHeader given line) state fun _ => True := by
  unfold checkHeader
  split
  · exact .ite (fun _ => .pure trivial) fun _ => .record rfl
  · exact .pure trivial

/-- A command of a family is kept, with problems or without. -/
theorem namespacedCommand_tracks {family : Family} (answers : Answers grammar other permits state)
    {inner : State} :
    Tracks (namespacedCommand grammar family) (namespacedCommand other family) inner
      fun _ => True := by
  unfold namespacedCommand
  simp only [Tracks.current_bind]
  refine (answers.call .arguments rfl).andThen fun given _ _ => ?_
  refine .ite (fun _ => ?_) fun _ => .ite (fun _ => ?_) fun _ => .ite (fun _ => ?_) fun _ => ?_
  · exact checkHeader_tracks.andThen fun _ _ _ => .pure trivial
  · exact (declareExclusive_tracks (by decide)).andThen fun _ _ _ => .pure trivial
  · exact (declareExclusive_tracks (by decide)).andThen fun _ _ _ => .pure trivial
  · exact .pure trivial

theorem checkArity_tracks {operation : String} {given line : Nat} :
    Tracks (checkArity operation given line) (checkArity operation given line) state
      fun _ => True := by
  unfold checkArity
  split
  · exact .ite (fun _ => .record rfl) fun _ => .pure trivial
  · exact .pure trivial

/-- `string` without an operation is reported. -/
theorem stringCommand_tracks (answers : Answers grammar other permits state) {inner : State} :
    Tracks (stringCommand grammar) (stringCommand other) inner (·.isSome) := by
  unfold stringCommand
  simp only [Tracks.current_bind, Tracks.endsCommand_bind]
  refine .ite (fun _ => .giveUp rfl) fun _ => .advance_bind ?_
  simp only [Tracks.current_bind]
  refine .check (fun _ => .record rfl) fun _ _ => ?_
  refine (answers.call .arguments rfl).andThen fun _ _ _ => ?_
  exact checkArity_tracks.andThen fun _ _ _ => .pure rfl

/-- Unknown options are reported and passed by. -/
theorem classOptions_tracks (answers : Answers grammar other permits state) :
    Tracks (classOptions grammar) (classOptions other) state fun _ => True := by
  unfold classOptions
  simp only [Tracks.get_bind]
  refine .ite (fun _ => .advance_bind ?_) fun _ => .pure trivial
  refine (rawWordText_tracks answers).andThen fun option _ _ => ?_
  refine .checkUnless (fun _ => .record rfl) fun _ _ => ?_
  refine .ite (fun _ => .pure trivial) fun _ => ?_
  exact (answers.call .classOptions rfl).andThen fun _ _ _ => .pure trivial

theorem checkClassArguments_tracks {subcommand : String} {given : List Expression} {line : Nat} :
    Tracks (checkClassArguments subcommand given line) (checkClassArguments subcommand given line)
      state fun _ => True := by
  unfold checkClassArguments
  refine .ite (fun _ => ?_) fun _ => .pure trivial
  split
  · split
    · exact .ite (fun _ => .pure trivial) fun _ => .record rfl
    · exact .pure trivial
  · exact .record rfl

/-- `class` without a subcommand is reported. -/
theorem classCommand_tracks (answers : Answers grammar other permits state) {inner : State} :
    Tracks (classCommand grammar) (classCommand other) inner (·.isSome) := by
  unfold classCommand
  simp only [Tracks.current_bind, Tracks.endsCommand_bind]
  refine .ite (fun _ => .giveUp rfl) fun _ => .advance_bind ?_
  simp only [Tracks.current_bind]
  refine .checkUnless (fun _ => .record rfl) fun _ _ => ?_
  refine (answers.call .classOptions rfl).andThen fun _ _ _ => ?_
  refine (answers.call .arguments rfl).andThen fun _ _ _ => ?_
  exact checkClassArguments_tracks.andThen fun _ _ _ => .pure rfl

/-! ## `regsub` -/

/-- Unlisted flags are reported and kept. -/
theorem regsubFlags_tracks (answers : Answers grammar other permits state) :
    Tracks (regsubFlags grammar) (regsubFlags other) state fun _ => True := by
  unfold regsubFlags
  simp only [Tracks.get_bind]
  refine .ite (fun _ => .advance_bind ?_) fun _ => .pure trivial
  refine (rawWordText_tracks answers).andThen fun flag _ _ => ?_
  refine .ite (fun _ => .pure trivial) fun _ => .checkUnless (fun _ => .record rfl) fun _ _ => ?_
  exact (answers.call .regsubFlags rfl).andThen fun _ _ _ => .pure trivial

/-- A pattern is dropped only if its brace is left open, which is reported. -/
theorem regsubArgument_tracks {first : Bool} (answers : Answers grammar other permits state) :
    Tracks (regsubArgument grammar first) (regsubArgument other first) state (·.isSome) := by
  unfold regsubArgument
  simp only [Tracks.current_bind]
  refine .ite (fun _ => (captureBrace_tracks answers).mapped) fun _ => ?_
  exact answers.call (.word .word) rfl

/-- Arguments of a `regsub` that are dropped have been reported. -/
theorem regsubArguments_tracks {first : Bool} (answers : Answers grammar other permits state) :
    Tracks (regsubArguments grammar first) (regsubArguments other first) state fun _ => True := by
  unfold regsubArguments
  simp only [Tracks.endsCommand_bind]
  refine .ite (fun _ => .pure trivial) fun _ => .advance_bind ?_
  refine (regsubArgument_tracks (answers.after (.advance state))).andThen fun _ _ _ => ?_
  exact (answers.call (.regsubArguments _) rfl).andThen fun _ _ _ => .pure trivial

theorem regsubResult_tracks {result : Expression} :
    Tracks (regsubResult result) (regsubResult result) state fun _ => True := by
  unfold regsubResult
  split
  · exact declaredTarget_tracks
  · exact .pure trivial

/-- A `regsub` with other than four arguments is kept as a plain command. -/
theorem regsubCommand_tracks (answers : Answers grammar other permits state) {inner : State} :
    Tracks (regsubCommand grammar) (regsubCommand other) inner fun _ => True := by
  unfold regsubCommand
  simp only [Tracks.current_bind]
  refine (answers.call .regsubFlags rfl).andThen fun _ _ _ => ?_
  refine (answers.call (.regsubArguments true) rfl).andThen fun _ _ _ => ?_
  split
  · exact regsubResult_tracks.andThen fun _ _ _ => .pure trivial
  · exact .giveUp rfl

/-! ## Targets, `set` and plain commands -/

/-- `pool` and `node` are kept, also where they exclude each other. -/
theorem targetCommand_tracks {kind : TargetKind} (answers : Answers grammar other permits state)
    {inner : State} :
    Tracks (targetCommand grammar kind) (targetCommand other kind) inner fun _ => True := by
  unfold targetCommand
  simp only [Tracks.current_bind]
  refine (answers.call .arguments rfl).andThen fun _ _ _ => ?_
  refine .check (fun _ => .record rfl) fun _ _ => ?_
  cases kind with
  | pool | node => exact (declareExclusive_tracks (by decide)).andThen fun _ _ _ => .pure trivial

/-- A `set` between brackets is kept with its parts. -/
theorem setCommand_tracks (answers : Answers grammar other permits state) :
    Tracks (setCommand grammar) (setCommand other) state (·.isSome) := by
  unfold setCommand
  simp only [Tracks.current_bind]
  exact (setParts_tracks answers).keep rfl rfl fun _ _ _ => .pure rfl

/-- A word that must not stand alone is reported and kept. -/
theorem standaloneWord_tracks {token : Token} :
    Tracks (standaloneWord token) (standaloneWord token) state fun _ => True := by
  unfold standaloneWord
  simp only [Tracks.get_bind]
  exact .ite (fun _ => .pure trivial) fun _ => .giveUp rfl

/-- A plain command is kept, whatever its arguments are. -/
theorem plainCommand_tracks (answers : Answers grammar other permits state) {inner : State} :
    Tracks (plainCommand grammar) (plainCommand other) inner fun _ => True := by
  unfold plainCommand
  simp only [Tracks.current_bind]
  refine standaloneWord_tracks.andThen fun _ _ _ => ?_
  refine (answers.call .arguments rfl).andThen fun _ _ _ => ?_
  exact .run rfl (.of_scopes rfl rfl rfl List.prefix_rfl) fun _ => trivial

/-- Every command that is given up has been reported. -/
theorem command_tracks (answers : Answers grammar other permits state) :
    Tracks (command grammar) (command other) state (·.isSome) := by
  unfold command
  simp only [Tracks.current_bind]
  split
  · exact (namespacedCommand_tracks answers).andThen fun _ _ _ => .pure rfl
  · split
    case h_1 => exact handler_tracks answers
    case h_2 => exact stringCommand_tracks answers
    case h_3 => exact classCommand_tracks answers
    case h_4 => exact (regsubCommand_tracks answers).andThen fun _ _ _ => .pure rfl
    case h_5 => exact (targetCommand_tracks answers).andThen fun _ _ _ => .pure rfl
    case h_6 => exact (targetCommand_tracks answers).andThen fun _ _ _ => .pure rfl
    case h_7 => exact setCommand_tracks answers
    case h_8 => exact (plainCommand_tracks answers).andThen fun _ _ _ => .pure rfl

end IRule.Parser
