import IRule.Proofs.Parser.Vouching.Expression

/-!
# Calls and flags in statements, and the grammar

The patterns of a `switch` and the variables of a loop are never read as code. The rules of the
grammar keep to their contracts as soon as the productions they call do, and so the productions
do at every depth.
-/

namespace IRule.Parser

variable {transcript : Transcript} {grammar : Grammar} {state : State}

/-! ## `switch` -/

/-- An arm holds what its block does. -/
theorem caseArm_vouches {options : SwitchOptions} (vouching : Vouching transcript grammar) :
    Vouches transcript (caseArm grammar options) state
      fun result _ => ∀ arm ∈ result, AllVouched transcript (caseNodes [arm]) := by
  unfold caseArm
  simp only [Vouches.current_bind]
  refine .keepAfter (casePatterns_grows vouching.declares).vouches rfl fun pattern _ => ?_
  exact (expectBlock_vouches vouching).keep rfl fun body _ => .pure fun known => by
    simpa using known

/-- The arms of a `switch` are covered one after the other. -/
theorem cases_vouches {options : SwitchOptions} {line : Nat}
    (vouching : Vouching transcript grammar) :
    Vouches transcript (cases grammar options line) state
      fun arms _ => AllVouched transcript (caseNodes arms) := by
  unfold cases
  simp only [Vouches.lookahead_bind]
  split
  case h_1 =>
    simp only [Vouches.advance_bind]
    exact .pure (by simp)
  case h_2 => exact .after .reported fun _ _ => .pure (by simp)
  case h_3 =>
    simp only [Vouches.advance_bind]
    refine (caseArm_vouches vouching).bind fun arm _ => ?_
    refine .check (vouching.vouches .skipCaseLine _) fun _ => ?_
    refine (vouching.vouches (.cases options line) _).bind fun later _ => .pure fun rest first => ?_
    rw [caseNodes_append, allVouched_append]
    refine ⟨?_, rest⟩
    cases arm with
    | none => simp
    | some arm => exact first arm rfl

/-- A `switch` holds what its value and its arms do. -/
theorem switchStatement_vouches (vouching : Vouching transcript grammar) :
    Vouches transcript (switchStatement grammar) state
      fun result _ => ∀ statement ∈ result, AllVouched transcript statement.nodes := by
  unfold switchStatement
  simp only [Vouches.current_bind]
  refine .after (vouching.vouches (.switchOptions {}) _) fun options _ => ?_
  simp only [Vouches.endsCommand_bind]
  refine .ite (fun _ => .giveUp .reportedAhead) fun _ => ?_
  simp only [Vouches.advance_bind]
  refine vouching.word.keep rfl fun value _ => ?_
  simp only [Vouches.isAhead_bind]
  refine .ite (fun _ => ?_) fun _ => .after .reportedAhead fun _ _ => .pure (by simp)
  simp only [Vouches.advance_bind, Vouches.current_bind]
  refine Vouches.bind (.within (vouching.vouches (.cases _ _) _))
    fun arms _ => .pure fun inside known => ?_
  simpa using ⟨known, inside⟩

/-! ## Statements -/

/-- A `set` holds what its parts do. -/
theorem setStatement_vouches (vouching : Vouching transcript grammar) :
    Vouches transcript (setStatement grammar) state
      fun result _ => ∀ statement ∈ result, AllVouched transcript statement.nodes := by
  unfold setStatement
  simp only [Vouches.current_bind]
  refine (setParts_vouches vouching).keep rfl ?_
  rintro ⟨name, value⟩ _
  exact .pure fun known => by simpa using known

theorem returnStatement_vouches (vouching : Vouching transcript grammar) :
    Vouches transcript (returnStatement grammar) state
      fun result _ => ∀ statement ∈ result, AllVouched transcript statement.nodes := by
  unfold returnStatement
  simp only [Vouches.current_bind, Vouches.endsCommand_bind]
  refine .ite (fun _ => .pure (by simp)) fun _ => ?_
  simp only [Vouches.advance_bind]
  exact vouching.word.keep rfl fun value _ => .pure fun known => by
    simpa using known

/-- A condition in braces is a closed expression. -/
theorem bracedCondition_vouches (vouching : Vouching transcript grammar) :
    Vouches transcript (bracedCondition grammar) state
      fun result _ => ∀ value ∈ result, AllVouched transcript value.nodes := by
  unfold bracedCondition
  simp only [Vouches.current_bind, Vouches.isAhead_bind]
  refine .ite (fun _ => .after .reportedHere fun _ _ => ?_) fun _ => ?_
  · simp only [Vouches.advance_bind]
    exact .pure (by simp)
  refine Vouches.bind (.within ?_ : Vouches transcript _ _ fun condition _ =>
    ∀ value ∈ condition, AllVouched transcript value.nodes) fun condition _ => ?_
  · simp only [Vouches.advance_bind]
    refine vouching.closed.bind fun condition _ => ?_
    simp only [Vouches.isAhead_bind]
    refine .ite (fun _ => .pure id) fun _ => .after .reportedAhead fun _ _ => ?_
    exact .after (vouching.vouches .skipToCloseBrace _) fun _ _ => .pure id
  · simp only [Vouches.isAhead_bind]
    refine .ite (fun _ => ?_) fun _ => .after .reported fun _ _ => .pure (by simp)
    simp only [Vouches.advance_bind]
    exact .pure id

/-- A condition without braces is a word. -/
theorem condition_vouches (vouching : Vouching transcript grammar) :
    Vouches transcript (condition grammar) state
      fun result _ => ∀ value ∈ result, AllVouched transcript value.nodes := by
  unfold condition
  simp only [Vouches.endsCommand_bind]
  refine .ite (fun _ => .giveUp .reportedAhead) fun _ => ?_
  simp only [Vouches.advance_bind, Vouches.current_bind]
  exact .ite (fun _ => bracedCondition_vouches vouching) fun _ => vouching.word

/-- An `else` block counts as a statement. -/
theorem alternative_vouches (vouching : Vouching transcript grammar) :
    Vouches transcript (alternative grammar) state
      fun result _ => ∀ statement ∈ result, AllVouched transcript statement.nodes := by
  unfold alternative
  simp only [Vouches.lookahead_bind]
  split
  case h_1 =>
    simp only [Vouches.advance_bind]
    exact vouching.vouches .conditional _
  case h_2 =>
    simp only [Vouches.advance_bind, Vouches.isAhead_bind]
    refine .ite (fun _ => ?_) fun _ => ?_
    · simp only [Vouches.advance_bind]
      exact vouching.vouches .conditional _
    · exact .mapped (expectBlock_vouches vouching) fun body _ known => by simpa using known
  case h_3 => exact .pure (by simp)

/-- A conditional holds what its condition and its blocks do. -/
theorem conditional_vouches (vouching : Vouching transcript grammar) :
    Vouches transcript (conditional grammar) state
      fun result _ => ∀ statement ∈ result, AllVouched transcript statement.nodes := by
  have stepOver {middle : State} : Vouches transcript advance middle fun _ _ => True :=
    .grows (.run rfl (.advance middle) trivial)
  unfold conditional
  simp only [Vouches.current_bind]
  refine (condition_vouches vouching).keep rfl fun tested _ => ?_
  simp only [Vouches.lookahead_bind]
  refine .check stepOver fun _ => ?_
  refine (expectBlock_vouches vouching).bind fun consequence _ => ?_
  cases consequence with
  | none => exact .pure (by simp)
  | some consequence =>
    refine (alternative_vouches vouching).bind fun otherwise _ => .pure fun other body known => ?_
    have body := body consequence rfl
    cases otherwise with
    | none => simpa using ⟨known, body⟩
    | some otherwise => simpa using ⟨known, body, other otherwise rfl⟩

/-- The variables of a loop are bare words. -/
theorem loopVariables_vouches {line : Nat} {names : List (List Char)} :
    Vouches transcript (loopVariables line names) state
      fun targets _ => AllVouched transcript (nodesOf targets) := by
  induction names generalizing state with
  | nil => exact .pure (by simp)
  | cons name later ih =>
    refine declaredTarget_vouches.bind fun target _ => ih.bind fun targets _ => .pure ?_
    exact fun rest first => by simpa using ⟨first, rest⟩

/-- The target of a `foreach` is a list of names, a name or a word. -/
theorem loopTargets_vouches (vouching : Vouching transcript grammar) :
    Vouches transcript (loopTargets grammar) state
      fun result _ => ∀ target ∈ result, AllVouched transcript target.nodes := by
  unfold loopTargets
  simp only [Vouches.current_bind]
  split
  case h_1 =>
    refine .keepAfter (captureBrace_grows vouching.declares).vouches rfl fun body _ => ?_
    exact loopVariables_vouches.bind fun targets _ => .pure fun known => by simpa using known
  case h_2 | h_3 => exact vouching.word
  case h_4 =>
    refine .after (rawWordText_grows vouching.declares).vouches fun _ _ => ?_
    exact .kept declaredTarget_vouches

/-- A `foreach` holds what its target, its list and its block do. -/
theorem foreachStatement_vouches (vouching : Vouching transcript grammar) :
    Vouches transcript (foreachStatement grammar) state
      fun result _ => ∀ statement ∈ result, AllVouched transcript statement.nodes := by
  unfold foreachStatement
  simp only [Vouches.current_bind, Vouches.endsCommand_bind]
  refine .ite (fun _ => .giveUp .reportedAhead) fun _ => ?_
  simp only [Vouches.advance_bind]
  refine (loopTargets_vouches vouching).keep rfl fun targets _ => ?_
  simp only [Vouches.endsCommand_bind]
  refine .ite (fun _ => .after .reportedAhead fun _ _ => .pure (by simp)) fun _ => ?_
  simp only [Vouches.advance_bind]
  refine vouching.word.bind fun items _ => ?_
  cases items with
  | none => exact .pure (by simp)
  | some items =>
    refine (expectBlock_vouches vouching).bind fun body _ => ?_
    cases body with
    | none => exact .pure (by simp)
    | some body =>
      refine .pure fun inside known target => ?_
      simpa using ⟨target, known items rfl, inside body rfl⟩

/-- A named rule holds what its block does. -/
theorem ruleStatement_vouches (vouching : Vouching transcript grammar) :
    Vouches transcript (ruleStatement grammar) state
      fun result _ => ∀ statement ∈ result, AllVouched transcript statement.nodes := by
  unfold ruleStatement
  simp only [Vouches.current_bind, Vouches.advance_bind, Vouches.endsCommand_bind,
    Vouches.isAhead_bind]
  refine .ite (fun _ => .giveUp .reportedAhead) fun _ => ?_
  simp only [Vouches.advance_bind, Vouches.current_bind]
  refine .after (rawWordText_grows vouching.declares).vouches fun _ _ => ?_
  refine (expectBlock_vouches vouching).keep rfl fun body _ => .pure fun known => ?_
  simpa [bareWord] using known

/-- Whatever starts no statement is reported. -/
theorem statementBody_vouches (vouching : Vouching transcript grammar) :
    Vouches transcript (statementBody grammar) state
      fun result _ => ∀ statement ∈ result, AllVouched transcript statement.nodes := by
  have expression : Vouches transcript (expressionStatement grammar) state
      fun result _ => ∀ statement ∈ result, AllVouched transcript statement.nodes := by
    unfold expressionStatement
    simp only [Vouches.current_bind]
    exact .mapped (vouching.vouches .commandOrExpression _) fun value _ known => by
      simpa using known
  unfold statementBody
  simp only [Vouches.current_bind]
  split
  case h_1 => exact .grows reportIllegal_grows
  case h_2 | h_3 => exact .giveUp .reportedHere
  case h_4 => exact setStatement_vouches vouching
  case h_5 => exact returnStatement_vouches vouching
  case h_6 => exact vouching.vouches .conditional _
  case h_7 => exact switchStatement_vouches vouching
  case h_8 => exact foreachStatement_vouches vouching
  case h_9 =>
    exact (block_vouches vouching).bind fun body _ => .pure fun known => by simpa using known
  case h_10 =>
    simp only [Vouches.isAhead_bind]
    exact .ite (fun _ => ruleStatement_vouches vouching) fun _ => expression

/-- Ending a statement adds reports and no nodes. -/
theorem statement_vouches (vouching : Vouching transcript grammar) :
    Vouches transcript (statement grammar) state
      fun result _ => ∀ statement ∈ result, AllVouched transcript statement.nodes := by
  unfold statement
  simp only [Vouches.current_bind]
  refine .ite (fun _ => .pure (by simp)) fun _ => ?_
  refine (statementBody_vouches vouching).bind fun result _ => ?_
  exact .after (finishCommand_grows vouching.declares).vouches fun _ _ => .pure id

/-- The statements of a rule are covered one after the other. -/
theorem script_vouches (vouching : Vouching transcript grammar) :
    Vouches transcript (script grammar) state
      fun statements _ => AllVouched transcript (statementNodes statements) := by
  unfold script
  simp only [Vouches.current_bind]
  refine .ite (fun _ => .pure (by simp)) fun _ => ?_
  refine (vouching.vouches .statement _).bind fun next _ => ?_
  simp only [Vouches.advance_bind]
  exact (vouching.vouches .script _).bind
    fun later _ => .pure fun rest first => rest.collectStatement first

/-! ## The grammar -/

/-- Every rule, started in a sound state, keeps its contract over productions that do. -/
theorem rules_vouches (vouching : Vouching transcript grammar)
    (sound : Sound transcript.source transcript.declared state) (production : Production) :
    Vouches transcript (rules grammar production) state (production.Vouched transcript state) := by
  cases production with
  | script => exact script_vouches vouching
  | statement => exact statement_vouches vouching
  | conditional => exact conditional_vouches vouching
  | blockBody => exact blockBody_vouches vouching
  | cases => exact cases_vouches vouching
  | commandOrExpression => exact commandOrExpression_vouches vouching sound
  | expression => exact expression_vouches vouching sound
  | operatorChain => exact operatorChain_vouches vouching sound
  | callArguments => exact callArguments_vouches vouching
  | arguments => exact arguments_vouches vouching
  | regsubFlags => exact regsubFlags_vouches vouching sound
  | regsubArguments => exact regsubArguments_vouches vouching
  | word => exact word_vouches vouching
  | pieces => exact pieces_vouches vouching
  | bracketCommands => exact bracketCommands_vouches vouching
  | listElements => exact listElements_vouches vouching
  | hashPairs => exact hashPairs_vouches vouching
  | substitutionCommands => exact substitutionCommands_vouches vouching
  | drain | skipCommand | skipToCloseBrace | rawWord | skipCaseLine | switchOptions | fallThrough
  | classOptions => exact (rules_grows vouching.declares _).vouches

/-- At every depth, the grammar that answers in some states only just adds reports. -/
theorem unfoldIn_declares {allowed : State → Prop} (steps : Nat) :
    Grammar.Declares ⟨unfoldIn allowed steps⟩ := by
  induction steps with
  | zero =>
    intro production state result last runs
    simp [unfoldIn, outOfSteps] at runs
  | succ steps ih =>
    intro production state result last runs
    by_cases allows : allowed state
    · exact rules_grows ih production result last ((unfoldIn_of_allowed allows).symm.trans runs)
    · simp [unfoldIn, allows] at runs

/-- At every depth, the grammar that answers in some states only answers as the language
does. -/
theorem unfoldIn_lawful {source : List Char} {declared : List String} {allowed : State → Prop}
    (steps : Nat) : Lawful source declared ⟨unfoldIn allowed steps⟩ language := by
  induction steps with
  | zero =>
    intro production state _ _ result last runs
    simp [unfoldIn, outOfSteps] at runs
  | succ steps ih =>
    intro production state sound admitted result last runs
    by_cases allows : allowed state
    · have runs := (unfoldIn_of_allowed allows).symm.trans runs
      obtain ⟨alike, accounted⟩ := rules_accounts ih sound admitted result last runs
      exact ⟨(language_eq sound.coherent).trans alike, accounted⟩
    · simp [unfoldIn, allows] at runs

/-- At every depth, the grammar that answers in sound states only keeps to its contracts. -/
theorem unfoldIn_vouching (steps : Nat) :
    Vouching transcript ⟨unfoldIn (Sound transcript.source transcript.declared) steps⟩ := by
  refine ⟨unfoldIn_declares steps, unfoldIn_lawful steps, ?_⟩
  induction steps with
  | zero =>
    intro production state result last runs
    simp [unfoldIn, outOfSteps] at runs
  | succ steps ih =>
    intro production state result last runs
    by_cases sound : Sound transcript.source transcript.declared state
    · have runs := (unfoldIn_of_allowed sound).symm.trans runs
      exact rules_vouches ⟨unfoldIn_declares steps, unfoldIn_lawful steps, ih⟩ sound production
        result last runs
    · simp [unfoldIn, sound] at runs

/-- The problems of a rule are those of its statements, and maybe its balance. -/
theorem State.diagnostics_subset_balanced (state : State) :
    state.diagnostics ⊆ state.balanced.diagnostics := by
  unfold balanced
  split
  · exact List.Subset.refl _
  · exact List.subset_append_left _ _

/-- Reading a rule is reading it with the grammar that answers in sound states only, so
every node of a script is covered. -/
theorem parseWith_vouched (declared : List String) (source : String) :
    AllVouched ⟨source.toList, declared, (parseWith declared source).diagnostics⟩
      (parseWith declared source).script.nodes := by
  obtain ⟨statements, last, completed⟩ := exists_completed declared source
  have lawful (steps : Nat) : Lawful source.toList declared ⟨unfold steps⟩
      ⟨unfoldIn (Sound source.toList declared) steps⟩ := unfold_lawful (fun _ sound => sound) steps
  obtain ⟨runs, -⟩ := lawful _ .script _ (.start source.toList declared) trivial statements last
    (completed.unfolds _ le_rfl)
  rw [completed.outcome]
  exact ((unfoldIn_vouching _).vouches .script _ statements last runs
    last.diagnostics_subset_balanced).2

end IRule.Parser
