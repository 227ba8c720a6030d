import IRule.Proofs.Parser.Construct
import IRule.Proofs.Parser.Declaring.Statement
import IRule.Proofs.Parser.Termination

/-!
# Declarations are complete

Every step of the parser keeps the declared variables, so a variable that is
declared once is declared in every later state, in other blocks, after problems and
in the snippets of braced lists and strings. What a construct assigns is declared
when the construct has been read.
-/

namespace IRule.Parser

/-! ## States on the way -/

theorem Step.declared_subset {state next : State} (step : Step state next) :
    state.declared ⊆ next.declared := by
  cases step with
  | declare names => exact fun _ inside => Naming.mem_addAll names inside
  | _ => exact List.Subset.refl _

/-- Variables are only ever added on the way through a rule. -/
theorem Leads.declared_subset {first later : State} (leads : Leads first later) :
    first.declared ⊆ later.declared := by
  induction leads with
  | refl => exact List.Subset.refl _
  | step _ step ih => exact List.Subset.trans ih step.declared_subset
  | snippet _ _ _ _ ih => exact ih

/-! ## Constructs -/

namespace Fallible

variable {grammar : Grammar} {state : State}

/-- The variables that are assigned in what a construct gives. The target of a `set`
counts with its value, that of a `foreach` on its own. What is applied to an operand
counts with the whole expression only. -/
def targets : {α : Type} → Fallible α → α → List String
  | _, .statement | _, .statementBody | _, .setStatement | _, .returnStatement
  | _, .conditional | _, .switchStatement | _, .foreachStatement | _, .ruleStatement
  | _, .expressionStatement => fun statement => targetsIn statement.nodes
  | _, .loopTargets => fun target => target.loopTargets ++ targetsIn target.nodes
  | _, .setParts => fun parts =>
    parts.1.literalTarget ++ (targetsIn parts.1.nodes ++ targetsIn parts.2.nodes)
  | _, .setTarget => fun target => targetsIn target.1.nodes
  | _, .caseArm _ => fun arm => targetsIn (caseNodes [arm])
  | _, .expectBlock _ => fun body => targetsIn body.nodes
  | _, .casePatterns _ | _, .casePattern _ | _, .fallThrough _ | _, .captureBrace
  | _, .operatorChain _ _ | _, .applied _ | _, .splitSubtraction _ => fun _ => []
  | _, .condition | _, .bracedCondition | _, .commandOrExpression | _, .expression _
  | _, .operand | _, .unaryExpression | _, .groupedExpression | _, .command | _, .handler
  | _, .stringCommand | _, .classCommand | _, .setCommand | _, .regsubArgument _ | _, .word _
  | _, .piece | _, .variableReference | _, .bracedWord => fun value => targetsIn value.nodes

/-- What a construct assigns is declared when it has been read. -/
theorem grows {α : Type} (construct : Fallible α) (declares : grammar.Declares) :
    Grows (construct.parse grammar) state fun result last =>
      ∀ value ∈ result, construct.targets value ⊆ last.declared := by
  have assigned {action : Parse (Option Expression)} {more : Expression → State → Prop}
      (grows : Grows action state fun result last =>
        ∀ value ∈ result, targetsIn value.nodes ⊆ last.declared ∧ more value last) :
      Grows action state fun result last =>
        ∀ value ∈ result, targetsIn value.nodes ⊆ last.declared :=
    grows.mono fun _ _ _ known value found => (known value found).1
  have nothing {action : Parse (Option α)} {known : Option α → State → Prop}
      (grows : Grows action state known) (none : ∀ value, construct.targets value = []) :
      Grows action state fun result last =>
        ∀ value ∈ result, construct.targets value ⊆ last.declared :=
    grows.mono fun _ _ _ _ value _ => by simp [none value]
  cases construct with
  | statement => exact statement_grows declares
  | statementBody => exact statementBody_grows declares
  | setStatement => exact setStatement_grows declares
  | returnStatement => exact returnStatement_grows declares
  | conditional => exact conditional_grows declares
  | switchStatement => exact switchStatement_grows declares
  | foreachStatement => exact foreachStatement_grows declares
  | ruleStatement => exact ruleStatement_grows declares
  | expressionStatement => exact expressionStatement_grows declares
  | condition => exact condition_grows declares
  | bracedCondition => exact bracedCondition_grows declares
  | loopTargets =>
    exact (loopTargets_grows declares).mono fun _ _ _ known target found =>
      List.append_subset.2 (known target found)
  | caseArm => exact caseArm_grows declares
  | casePatterns => exact nothing (casePatterns_grows declares) fun _ => rfl
  | casePattern => exact nothing (casePattern_grows declares) fun _ => rfl
  | fallThrough => exact nothing (fallThrough_grows declares) fun _ => rfl
  | commandOrExpression => exact commandOrExpression_grows declares
  | expression => exact assigned (expression_grows declares)
  | operatorChain => exact nothing (operatorChain_grows declares) fun _ => rfl
  | applied => exact nothing (applied_grows declares) fun _ => rfl
  | splitSubtraction => exact nothing (splitSubtraction_grows declares) fun _ => rfl
  | operand => exact assigned (operand_grows declares)
  | unaryExpression => exact assigned (unaryExpression_grows declares)
  | groupedExpression => exact assigned (groupedExpression_grows declares)
  | command => exact assigned (command_grows declares)
  | handler => exact assigned (handler_grows declares)
  | stringCommand => exact assigned (stringCommand_grows declares)
  | classCommand => exact assigned (classCommand_grows declares)
  | setCommand => exact assigned (setCommand_grows declares)
  | setParts =>
    refine (setParts_grows declares).mono fun _ _ _ known parts found => ?_
    simpa only [targets, List.append_subset] using known parts found
  | setTarget =>
    exact (setTarget_grows declares).mono fun _ _ _ known target found => (known target found).1
  | regsubArgument => exact regsubArgument_grows declares
  | word => exact assigned (word_grows declares)
  | piece => exact assigned (piece_grows declares)
  | variableReference => exact assigned (variableReference_grows declares state.current)
  | bracedWord => exact assigned (bracedWord_grows declares)
  | captureBrace => exact nothing (captureBrace_grows declares) fun _ => rfl
  | expectBlock => exact expectBlock_grows declares

end Fallible

/-- Every construct keeps the declared variables and reports none of them. -/
theorem Construct.grows {grammar : Grammar} {state : State} {α : Type} (construct : Construct α)
    (declares : grammar.Declares) :
    Grows (construct.parse grammar) state fun _ _ => True := by
  cases construct with
  | production called => exact (rules_grows declares called).trivial
  | fallible construct => exact (construct.grows declares).trivial
  | block => exact (block_grows declares).trivial
  | alternative => exact (alternative_grows declares).trivial
  | handlerPriority => exact handlerPriority_grows
  | callExpression => exact (callExpression_grows declares).trivial
  | namespacedCommand => exact (namespacedCommand_grows declares).trivial
  | regsubCommand => exact (regsubCommand_grows declares).trivial
  | targetCommand => exact (targetCommand_grows declares).trivial
  | plainCommand => exact (plainCommand_grows declares).trivial
  | bracketed => exact (bracketed_grows declares state.current).trivial
  | braceItems => exact (braceItems_grows declares).trivial
  | quotedString => exact (quotedString_grows declares).trivial
  | substitution => exact (substitution_grows declares).trivial
  | numberLiteral => exact numberLiteral_grows.trivial
  | rawWordText => exact rawWordText_grows declares
  | passToken => exact passToken_grows declares
  | finishCommand => exact finishCommand_grows declares

/-! ## Whole rules -/

/-- Open braces that are reported at the end are no undeclared variables. -/
theorem State.growth_balanced (state : State) : Growth state state.balanced := by
  unfold balanced
  split
  · exact .refl state
  · exact .record (spares_problem nofun)

theorem Completed.growth {declared : List String} {source : String}
    {statements : List Statement} {last : State}
    (completed : Completed declared source statements last) :
    Growth (.start source.toList declared) last.balanced ∧
      targetsIn (statementNodes statements) ⊆ last.balanced.declared := by
  obtain ⟨growth, known⟩ := unfold_declares _ .script _ _ _ (completed.unfolds _ le_rfl)
  exact ⟨growth.trans last.growth_balanced, last.growth_balanced.keeps known⟩

/-- Declarations are complete and never lost. The outcome of a rule has every variable
that was declared before it and every variable that its script assigns, and none of the
former is reported as undeclared. Variables are only added from state to state. What a
construct assigns is declared from its end on, wherever the parser goes from there: a
`set` ends behind its value, and the target of a `foreach` in front of its list. No
construct that is read then reports the variable as undeclared. -/
theorem declarations_complete :
    (∀ (declared : List String) (source : String),
      let outcome := parseWith declared source
      declared ⊆ outcome.declared ∧ outcome.script.targets ⊆ outcome.declared ∧
      ∀ name ∈ declared, ∀ line,
        (Problem.undeclaredVariable name).diagnostic line ∉ outcome.diagnostics) ∧
    (∀ first later : State, Leads first later → first.declared ⊆ later.declared) ∧
    ∀ (steps : Nat) (first last : State) (α : Type) (construct : Fallible α) (value : α),
      construct.parse ⟨unfold steps⟩ first = some (some value, last) →
      first.declared ⊆ last.declared ∧
      ∀ name ∈ construct.targets value, ∀ later, Leads last later → name ∈ later.declared ∧
        ∀ (deeper : Nat) (β : Type) (next : Construct β) (result : β) (final : State),
          next.parse ⟨unfold deeper⟩ later = some (result, final) →
          ∃ fresh, final.diagnostics = later.diagnostics ++ fresh ∧
            ∀ line, (Problem.undeclaredVariable name).diagnostic line ∉ fresh := by
  refine ⟨fun declared source => ?_, fun _ _ => Leads.declared_subset, ?_⟩
  · obtain ⟨statements, last, completed⟩ := exists_completed declared source
    obtain ⟨growth, known⟩ := completed.growth
    have seeds : declared ⊆ (State.start source.toList declared).declared :=
      Naming.added_subset_addAll [] declared
    rw [completed.outcome]
    refine ⟨growth.keeps seeds, known, fun name seed line => ?_⟩
    obtain ⟨fresh, reported, spared⟩ := growth.reported
    have none : (State.start source.toList declared).diagnostics = [] := rfl
    rw [reported, none, List.nil_append]
    exact spared name (seeds seed) line
  · intro steps first last α construct value reads
    obtain ⟨growth, known⟩ := construct.grows (unfold_declares steps) _ _ reads
    refine ⟨growth.declared, fun name assigned later leads => ?_⟩
    have there : name ∈ later.declared := leads.declared_subset (known value rfl assigned)
    refine ⟨there, fun deeper β next result final runs => ?_⟩
    obtain ⟨onward, -⟩ := next.grows (unfold_declares deeper) _ _ runs
    obtain ⟨fresh, reported, spared⟩ := onward.reported
    exact ⟨fresh, reported, spared name there⟩

/-- A `set` is read with its value: a reference to the target in the value is still
reported, though the target stands in front of it. -/
theorem self_reference_reported :
    let outcome := parse "set x $x"
    outcome.script.written = "set x $x" ∧ outcome.script.targets = ["x"] ∧
      outcome.diagnostics = [(Problem.undeclaredVariable "x").diagnostic 1] := by
  decide +kernel

end IRule.Parser
