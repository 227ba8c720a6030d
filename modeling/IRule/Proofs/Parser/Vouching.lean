import IRule.Proofs.Parser.Callees
import IRule.Proofs.Parser.Declaring.Statement
import IRule.Proofs.Parser.FlagWords

/-!
# Vouching for calls and flags

A call stands behind what it is applied to. A flag of `regsub` is in order when the table
lists it, dashes aside; any other is reported, and stays in the tree. `Covers` asks both of
a node. `Vouches` says what is known of the result of a computation once the reports are
known that were made in the end: those made up to any point on the way are among them.
`Vouching` asks of every production that it covers the nodes of its result.
-/

namespace IRule

namespace Parser

/-- A rule, the variables declared before it, and what was reported in the end. -/
structure Transcript where
  source : List Char
  declared : List String
  reports : List Diagnostic

/-- Wherever the parser of the rule was at the token, it found the flags behind it. -/
def Transcript.Shows (transcript : Transcript) (token : Token) (flags : List String) : Prop :=
  ∃ state, Visited transcript.source transcript.declared state ∧ state.current = token ∧
    FlagWords transcript.reports state flags

/-- The flags of a `regsub` stand in the rule, and a call is glued to what it calls. -/
@[simp]
def Transcript.Covers (transcript : Transcript) : Node → Prop
  | .expression (.regsub token flags ..) => transcript.Shows token flags
  | .expression (.call token function _) =>
    Glued transcript.source transcript.declared ⟨token, function⟩
  | _ => True

/-- All of the nodes are covered. -/
def AllVouched (transcript : Transcript) (nodes : List Node) : Prop :=
  ∀ node ∈ nodes, transcript.Covers node

section AllVouched

variable {transcript : Transcript}

@[simp]
theorem allVouched_nil : AllVouched transcript [] := by
  simp [AllVouched]

@[simp]
theorem allVouched_cons {node : Node} {nodes : List Node} :
    AllVouched transcript (node :: nodes) ↔
      transcript.Covers node ∧ AllVouched transcript nodes :=
  List.forall_mem_cons

@[simp]
theorem allVouched_append {first second : List Node} :
    AllVouched transcript (first ++ second) ↔
      AllVouched transcript first ∧ AllVouched transcript second :=
  List.forall_mem_append

theorem allVouched_nodesOf {expressions : List Expression} :
    AllVouched transcript (nodesOf expressions) ↔
      ∀ expression ∈ expressions, AllVouched transcript expression.nodes := by
  induction expressions with
  | nil => simp
  | cons expression rest ih => simp [ih]

/-- Plain nodes are covered. -/
theorem Transcript.covers_of_isPlain {node : Node} (plain : node.isPlain) :
    transcript.Covers node := by
  unfold Covers
  split <;> trivial

namespace AllVouched

variable {before after : List Node}

/-- What is rearranged stays covered. -/
theorem rearranged (vouched : AllVouched transcript before) (same : Rearranges before after) :
    AllVouched transcript after := by
  intro node mem
  cases plain : node.isPlain with
  | true => exact transcript.covers_of_isPlain plain
  | false => exact vouched node (same node mem plain)

/-- One more expression, if it was kept, in front of those that were read later. -/
theorem collect {result : Option Expression} {later : List Expression}
    (rest : AllVouched transcript (nodesOf later))
    (first : ∀ value ∈ result, AllVouched transcript value.nodes) :
    AllVouched transcript (nodesOf (result.toList ++ later)) := by
  rw [nodesOf_append, allVouched_append, allVouched_nodesOf]
  exact ⟨by simpa using first, rest⟩

/-- One more statement, if it was kept, in front of those that were read later. -/
theorem collectStatement {result : Option Statement} {later : List Statement}
    (rest : AllVouched transcript (statementNodes later))
    (first : ∀ statement ∈ result, AllVouched transcript statement.nodes) :
    AllVouched transcript (statementNodes (result.toList ++ later)) := by
  cases result with
  | none => exact rest
  | some statement => exact allVouched_append.2 ⟨first statement rfl, rest⟩

end AllVouched

end AllVouched

/-! ## Computations -/

/-- If the computation ends with no other reports than these, it began with no other
reports, and what is known of its result and of the state that it ends in is as described. -/
def Vouches {α : Type} (transcript : Transcript) (action : Parse α) (state : State)
    (known : α → State → Prop) : Prop :=
  Gives action state fun result last => last.diagnostics ⊆ transcript.reports →
    state.diagnostics ⊆ transcript.reports ∧ known result last

/-- Reports are only ever added. -/
theorem Growth.diagnostics_subset {first last : State} (growth : Growth first last) :
    first.diagnostics ⊆ last.diagnostics := by
  obtain ⟨fresh, same, -⟩ := growth.reported
  rw [same]
  exact List.subset_append_left _ _

namespace Vouches

variable {α β : Type} {transcript : Transcript} {state : State}

theorem pure {value : α} {known : α → State → Prop} (holds : known value state) :
    Vouches transcript (Pure.pure value) state known := by
  intro result last runs within
  cases runs
  exact ⟨within, holds⟩

/-- What is known of the result may be weakened. -/
theorem mono {action : Parse α} {known better : α → State → Prop}
    (vouches : Vouches transcript action state known)
    (implies : ∀ result last, known result last → better result last) :
    Vouches transcript action state better := by
  intro result last runs within
  obtain ⟨before, holds⟩ := vouches result last runs within
  exact ⟨before, implies result last holds⟩

/-- What is known of a first result may be used when the second has ended: reports of the
first are reports of both. -/
theorem bindRun {action : Parse α} {next : α → Parse β} {known : α → State → Prop}
    {final : β → State → Prop} (vouches : Vouches transcript action state known)
    (goesOn : ∀ value middle, action state = some (value, middle) →
      Vouches transcript (next value) middle
        fun result last => known value middle → final result last) :
    Vouches transcript (action >>= next) state final := by
  intro result last runs within
  obtain ⟨value, middle, left, right⟩ := bind_eq_some runs
  obtain ⟨between, ends⟩ := goesOn value middle left result last right within
  obtain ⟨before, holds⟩ := vouches value middle left between
  exact ⟨before, ends holds⟩

/-- Most often it does not matter where the second one starts. -/
theorem bind {action : Parse α} {next : α → Parse β} {known : α → State → Prop}
    {final : β → State → Prop} (vouches : Vouches transcript action state known)
    (goesOn : ∀ value middle, Vouches transcript (next value) middle
      fun result last => known value middle → final result last) :
    Vouches transcript (action >>= next) state final :=
  vouches.bindRun fun value middle _ => goesOn value middle

/-- A computation that only adds reports. -/
theorem grows {action : Parse α} {known : α → State → Prop} (grows : Grows action state known) :
    Vouches transcript action state known := by
  intro result last runs within
  obtain ⟨growth, holds⟩ := grows result last runs
  exact ⟨List.Subset.trans growth.diagnostics_subset within, holds⟩

/-- What follows from an assumption has to be shown under it, for reports are added in
any case. -/
theorem given {action : Parse α} {assumption : Prop} {known other : α → State → Prop}
    (grows : Grows action state other)
    (vouches : assumption → Vouches transcript action state known) :
    Vouches transcript action state fun result last => assumption → known result last := by
  intro result last runs within
  obtain ⟨growth, -⟩ := grows result last runs
  exact ⟨List.Subset.trans growth.diagnostics_subset within,
    fun holds => (vouches holds result last runs within).2⟩

/-- Going on after a computation of which nothing has to be known. -/
theorem after {action : Parse α} {next : α → Parse β} {known : α → State → Prop}
    {final : β → State → Prop} (vouches : Vouches transcript action state known)
    (goesOn : ∀ value middle, Vouches transcript (next value) middle final) :
    Vouches transcript (action >>= next) state final :=
  vouches.bind fun value middle => (goesOn value middle).mono fun _ _ holds _ => holds

/-- A construct that is given up with the one it needs. -/
theorem keep {action : Parse (Option α)} {next : Option α → Parse (Option β)}
    {known : α → State → Prop} {final : β → State → Prop}
    (vouches : Vouches transcript action state
      fun result last => ∀ value ∈ result, known value last)
    (absent : next none = Pure.pure none)
    (goesOn : ∀ value middle, Vouches transcript (next (some value)) middle
      fun result last => known value middle → ∀ value ∈ result, final value last) :
    Vouches transcript (action >>= next) state
      fun result last => ∀ value ∈ result, final value last := by
  refine vouches.bind fun value middle => ?_
  cases value with
  | none =>
    rw [absent]
    exact .pure (by simp)
  | some value => exact (goesOn value middle).mono fun _ _ ends holds => ends (holds value rfl)

/-- A construct that is given up with one of which nothing has to be known. -/
theorem keepAfter {action : Parse (Option α)} {next : Option α → Parse (Option β)}
    {known : Option α → State → Prop} {final : β → State → Prop}
    (vouches : Vouches transcript action state known) (absent : next none = Pure.pure none)
    (goesOn : ∀ value middle, Vouches transcript (next (some value)) middle
      fun result last => ∀ value ∈ result, final value last) :
    Vouches transcript (action >>= next) state
      fun result last => ∀ value ∈ result, final value last := by
  refine vouches.after fun value middle => ?_
  cases value with
  | none =>
    rw [absent]
    exact .pure (by simp)
  | some value => exact goesOn value middle

/-- What is made of a result that was kept. -/
theorem mapped {action : Parse (Option α)} {build : α → β} {known : α → State → Prop}
    {final : β → State → Prop}
    (vouches : Vouches transcript action state
      fun result last => ∀ value ∈ result, known value last)
    (implies : ∀ value last, known value last → final (build value) last) :
    Vouches transcript (action >>= fun result => Pure.pure (result.map build)) state
      fun result last => ∀ value ∈ result, final value last := by
  refine vouches.bind fun result last => .pure fun holds => ?_
  simpa using fun value found => implies value last (holds value found)

/-- A result that is kept in any case. -/
theorem kept {action : Parse α} {known : α → State → Prop}
    (vouches : Vouches transcript action state known) :
    Vouches transcript (action >>= fun value => Pure.pure (some value)) state
      fun result last => ∀ value ∈ result, known value last :=
  vouches.bind fun _ _ => .pure fun holds => by simpa using holds

theorem ite {condition : Prop} [Decidable condition] {first second : Parse α}
    {known : α → State → Prop} (yes : condition → Vouches transcript first state known)
    (no : ¬condition → Vouches transcript second state known) :
    Vouches transcript (if condition then first else second) state known :=
  Gives.ite yes no

section Look

variable {final : β → State → Prop}

@[simp]
theorem get_bind {next : State → Parse β} :
    Vouches transcript (get >>= next) state final ↔
      Vouches transcript (next state) state final := Iff.rfl

@[simp]
theorem current_bind {next : Token → Parse β} :
    Vouches transcript (current >>= next) state final ↔
      Vouches transcript (next state.current) state final := Iff.rfl

@[simp]
theorem lookahead_bind {next : Token → Parse β} :
    Vouches transcript (lookahead >>= next) state final ↔
      Vouches transcript (next state.lookahead) state final := Iff.rfl

@[simp]
theorem endsCommand_bind {next : Bool → Parse β} :
    Vouches transcript (endsCommand >>= next) state final ↔
      Vouches transcript (next state.endsCommand) state final := Iff.rfl

@[simp]
theorem isAhead_bind {kind : TokenKind} {next : Bool → Parse β} :
    Vouches transcript (isAhead kind >>= next) state final ↔
      Vouches transcript (next (state.lookahead.kind == kind)) state final := Iff.rfl

@[simp]
theorem advance_bind {next : Unit → Parse β} :
    Vouches transcript (advance >>= next) state final ↔
      Vouches transcript (next ()) state.advance final := Iff.rfl

end Look

/-- Going on after a change that drops no report. -/
theorem modify_bind {change : State → State} {next : Unit → Parse β} {final : β → State → Prop}
    (keeps : state.diagnostics ⊆ (change state).diagnostics)
    (goesOn : Vouches transcript (next ()) (change state) final) :
    Vouches transcript (modify change >>= next) state final := by
  intro result last runs within
  obtain ⟨inside, ends⟩ := goesOn result last runs within
  exact ⟨List.Subset.trans keeps inside, ends⟩

/-! ### Reports -/

/-- A report is among those that were made in the end, and nothing else is changed. -/
theorem reported {problem : Problem} {line : Nat} :
    Vouches transcript (report problem line) state fun _ last =>
      problem.diagnostic line ∈ transcript.reports ∧
        last = state.record (problem.diagnostic line) := by
  intro result last runs within
  cases runs
  obtain ⟨before, fresh⟩ := List.append_subset.1 within
  exact ⟨before, fresh (List.mem_singleton_self _), rfl⟩

/-- A problem at the current token. -/
theorem reportedHere {problem : Problem} :
    Vouches transcript (reportHere problem) state fun _ last =>
      problem.diagnostic state.current.line ∈ transcript.reports ∧
        last = state.record (problem.diagnostic state.current.line) :=
  reported

/-- A problem at the token ahead, which quotes that token. -/
theorem reportedAhead {problem : String → Problem} :
    Vouches transcript (reportAhead problem) state fun _ _ => True :=
  reported.mono fun _ _ _ => trivial

/-- A construct is given up after a report. -/
theorem giveUp {action : Parse Unit} {given : Unit → State → Prop} {known : α → State → Prop}
    (vouches : Vouches transcript action state given) :
    Vouches transcript (action >>= fun _ => Pure.pure none) state
      fun result last => ∀ value ∈ result, known value last :=
  vouches.after fun _ _ => .pure (by simp)

section Check

variable {condition : Prop} [Decidable condition] {action : Parse Unit}
  {given : Unit → State → Prop} {next : Unit → Parse β} {final : β → State → Prop}

/-- A check that reports something when its condition holds. Whatever comes next comes
next in both cases. -/
theorem check (vouches : Vouches transcript action state given)
    (goesOn : ∀ middle, Vouches transcript (next ()) middle final) :
    Vouches transcript (if condition then action >>= next else next ()) state final :=
  ite (fun _ => vouches.after fun _ => goesOn) fun _ => goesOn state

/-- A check that reports something unless its condition holds. -/
theorem checkUnless (vouches : Vouches transcript action state given)
    (goesOn : ∀ middle, Vouches transcript (next ()) middle final) :
    Vouches transcript (if condition then next () else action >>= next) state final :=
  ite (fun _ => goesOn state) fun _ => vouches.after fun _ => goesOn

end Check

/-! ### Constructs -/

/-- What is known of the result alone holds around a construct. -/
theorem within {nesting : Nesting} {body : Parse α} {known : α → Prop}
    (inner : Vouches transcript body (state.enter nesting) fun result _ => known result) :
    Vouches transcript (within nesting body) state fun result _ => known result := by
  intro result last runs inside
  obtain ⟨_, _, entered, runs⟩ := bind_eq_some runs
  cases entered
  obtain ⟨_, middle, body, runs⟩ := bind_eq_some runs
  obtain ⟨_, _, left, runs⟩ := bind_eq_some runs
  cases left
  cases runs
  exact inner _ middle body inside

/-- Scopes have nothing to do with reports. -/
theorem inScope {body : Parse α} {build : α → β} {known : β → Prop}
    (inner : Vouches transcript body { state with scopes := state.scopes.enter }
      fun result _ => known (build result)) :
    Vouches transcript
      (do
        modify fun state => { state with scopes := state.scopes.enter }
        let value ← body
        modify fun state => { state with scopes := state.scopes.leave }
        return build value)
      state fun result _ => known result := by
  intro result last runs inside
  obtain ⟨_, _, entered, runs⟩ := bind_eq_some runs
  cases entered
  obtain ⟨value, middle, left, runs⟩ := bind_eq_some runs
  obtain ⟨_, _, closed, runs⟩ := bind_eq_some runs
  cases closed
  cases runs
  exact inner value middle left inside

/-- What is known of a snippet in which nothing was reported. -/
theorem isolated {snippet : State} {body : Parse α} {known : α → State → Prop}
    (inner : Vouches transcript body snippet known) :
    Vouches transcript (isolated snippet body) state
      fun found _ => found.2.diagnostics = [] → known found.1 found.2 := by
  intro result last runs inside
  obtain ⟨⟨value, final⟩, left, same⟩ := Option.map_eq_some_iff.1 runs
  cases same
  refine ⟨inside, fun clean => ?_⟩
  exact (inner value final left (by simp [show final.diagnostics = [] from clean])).2

end Vouches

/-- Nothing has to be known of a computation that only adds reports. -/
theorem Grows.vouches {α : Type} {transcript : Transcript} {state : State} {action : Parse α}
    {known : α → State → Prop} (grows : Grows action state known) :
    Vouches transcript action state fun _ _ => True :=
  .grows grows.trivial

/-! ## Contracts -/

variable {transcript : Transcript}

/-- What the loop over the operators has folded so far, in front of the token ahead. -/
structure Folded (transcript : Transcript) (value : Expression) (state : State) : Prop where
  nodes : AllVouched transcript value.nodes
  callee : state.parenGlued →
    Callee transcript.source transcript.declared value state.lookahead

/-- What the loop starts with is drawn from the rule as well. -/
structure LeftOperand (transcript : Transcript) (value : Expression) (state : State) : Prop
    extends Folded transcript value state where
  drawn : value.WordFrom transcript.source

/-- What the loop ends with has taken every operator that binds tighter than `precedence`. -/
structure Chained (transcript : Transcript) (precedence : Precedence) (value : Expression)
    (state : State) : Prop extends Folded transcript value state where
  weak : ¬state.operatorAhead precedence

/-- Behind an expression that takes calls no parenthesis is glued to it. -/
theorem Chained.not_parenGlued {precedence : Precedence} {value : Expression} {last : State}
    (chained : Chained transcript precedence value last)
    (weaker : precedence.rank < Precedence.call.rank) : ¬last.parenGlued :=
  fun glued => chained.weak (State.operatorAhead_of_parenGlued glued weaker)

/-- A word starts at a token, and is no operation. -/
structure WordVouched (transcript : Transcript) (token : Token) (value : Expression) : Prop where
  nodes : AllVouched transcript value.nodes
  starts : value.token = token
  single : value.isOperation = false

/-- What is known of the result of a production that starts in a state: its nodes are
covered, and a parenthesis behind an expression is glued to all of it. -/
@[simp]
def Production.Vouched (transcript : Transcript) (first : State) :
    (production : Production) → production.Result → State → Prop
  | .script | .blockBody _ => fun statements _ =>
    AllVouched transcript (statementNodes statements)
  | .statement | .conditional => fun result _ =>
    ∀ statement ∈ result, AllVouched transcript statement.nodes
  | .cases _ _ => fun arms _ => AllVouched transcript (caseNodes arms)
  | .commandOrExpression => fun result _ => ∀ value ∈ result, AllVouched transcript value.nodes
  | .expression precedence => fun result last =>
    ∀ value ∈ result, Chained transcript precedence value last
  | .operatorChain left precedence => fun result last =>
    LeftOperand transcript left first → ∀ value ∈ result, Chained transcript precedence value last
  | .word _ => fun result _ => ∀ value ∈ result, WordVouched transcript first.current value
  | .callArguments | .arguments | .regsubArguments _ | .bracketCommands _ | .listElements
  | .substitutionCommands => fun values _ => AllVouched transcript (nodesOf values)
  | .pieces _ => fun pieces _ => AllVouched transcript (nodesOf (pieces.map Prod.fst))
  | .hashPairs => fun pairs _ => AllVouched transcript (pairNodes pairs)
  | .regsubFlags => fun flags _ => FlagWords transcript.reports first flags
  | .drain | .skipCommand _ | .skipToCloseBrace | .rawWord _ | .skipCaseLine | .switchOptions _
  | .fallThrough _ | .classOptions => fun _ _ => True

/-- A meaning of the productions that keeps to the contracts, that only adds reports, and
that answers as the language does. -/
structure Vouching (transcript : Transcript) (grammar : Grammar) : Prop where
  declares : grammar.Declares
  lawful : Lawful transcript.source transcript.declared grammar language
  vouches (production : Production) (state : State) :
    Vouches transcript (grammar.parse production) state (production.Vouched transcript state)

namespace Vouching

variable {grammar : Grammar} {state : State}

/-- Of most words only the nodes matter. -/
theorem word (vouching : Vouching transcript grammar) :
    Vouches transcript (grammar.word .word) state
      fun result _ => ∀ value ∈ result, AllVouched transcript value.nodes :=
  (vouching.vouches (.word .word) state).mono fun _ _ known value found =>
    (known value found).nodes

/-- Where an expression is closed, it does not matter what stands behind it. -/
theorem closed (vouching : Vouching transcript grammar) :
    Vouches transcript (grammar.expression .lowest) state
      fun result _ => ∀ value ∈ result, AllVouched transcript value.nodes :=
  (vouching.vouches (.expression .lowest) state).mono fun _ _ known value found =>
    (known value found).nodes

end Vouching

end Parser

end IRule
