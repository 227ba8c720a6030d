import IRule.Parser.Basic
import IRule.Proofs.Parser.Run
import IRule.Proofs.Parser.Standing
import IRule.Proofs.Parser.Rearranging

/-!
# Declaring variables

`Growth` relates the states before and after a construct, whatever state it was
started in and however it ended: declared variables stay declared, and none of them
is reported as undeclared. `Grows` says that a computation, if it ends, ends after
growth, and what is known of its result then. `Declares` asks of every production
that the variables assigned in its result are declared when it ends.
-/

namespace IRule

/-- Only undeclared variables are reported as such. -/
theorem Problem.code_ne_undeclaredVariable {problem : Problem}
    (plain : ∀ name, problem ≠ .undeclaredVariable name) : problem.code ≠ .undeclaredVariable := by
  cases problem with
  | undeclaredVariable name => exact absurd rfl (plain name)
  | expected what => cases what <;> simp [code, Expectation.code]
  | unclosed what => cases what <;> simp [code, Unclosed.code]
  | _ => simp [code]

/-- The report of an undeclared variable names it. -/
theorem Problem.undeclaredVariable_inj {first second : String} {line other : Nat}
    (same : (Problem.undeclaredVariable first).diagnostic line =
      (Problem.undeclaredVariable second).diagnostic other) : first = second := by
  have messages := congrArg Diagnostic.message same
  simp only [diagnostic, Diagnostic.error_message] at messages
  have text :
      "undeclared variable '$" ++ first ++ "'" = "undeclared variable '$" ++ second ++ "'" :=
    messages
  simpa [← String.toList_inj] using text

namespace Naming

/-- Names that are all there change nothing. -/
theorem addAll_eq_self_iff {names more : List String} :
    addAll names more = names ↔ more ⊆ names := by
  constructor
  · intro same
    have added := added_subset_addAll names more
    rwa [same] at added
  · intro known
    induction more with
    | nil => rfl
    | cons name more ih =>
      obtain ⟨here, later⟩ := List.cons_subset.1 known
      have there : add names name = names := if_pos (List.contains_iff_mem.2 here)
      have unfolded : addAll names (name :: more) = addAll (add names name) more := rfl
      rw [unfolded, there, ih later]

end Naming

namespace Parser

/-- None of the problems is about one of the variables being undeclared. -/
def Spares (names : List String) (problems : List Diagnostic) : Prop :=
  ∀ name ∈ names, ∀ line, (Problem.undeclaredVariable name).diagnostic line ∉ problems

/-- A diagnostic with another code is about no undeclared variable. -/
theorem spares_code {names : List String} {diagnostic : Diagnostic}
    (plain : diagnostic.code ≠ .undeclaredVariable) : Spares names [diagnostic] := by
  intro name _ line reported
  obtain rfl := List.mem_singleton.1 reported
  exact plain (by simp [Problem.diagnostic, Problem.code])

/-- So is one of another problem. -/
theorem spares_problem {names : List String} {problem : Problem} {line : Nat}
    (plain : ∀ name, problem ≠ .undeclaredVariable name) :
    Spares names [problem.diagnostic line] :=
  spares_code (by
    rw [Problem.diagnostic, Diagnostic.error_code]
    exact Problem.code_ne_undeclaredVariable plain)

/-- What a construct does to the declared variables. -/
structure Growth (first last : State) : Prop where
  declared : first.declared ⊆ last.declared
  reported : ∃ fresh, last.diagnostics = first.diagnostics ++ fresh ∧ Spares first.declared fresh

namespace Growth

variable {first middle last : State}

/-- Nothing is reported, and variables are at most added. -/
theorem of_quiet (declared : first.declared ⊆ last.declared)
    (quiet : last.diagnostics = first.diagnostics) : Growth first last :=
  ⟨declared, [], by simp [quiet], by simp [Spares]⟩

theorem refl (state : State) : Growth state state :=
  .of_quiet (List.Subset.refl _) rfl

/-- Growth from state to state is growth from the first to the last. -/
theorem trans (left : Growth first middle) (right : Growth middle last) : Growth first last where
  declared := List.Subset.trans left.declared right.declared
  reported := by
    obtain ⟨before, sameBefore, sparedBefore⟩ := left.reported
    obtain ⟨after, sameAfter, sparedAfter⟩ := right.reported
    refine ⟨before ++ after, by simp [sameAfter, sameBefore], fun name known line reported => ?_⟩
    rcases List.mem_append.1 reported with reported | reported
    · exact sparedBefore name known line reported
    · exact sparedAfter name (left.declared known) line reported

theorem advance (state : State) : Growth state state.advance :=
  .of_quiet (List.Subset.refl _) rfl

/-- What was declared stays declared. -/
theorem keeps {names : List String} (growth : Growth first last)
    (known : names ⊆ first.declared) : names ⊆ last.declared :=
  List.Subset.trans known growth.declared

/-- One more expression, if it was kept, in front of those that were read later. -/
theorem collect {result : Option Expression} {later : List Expression}
    (growth : Growth first last) (known : ∀ value ∈ result, targetsIn value.nodes ⊆ first.declared)
    (rest : targetsIn (nodesOf later) ⊆ last.declared) :
    targetsIn (nodesOf (result.toList ++ later)) ⊆ last.declared := by
  rw [nodesOf_append, targetsIn_append, List.append_subset]
  exact ⟨growth.keeps (targetsIn_toList.2 known), rest⟩

/-- One more statement, if it was kept, in front of those that were read later. -/
theorem collectStatement {result : Option Statement} {later : List Statement}
    (growth : Growth first last) (known : ∀ value ∈ result, targetsIn value.nodes ⊆ first.declared)
    (rest : targetsIn (statementNodes later) ⊆ last.declared) :
    targetsIn (statementNodes (result.toList ++ later)) ⊆ last.declared := by
  cases result with
  | none => exact rest
  | some statement => simpa using ⟨growth.keeps (known statement rfl), rest⟩

/-- A report spares the variables that are declared. -/
theorem record {state : State} {diagnostic : Diagnostic}
    (spared : Spares state.declared [diagnostic]) : Growth state (state.record diagnostic) :=
  ⟨List.Subset.refl _, [diagnostic], rfl, spared⟩

end Growth

/-! ## Computations -/

/-- If the computation ends, it ends after growth, and the result is known to be as
described. -/
def Grows {α : Type} (action : Parse α) (state : State) (known : α → State → Prop) : Prop :=
  ∀ result last, action state = some (result, last) → Growth state last ∧ known result last

namespace Grows

variable {α β : Type} {state : State}

theorem pure {value : α} {known : α → State → Prop} (holds : known value state) :
    Grows (Pure.pure value) state known := by
  intro result last runs
  cases runs
  exact ⟨.refl state, holds⟩

/-- What is known of the result may be weakened, with the growth at hand. -/
theorem mono {action : Parse α} {known better : α → State → Prop} (grows : Grows action state known)
    (implies : ∀ result last, Growth state last → known result last → better result last) :
    Grows action state better := by
  intro result last runs
  obtain ⟨growth, holds⟩ := grows result last runs
  exact ⟨growth, implies result last growth holds⟩

theorem trivial {action : Parse α} {known : α → State → Prop} (grows : Grows action state known) :
    Grows action state fun _ _ => True :=
  grows.mono fun _ _ _ _ => True.intro

/-- The second part starts after the growth of the first. -/
theorem bind {action : Parse α} {next : α → Parse β} {known : α → State → Prop}
    {final : β → State → Prop} (grows : Grows action state known)
    (goesOn : ∀ value middle, Growth state middle → known value middle →
      Grows (next value) middle final) : Grows (action >>= next) state final := by
  intro result last runs
  obtain ⟨value, middle, left, right⟩ := bind_eq_some runs
  obtain ⟨growth, holds⟩ := grows value middle left
  obtain ⟨onward, ends⟩ := goesOn value middle growth holds result last right
  exact ⟨growth.trans onward, ends⟩

/-- A construct that is given up with the one it needs. -/
theorem keep {action : Parse (Option α)} {next : Option α → Parse (Option β)}
    {known : α → State → Prop} {final : β → State → Prop}
    (grows : Grows action state fun result last => ∀ value ∈ result, known value last)
    (absent : next none = Pure.pure none)
    (goesOn : ∀ value middle, Growth state middle → known value middle →
      Grows (next (some value)) middle fun result last => ∀ value ∈ result, final value last) :
    Grows (action >>= next) state fun result last => ∀ value ∈ result, final value last := by
  refine grows.bind fun value middle growth holds => ?_
  cases value with
  | none =>
    rw [absent]
    exact .pure (by simp)
  | some value => exact goesOn value middle growth (holds value rfl)

/-- What is made of a result that was kept. -/
theorem mapped {action : Parse (Option α)} {build : α → β} {known : α → State → Prop}
    {final : β → State → Prop}
    (grows : Grows action state fun result last => ∀ value ∈ result, known value last)
    (implies : ∀ value last, Growth state last → known value last → final (build value) last) :
    Grows (action >>= fun result => Pure.pure (result.map build)) state
      fun result last => ∀ value ∈ result, final value last := by
  refine grows.bind fun result middle growth holds => .pure ?_
  simpa using fun value found => implies value middle growth (holds value found)

/-! ### Looking at the state -/

section Look

variable {final : β → State → Prop}

@[simp]
theorem get_bind {next : State → Parse β} :
    Grows (get >>= next) state final ↔ Grows (next state) state final := Iff.rfl

@[simp]
theorem current_bind {next : Token → Parse β} :
    Grows (current >>= next) state final ↔ Grows (next state.current) state final := Iff.rfl

@[simp]
theorem lookahead_bind {next : Token → Parse β} :
    Grows (lookahead >>= next) state final ↔ Grows (next state.lookahead) state final := Iff.rfl

@[simp]
theorem endsCommand_bind {next : Bool → Parse β} :
    Grows (endsCommand >>= next) state final ↔ Grows (next state.endsCommand) state final := Iff.rfl

@[simp]
theorem isAhead_bind {kind : TokenKind} {next : Bool → Parse β} :
    Grows (isAhead kind >>= next) state final ↔
      Grows (next (state.lookahead.kind == kind)) state final := Iff.rfl

end Look

/-! ### Changing the state -/

/-- An action that always gives one result and one state. -/
theorem run {action : Parse α} {value : α} {changed : State} {known : α → State → Prop}
    (runs : action state = some (value, changed)) (growth : Growth state changed)
    (holds : known value changed) : Grows action state known := by
  intro result last ends
  obtain ⟨rfl, rfl⟩ : value = result ∧ changed = last := by simpa [runs] using ends
  exact ⟨growth, holds⟩

section Change

variable {next : Unit → Parse β} {final : β → State → Prop}

/-- Going on after such an action. -/
theorem run_bind {action : Parse α} {value : α} {changed : State} {next : α → Parse β}
    (runs : action state = some (value, changed)) (growth : Growth state changed)
    (goesOn : Grows (next value) changed final) : Grows (action >>= next) state final := by
  intro result last ends
  obtain ⟨_, _, left, right⟩ := bind_eq_some ends
  rw [runs] at left
  cases left
  obtain ⟨onward, holds⟩ := goesOn result last right
  exact ⟨growth.trans onward, holds⟩

theorem advance_bind (goesOn : Grows (next ()) state.advance final) :
    Grows (advance >>= next) state final :=
  run_bind rfl (.advance state) goesOn

/-- Going on after a report. -/
theorem record_bind {action : Parse Unit} {diagnostic : Diagnostic}
    (runs : action state = some ((), state.record diagnostic))
    (spared : Spares state.declared [diagnostic])
    (goesOn : Grows (next ()) (state.record diagnostic) final) :
    Grows (action >>= next) state final :=
  run_bind runs (.record spared) goesOn

/-- A construct is given up after a report. -/
theorem giveUp {action : Parse Unit} {diagnostic : Diagnostic} {known : α → State → Prop}
    (runs : action state = some ((), state.record diagnostic))
    (spared : Spares state.declared [diagnostic]) :
    Grows (action >>= fun _ => Pure.pure none) state
      fun result last => ∀ value ∈ result, known value last :=
  record_bind runs spared (pure (by simp))

/-- A report spares the variables that are declared. -/
theorem record {action : Parse Unit} {diagnostic : Diagnostic}
    (runs : action state = some ((), state.record diagnostic))
    (spared : Spares state.declared [diagnostic]) : Grows action state fun _ _ => True :=
  run runs (.record spared) True.intro

end Change

/-- A variable that is declared is declared from then on. -/
theorem declare (name : Option String) :
    Grows (Parser.declare name) state fun _ last => name.toList ⊆ last.declared := by
  cases name with
  | none => exact pure (by simp)
  | some name =>
    have there : name ∈ (state.declare name).declared := Naming.self_mem_add _ _
    exact run rfl (.of_quiet (fun _ inside => Naming.mem_add inside) rfl) (by simpa using there)

/-! ### Branches -/

theorem ite {condition : Prop} [Decidable condition] {action other : Parse α}
    {known : α → State → Prop} (yes : condition → Grows action state known)
    (no : ¬condition → Grows other state known) :
    Grows (if condition then action else other) state known := by
  by_cases holds : condition
  · simpa only [if_pos holds] using yes holds
  · simpa only [if_neg holds] using no holds

section Check

variable {condition : Prop} [Decidable condition] {action : Parse Unit} {next : Unit → Parse β}
  {final : β → State → Prop}

/-- A check that does something when its condition holds. Whatever comes next comes
next in both cases. -/
theorem check (checked : condition → Grows action state fun _ _ => True)
    (goesOn : ∀ middle, Growth state middle → Grows (next ()) middle final) :
    Grows (if condition then action >>= next else next ()) state final :=
  ite (fun holds => (checked holds).bind fun _ middle growth _ => goesOn middle growth)
    fun _ => goesOn state (.refl state)

/-- A check that does something unless its condition holds. -/
theorem checkUnless (checked : ¬condition → Grows action state fun _ _ => True)
    (goesOn : ∀ middle, Growth state middle → Grows (next ()) middle final) :
    Grows (if condition then next () else action >>= next) state final :=
  ite (fun _ => goesOn state (.refl state))
    fun fails => (checked fails).bind fun _ middle growth _ => goesOn middle growth

end Check

/-! ### Constructs -/

/-- What is known in terms of the declared variables holds around a construct. -/
theorem within {nesting : Nesting} {body : Parse α} (known : α → List String → Prop)
    (inner : Grows body (state.enter nesting) fun result last => known result last.declared) :
    Grows (within nesting body) state fun result last => known result last.declared := by
  intro result last runs
  obtain ⟨_, _, entered, runs⟩ := bind_eq_some runs
  cases entered
  obtain ⟨_, inside, body, runs⟩ := bind_eq_some runs
  obtain ⟨_, _, left, runs⟩ := bind_eq_some runs
  cases left
  cases runs
  obtain ⟨growth, holds⟩ := inner _ inside body
  exact ⟨⟨growth.declared, growth.reported⟩, holds⟩

/-- Scopes have nothing to do with variables. -/
theorem inScope {body : Parse α} {build : α → β} (known : β → List String → Prop)
    (inner : Grows body { state with scopes := state.scopes.enter }
      fun result last => known (build result) last.declared) :
    Grows
      (do
        modify fun state => { state with scopes := state.scopes.enter }
        let value ← body
        modify fun state => { state with scopes := state.scopes.leave }
        return build value)
      state fun result last => known result last.declared := by
  intro result last runs
  obtain ⟨_, _, entered, runs⟩ := bind_eq_some runs
  cases entered
  obtain ⟨value, inside, left, runs⟩ := bind_eq_some runs
  obtain ⟨_, _, closed, runs⟩ := bind_eq_some runs
  cases closed
  cases runs
  obtain ⟨growth, holds⟩ := inner value inside left
  exact ⟨⟨growth.declared, growth.reported⟩, holds⟩

/-- Reading a snippet changes nothing outside of it. -/
theorem isolated {snippet : State} {body : Parse α} {known : α → State → Prop}
    (inner : Grows body snippet known) :
    Grows (isolated snippet body) state fun result last =>
      last = state ∧ Growth snippet result.2 ∧ known result.1 result.2 := by
  intro result last runs
  obtain ⟨⟨value, inside⟩, left, same⟩ := Option.map_eq_some_iff.1 runs
  cases same
  obtain ⟨growth, holds⟩ := inner value inside left
  exact ⟨.refl state, rfl, growth, holds⟩

end Grows

/-! ## Contracts -/

/-- What the first token says about a word: no literal name starts with a bracket, a
name that is one word keeps its token, and a list starts with a brace. -/
structure StartsAt (token : Token) (value : Expression) : Prop where
  literal : value.isLiteral → token.kind ≠ .openBracket
  name : ∀ first text reserved, value = .identifier first text false reserved → first = token
  list : ∀ first elements, value = .list first elements → token.kind = .openBrace

/-- What is known of the result of a production that started in a state. -/
@[simp]
def Production.Declared (first : State) :
    (production : Production) → production.Result → State → Prop
  | .script | .blockBody _ => fun statements last =>
    targetsIn (statementNodes statements) ⊆ last.declared
  | .statement | .conditional => fun result last =>
    ∀ statement ∈ result, targetsIn statement.nodes ⊆ last.declared
  | .cases _ _ => fun arms last => targetsIn (caseNodes arms) ⊆ last.declared
  | .commandOrExpression => fun result last =>
    ∀ value ∈ result, targetsIn value.nodes ⊆ last.declared
  | .expression _ => fun result last =>
    ∀ value ∈ result, targetsIn value.nodes ⊆ last.declared ∧ value.isSetWord = false
  | .operatorChain left _ => fun result last => ∀ value ∈ result,
    targetsIn value.nodes ⊆ targetsIn left.nodes ++ last.declared ∧
      (left.isSetWord = false → value.isSetWord = false)
  | .word _ => fun result last =>
    ∀ value ∈ result, targetsIn value.nodes ⊆ last.declared ∧ StartsAt first.current value
  | .callArguments | .arguments | .regsubArguments _ | .bracketCommands _ | .listElements
  | .substitutionCommands => fun values last => targetsIn (nodesOf values) ⊆ last.declared
  | .pieces _ => fun pieces last => targetsIn (nodesOf (pieces.map Prod.fst)) ⊆ last.declared
  | .hashPairs => fun pairs last => targetsIn (pairNodes pairs) ⊆ last.declared
  | _ => fun _ _ => True

/-- Every production keeps to its contract. -/
def Grammar.Declares (grammar : Grammar) : Prop :=
  ∀ production state, Grows (grammar.parse production) state (production.Declared state)

end Parser

end IRule
