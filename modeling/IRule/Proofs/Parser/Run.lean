import IRule.Proofs.Parser.Coherence
import IRule.Proofs.Script.Validity

/-!
# Runs of the parser

`Passage` relates the states before and after a construct: steps lead from one
to the other, and everything that was opened on the way has been closed again.
`Reads` says of two computations that they end, alike and after a passage, and
that the result is good unless a problem was reported. Both are closed under
the ways in which the rules of the grammar are put together.
-/

namespace IRule

/-- A declaration that is not refused. -/
theorem Scopes.declare_ok {scopes later : Scopes} {set : Exclusives}
    (allowed : scopes.declare set = .ok later) :
    scopes.current.inter set.rivals = .empty ∧
      later = { scopes with current := scopes.current.union set } := by
  simp only [Scopes.declare] at allowed
  split at allowed
  · exact ⟨‹_›, (Except.ok.inj allowed).symm⟩
  · exact absurd allowed (by simp)

/-- Declaring a single command keeps a scope free of rivals. -/
theorem Scopes.declare_compatible {scopes later : Scopes} {set : Exclusives}
    (single : set ∈ Parser.singleExclusives) (allowed : scopes.declare set = .ok later)
    (compatible : scopes.current.Compatible) : later.current.Compatible := by
  obtain ⟨noRival, rfl⟩ := declare_ok allowed
  obtain ⟨targets, answers⟩ := compatible
  simp only [Parser.singleExclusives, List.mem_cons, List.not_mem_nil, or_false] at single
  rcases single with rfl | rfl | rfl | rfl <;>
    simp_all [Exclusives.inter, Exclusives.rivals, Exclusives.empty] <;>
    constructor <;> simp_all [Exclusives.union]

@[simp]
theorem Diagnostic.error_code (code : Code) (message : String) (line : Nat) :
    (Diagnostic.error code message line).code = code := by
  simp only [error, atLine]
  split <;> rfl

@[simp]
theorem Diagnostic.error_message (code : Code) (message : String) (line : Nat) :
    (Diagnostic.error code message line).message = message := by
  simp only [error, atLine]
  split <;> rfl

/-- Open braces are reported by one problem only. -/
theorem Problem.diagnostic_code_ne (problem : Problem)
    (plain : ∀ depth, problem ≠ .unbalanced depth) (line : Nat) :
    (problem.diagnostic line).code ≠ .unbalancedBraces := by
  rw [diagnostic, Diagnostic.error_code]
  cases problem with
  | unbalanced depth => exact absurd rfl (plain depth)
  | expected what => cases what <;> simp [code, Expectation.code]
  | unclosed what => cases what <;> simp [code, Unclosed.code]
  | _ => simp [code]

/-- No lexical error is about open braces. -/
theorem LexicalError.diagnostic_code_ne (error : LexicalError) :
    error.diagnostic.code ≠ .unbalancedBraces := by
  simp only [diagnostic, Diagnostic.error_code]
  cases error.fault <;> simp [LexicalFault.code]

namespace Parser

/-- A construct was read: what it opened is closed, and the scope it stands in
has only gained commands. -/
structure Passage (first last : State) : Prop where
  steps : Steps first last
  nesting : last.nesting = first.nesting
  outer : last.scopes.outer = first.scopes.outer
  kept : first.scopes.current.Within last.scopes.current
  compatible : first.scopes.current.Compatible → last.scopes.current.Compatible

namespace Passage

variable {first middle last : State}

theorem refl (state : State) : Passage state state :=
  ⟨.refl, rfl, rfl, .refl _, id⟩

theorem trans (left : Passage first middle) (right : Passage middle last) : Passage first last where
  steps := left.steps.trans right.steps
  nesting := right.nesting.trans left.nesting
  outer := right.outer.trans left.outer
  kept := left.kept.trans right.kept
  compatible := right.compatible ∘ left.compatible

/-- Steps that open and close nothing. -/
theorem of_step (step : Step first last) (nesting : last.nesting = first.nesting)
    (scopes : last.scopes = first.scopes) : Passage first last where
  steps := .single step
  nesting := nesting
  outer := by rw [scopes]
  kept := by rw [scopes]; exact .refl _
  compatible := by rw [scopes]; exact id

theorem advance (state : State) : Passage state state.advance :=
  .of_step (.advance state) rfl rfl

theorem exclude {state : State} {set : Exclusives} {scopes : Scopes}
    (single : set ∈ singleExclusives) (allowed : state.scopes.declare set = .ok scopes) :
    Passage state { state with scopes := scopes } := by
  have step : Step state { state with scopes := scopes } := .exclude single allowed
  obtain ⟨-, rfl⟩ := Scopes.declare_ok allowed
  refine ⟨.single step, rfl, rfl, ?_, Scopes.declare_compatible single allowed⟩
  constructor <;> simp +contextual [Exclusives.union]

/-- A passage inside a construct is a passage around it. -/
theorem within {state : State} {nesting : Nesting} (inner : Passage (state.enter nesting) last) :
    Passage state last.leave where
  steps := .head (.enter state nesting) (inner.steps.tail (.leave last))
  nesting := by simp [State.leave, inner.nesting, State.enter]
  outer := inner.outer
  kept := inner.kept
  compatible := inner.compatible

/-- A passage inside a scope is a passage around it. -/
theorem inScope {state : State}
    (inner : Passage { state with scopes := state.scopes.enter } last) :
    Passage state { last with scopes := last.scopes.leave } := by
  have restored : last.scopes.leave = state.scopes := by
    simp [Scopes.leave, inner.outer, Scopes.enter]
  refine ⟨.head (.openScope state) (inner.steps.tail (.closeScope last)), inner.nesting, ?_, ?_, ?_⟩
  · simp [restored]
  · simpa [restored] using Exclusives.Within.refl _
  · simp [restored]

theorem coherent (passage : Passage first last) (coherent : first.Coherent) : last.Coherent :=
  Steps.coherent passage.steps coherent

theorem source_eq (passage : Passage first last) : last.source = first.source :=
  Steps.source_eq passage.steps

theorem start_le (passage : Passage first last) (coherent : first.Coherent) :
    first.current.span.start ≤ last.current.span.start :=
  Steps.start_le passage.steps coherent

end Passage

/-- Nothing was reported between two states. -/
def Quiet (first last : State) : Prop :=
  last.diagnostics = first.diagnostics

/-- Nothing was reported on the whole way, so nothing was on either part. -/
theorem Quiet.parts {first middle last : State} (quiet : Quiet first last)
    (before : first.diagnostics <+: middle.diagnostics)
    (after : middle.diagnostics <+: last.diagnostics) :
    Quiet first middle ∧ Quiet middle last := by
  rw [quiet] at after
  have same := before.eq_of_length_le after.length_le
  exact ⟨same.symm, quiet.trans same⟩

theorem Quiet.split {first middle last : State} (quiet : Quiet first last)
    (left : Steps first middle) (right : Steps middle last) :
    Quiet first middle ∧ Quiet middle last :=
  quiet.parts (Steps.diagnostics_prefix left) (Steps.diagnostics_prefix right)

/-- What a sequence of computations gives comes from its parts. -/
theorem bind_eq_some {α β : Type} {first : Parse α} {next : α → Parse β} {state : State}
    {result : β × State} (runs : (first >>= next) state = some result) :
    ∃ value middle, first state = some (value, middle) ∧ next value middle = some result := by
  obtain ⟨⟨value, middle⟩, left, right⟩ := Option.bind_eq_some_iff.1 runs
  exact ⟨value, middle, left, right⟩

/-- A sequence of computations goes on where its first part ended. -/
theorem bind_apply {α β : Type} {first : Parse α} {next : α → Parse β} {state middle : State}
    {value : α} (runs : first state = some (value, middle)) :
    (first >>= next) state = next value middle :=
  congrArg (Option.bind · _) runs

section Look

variable {β : Type} {state : State}

theorem get_bind_apply {next : State → Parse β} : (get >>= next) state = next state state := rfl

theorem current_bind_apply {next : Token → Parse β} :
    (current >>= next) state = next state.current state := rfl

theorem isAhead_bind_apply {kind : TokenKind} {next : Bool → Parse β} :
    (isAhead kind >>= next) state = next (state.lookahead.kind == kind) state := rfl

theorem advance_bind_apply {next : Unit → Parse β} :
    (advance >>= next) state = next () state.advance := rfl

end Look

/-- Both computations end, with the same result and in the same state. Unless a
problem was reported on the way, the result is good. -/
def Reads {α : Type} (first second : Parse α) (state : State) (good : α → State → Prop) : Prop :=
  ∃ result last, first state = some (result, last) ∧ second state = some (result, last) ∧
    Passage state last ∧ (Quiet state last → good result last)

namespace Reads

variable {α β : Type} {state : State}

theorem pure {value : α} {good : α → State → Prop} (holds : good value state) :
    Reads (Pure.pure value) (Pure.pure value) state good :=
  ⟨value, state, rfl, rfl, .refl state, fun _ => holds⟩

theorem mono {first second : Parse α} {good better : α → State → Prop}
    (reads : Reads first second state good)
    (implies : ∀ result last, Passage state last → good result last → better result last) :
    Reads first second state better := by
  obtain ⟨result, last, left, right, passage, holds⟩ := reads
  exact ⟨result, last, left, right, passage, fun quiet => implies _ _ passage (holds quiet)⟩

/-- What a first computation was good for may be used when the second has ended:
a problem in the first is a problem of both. -/
theorem bind {first second : Parse α} {good : α → State → Prop} {next later : α → Parse β}
    {final : β → State → Prop} (reads : Reads first second state good)
    (goesOn : ∀ value middle, Passage state middle →
      Reads (next value) (later value) middle fun result last =>
        good value middle → final result last) :
    Reads (first >>= next) (second >>= later) state final := by
  obtain ⟨value, middle, left, right, passage, holds⟩ := reads
  obtain ⟨result, last, nextLeft, nextRight, onward, ends⟩ := goesOn value middle passage
  refine ⟨result, last, ?_, ?_, passage.trans onward, fun quiet => ?_⟩
  · exact (congrArg (Option.bind · _) left).trans nextLeft
  · exact (congrArg (Option.bind · _) right).trans nextRight
  · obtain ⟨before, after⟩ := quiet.split passage.steps onward.steps
    exact ends after (holds before)

/-- A computation that may give nothing goes on in one of two ways. -/
theorem bindOption {first second : Parse (Option α)} {good : Option α → State → Prop}
    {next later : Option α → Parse β} {final : β → State → Prop}
    (reads : Reads first second state good)
    (absent : ∀ middle, Passage state middle →
      Reads (next none) (later none) middle fun result last => good none middle → final result last)
    (present : ∀ value middle, Passage state middle →
      Reads (next (some value)) (later (some value)) middle fun result last =>
        good (some value) middle → final result last) :
    Reads (first >>= next) (second >>= later) state final := by
  refine reads.bind fun value middle passage => ?_
  cases value with
  | none => exact absent middle passage
  | some value => exact present value middle passage

/-! ### Looking at the state -/

section Look

variable {next later : State → Parse β} {final : β → State → Prop}

@[simp]
theorem get_bind : Reads (get >>= next) (get >>= later) state final ↔
    Reads (next state) (later state) state final := Iff.rfl

end Look

section Look

variable {next later : Token → Parse β} {final : β → State → Prop}

@[simp]
theorem current_bind : Reads (current >>= next) (current >>= later) state final ↔
    Reads (next state.current) (later state.current) state final := Iff.rfl

@[simp]
theorem lookahead_bind : Reads (lookahead >>= next) (lookahead >>= later) state final ↔
    Reads (next state.lookahead) (later state.lookahead) state final := Iff.rfl

end Look

section Look

variable {next later : Bool → Parse β} {final : β → State → Prop}

@[simp]
theorem endsCommand_bind : Reads (endsCommand >>= next) (endsCommand >>= later) state final ↔
    Reads (next state.endsCommand) (later state.endsCommand) state final := Iff.rfl

@[simp]
theorem isAhead_bind {kind : TokenKind} :
    Reads (isAhead kind >>= next) (isAhead kind >>= later) state final ↔
      Reads (next (state.lookahead.kind == kind)) (later (state.lookahead.kind == kind))
        state final := Iff.rfl

end Look

/-! ### Changing the state -/

/-- An action that always gives one result and one state. -/
theorem run_bind {action : Parse α} {value : α} {changed : State} {next later : α → Parse β}
    {final : β → State → Prop} (runs : action state = some (value, changed))
    (passage : Passage state changed)
    (goesOn : Reads (next value) (later value) changed fun result last =>
      Quiet state changed → final result last) :
    Reads (action >>= next) (action >>= later) state final := by
  obtain ⟨result, last, left, right, onward, ends⟩ := goesOn
  refine ⟨result, last, ?_, ?_, passage.trans onward, fun quiet => ?_⟩
  · exact (congrArg (Option.bind · _) runs).trans left
  · exact (congrArg (Option.bind · _) runs).trans right
  · obtain ⟨before, after⟩ := quiet.split passage.steps onward.steps
    exact ends after before

section Change

variable {next later : Unit → Parse β} {final : β → State → Prop}

theorem advance_bind (goesOn : Reads (next ()) (later ()) state.advance final) :
    Reads (advance >>= next) (advance >>= later) state final :=
  run_bind rfl (.advance state) (goesOn.mono fun _ _ _ holds _ => holds)

/-- Nothing has to be good after a report. -/
theorem record_bind {action : Parse Unit} {diagnostic : Diagnostic}
    (runs : action state = some ((), state.record diagnostic))
    (code : diagnostic.code ≠ .unbalancedBraces)
    (goesOn : ∀ middle, Passage state middle →
      Reads (next ()) (later ()) middle fun _ _ => True) :
    Reads (action >>= next) (action >>= later) state final := by
  have passage : Passage state (state.record diagnostic) :=
    .of_step (.record state code) rfl rfl
  refine run_bind runs passage ((goesOn _ passage).mono fun _ _ _ _ quiet => ?_)
  simp [Quiet, State.record] at quiet

variable {problem : Problem} {line : Nat}

theorem report_bind (plain : ∀ depth, problem ≠ .unbalanced depth)
    (goesOn : ∀ middle, Passage state middle →
      Reads (next ()) (later ()) middle fun _ _ => True) :
    Reads (report problem line >>= next) (report problem line >>= later) state final :=
  record_bind rfl (problem.diagnostic_code_ne plain line) goesOn

theorem reportHere_bind (plain : ∀ depth, problem ≠ .unbalanced depth)
    (goesOn : ∀ middle, Passage state middle →
      Reads (next ()) (later ()) middle fun _ _ => True) :
    Reads (reportHere problem >>= next) (reportHere problem >>= later) state final :=
  record_bind rfl (problem.diagnostic_code_ne plain _) goesOn

theorem reportAhead_bind {problem : String → Problem}
    (plain : ∀ text depth, problem text ≠ .unbalanced depth)
    (goesOn : ∀ middle, Passage state middle →
      Reads (next ()) (later ()) middle fun _ _ => True) :
    Reads (reportAhead problem >>= next) (reportAhead problem >>= later) state final :=
  record_bind rfl (Problem.diagnostic_code_ne _ (plain _) _) goesOn

end Change

section Report

variable {good : Unit → State → Prop}

/-- Nothing has to be good when a problem is reported. -/
theorem report {problem : Problem} {line : Nat} (plain : ∀ depth, problem ≠ .unbalanced depth) :
    Reads (Parser.report problem line) (Parser.report problem line) state good :=
  report_bind plain fun _ _ => pure trivial

theorem reportHere {problem : Problem} (plain : ∀ depth, problem ≠ .unbalanced depth) :
    Reads (Parser.reportHere problem) (Parser.reportHere problem) state good :=
  reportHere_bind plain fun _ _ => pure trivial

theorem reportAhead {problem : String → Problem}
    (plain : ∀ text depth, problem text ≠ .unbalanced depth) :
    Reads (Parser.reportAhead problem) (Parser.reportAhead problem) state good :=
  reportAhead_bind plain fun _ _ => pure trivial

end Report

/-- An illegal token is reported, and nothing is made of it. -/
theorem reportIllegal {value : α} {good : α → State → Prop} :
    Reads (reportIllegal >>= fun _ => Pure.pure value) (reportIllegal >>= fun _ => Pure.pure value)
      state good := by
  refine record_bind rfl ?_ fun _ _ => pure trivial
  split
  · exact LexicalError.diagnostic_code_ne _
  · simp

theorem declare (name : Option String) :
    Reads (Parser.declare name) (Parser.declare name) state fun _ _ => True := by
  cases name with
  | none => exact pure trivial
  | some name =>
    exact ⟨(), _, rfl, rfl, .of_step (.declare state [name]) rfl rfl, fun _ => trivial⟩

/-! ### Branches -/

theorem ite {condition : Prop} [Decidable condition] {first second other another : Parse α}
    {good : α → State → Prop} (yes : condition → Reads first second state good)
    (no : ¬condition → Reads other another state good) :
    Reads (if condition then first else other) (if condition then second else another)
      state good := by
  by_cases holds : condition
  · simpa only [if_pos holds] using yes holds
  · simpa only [if_neg holds] using no holds

/-- One continuation after either of two computations. -/
theorem iteBind {condition : Prop} [Decidable condition] {first second other another : Parse α}
    {next later : α → Parse β} {good : α → State → Prop} {final : β → State → Prop}
    (reads : Reads (if condition then first else other) (if condition then second else another)
      state good)
    (goesOn : ∀ value middle, Passage state middle →
      Reads (next value) (later value) middle fun result last =>
        good value middle → final result last) :
    Reads (if condition then first >>= next else other >>= next)
      (if condition then second >>= later else another >>= later) state final := by
  by_cases holds : condition
  · simp only [if_pos holds] at reads ⊢
    exact reads.bind goesOn
  · simp only [if_neg holds] at reads ⊢
    exact reads.bind goesOn

section Check

variable {condition : Prop} [Decidable condition] {first second : Parse Unit}
  {next later : Unit → Parse β} {final : β → State → Prop}

/-- A check that does something when its condition holds. Whatever comes next
comes next in both cases. -/
theorem check (passed : Prop) (checked : condition → Reads first second state fun _ _ => passed)
    (otherwise : ¬condition → passed)
    (goesOn : ∀ middle, Passage state middle →
      Reads (next ()) (later ()) middle fun result last => passed → final result last) :
    Reads (if condition then first >>= next else next ())
      (if condition then second >>= later else later ()) state final :=
  ite (fun holds => (checked holds).bind fun _ => goesOn)
    fun fails => (goesOn state (.refl state)).mono fun _ _ _ ends => ends (otherwise fails)

/-- A check that does something unless its condition holds. -/
theorem checkUnless {onward further : Parse β} (passed : Prop) (same : onward = next ())
    (alike : further = later ())
    (checked : ¬condition → Reads first second state fun _ _ => passed)
    (otherwise : condition → passed)
    (goesOn : ∀ middle, Passage state middle →
      Reads onward further middle fun result last => passed → final result last) :
    Reads (if condition then onward else first >>= next)
      (if condition then further else second >>= later) state final := by
  subst same alike
  exact ite (fun holds => (goesOn state (.refl state)).mono fun _ _ _ ends =>
    ends (otherwise holds))
    fun fails => (checked fails).bind fun _ => goesOn

end Check

/-! ### Constructs -/

/-- Reading inside a construct. -/
theorem within {nesting : Nesting} {body other : Parse α} {good : α → State → Prop}
    (inner : Reads body other (state.enter nesting) good) :
    Reads (within nesting body) (within nesting other) state fun result last =>
      ∃ inside, good result inside ∧ last = inside.leave := by
  obtain ⟨result, last, left, right, passage, holds⟩ := inner
  refine ⟨result, last.leave, ?_, ?_, passage.within, fun quiet => ⟨last, holds quiet, rfl⟩⟩
  · exact congrArg (Option.bind · _) left
  · exact congrArg (Option.bind · _) right

/-- Reading inside a scope, which starts empty and never holds rivals. -/
theorem inScope {body other : Parse α} {build : α → β} {good : α → State → Prop}
    (inner : Reads body other { state with scopes := state.scopes.enter } good) :
    Reads
      (do
        modify fun state => { state with scopes := state.scopes.enter }
        let value ← body
        modify fun state => { state with scopes := state.scopes.leave }
        return build value)
      (do
        modify fun state => { state with scopes := state.scopes.enter }
        let value ← other
        modify fun state => { state with scopes := state.scopes.leave }
        return build value)
      state fun result _ => ∃ value inside, result = build value ∧ good value inside ∧
        inside.scopes.current.Compatible := by
  obtain ⟨value, last, left, right, passage, holds⟩ := inner
  refine ⟨build value, _, ?_, ?_, passage.inScope, fun quiet => ?_⟩
  · exact congrArg (Option.bind · _) left
  · exact congrArg (Option.bind · _) right
  · exact ⟨value, last, rfl, holds quiet, passage.compatible Exclusives.empty_compatible⟩

/-- Reading a snippet changes nothing outside of it. -/
theorem isolated {snippet : State} {body other : Parse α} {good : α → State → Prop}
    (inner : Reads body other snippet good) :
    Reads (isolated snippet body) (isolated snippet other) state fun result last =>
      last = state ∧ (Quiet snippet result.2 → good result.1 result.2) := by
  obtain ⟨result, last, left, right, -, holds⟩ := inner
  refine ⟨(result, last), state, ?_, ?_, .refl state, fun _ => ⟨rfl, holds⟩⟩
  · exact congrArg (Option.map _) left
  · exact congrArg (Option.map _) right

end Reads

end Parser

end IRule
