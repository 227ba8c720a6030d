import IRule.Parser.Basic
import IRule.Proofs.Parser.Run

/-!
# Tracking a construct

`Frame` relates the states before and after a construct, whatever state it was
started in and however it ended: the open constructs and the enclosing scopes are
those that were open before, and problems are only added. `Tracks` says of two
computations that the second ends as the first does, inside the frame, and that a
result was kept unless a problem was reported. Unlike `Reads` it does not ask the
first to end, so it holds in every state and for every depth of unfolding.

The second computation may run over a grammar that refuses some calls; that it
still ends in the same way says that the refused calls are never made. `Answers`
allows calls for recovery only where the problems on record permit it.
-/

namespace IRule.Parser

/-- What a construct leaves behind as it was. -/
structure Frame (first last : State) : Prop where
  nesting : last.nesting = first.nesting
  outer : last.scopes.outer = first.scopes.outer
  compatible : first.scopes.current.Compatible → last.scopes.current.Compatible
  checked : last.checkVariables = first.checkVariables
  added : first.diagnostics <+: last.diagnostics

/-- Problems were reported between two states. -/
def Reported (first last : State) : Prop :=
  ∃ problem more, last.diagnostics = first.diagnostics ++ problem :: more

namespace Frame

variable {first middle last : State}

theorem refl (state : State) : Frame state state :=
  ⟨rfl, rfl, id, rfl, List.prefix_rfl⟩

theorem trans (left : Frame first middle) (right : Frame middle last) : Frame first last where
  nesting := right.nesting.trans left.nesting
  outer := right.outer.trans left.outer
  compatible := right.compatible ∘ left.compatible
  checked := right.checked.trans left.checked
  added := left.added.trans right.added

/-- Where only the place in the text, the problems and the variables change. -/
theorem of_scopes (nesting : last.nesting = first.nesting) (scopes : last.scopes = first.scopes)
    (checked : last.checkVariables = first.checkVariables)
    (added : first.diagnostics <+: last.diagnostics) : Frame first last :=
  ⟨nesting, by rw [scopes], by rw [scopes]; exact id, checked, added⟩

theorem advance (state : State) : Frame state state.advance :=
  .of_scopes rfl rfl rfl List.prefix_rfl

theorem record (state : State) (diagnostic : Diagnostic) : Frame state (state.record diagnostic) :=
  .of_scopes rfl rfl rfl (List.prefix_append _ _)

/-- A command that is declared in the innermost scope leaves the outer ones alone. -/
theorem exclude {state : State} {set : Exclusives} {scopes : Scopes}
    (single : set ∈ singleExclusives) (allowed : state.scopes.declare set = .ok scopes) :
    Frame state { state with scopes := scopes } := by
  have outer : scopes.outer = state.scopes.outer := by rw [(Scopes.declare_ok allowed).2]
  exact ⟨rfl, outer, Scopes.declare_compatible single allowed, rfl, List.prefix_rfl⟩

/-- What holds inside a construct holds around it. -/
theorem within {state : State} {nesting : Nesting} (inner : Frame (state.enter nesting) last) :
    Frame state last.leave where
  nesting := by simp [State.leave, inner.nesting, State.enter]
  outer := inner.outer
  compatible := inner.compatible
  checked := inner.checked
  added := inner.added

/-- Leaving a scope restores those that were open before it. -/
theorem leave_scopes {state : State}
    (inner : Frame { state with scopes := state.scopes.enter } last) :
    last.scopes.leave = state.scopes := by
  simp [Scopes.leave, inner.outer, Scopes.enter]

/-- Inside a scope of its own a construct does not change the scope around it. -/
theorem inScope {state : State}
    (inner : Frame { state with scopes := state.scopes.enter } last) :
    Frame state { last with scopes := last.scopes.leave } :=
  .of_scopes inner.nesting inner.leave_scopes inner.checked inner.added

/-- Between two states in the frame problems were added, or none was. -/
theorem reported_or_quiet (frame : Frame first last) : Reported first last ∨ Quiet first last := by
  obtain ⟨fresh, same⟩ := frame.added
  cases fresh with
  | nil => exact .inr (by simp [Quiet, ← same])
  | cons problem more => exact .inl ⟨problem, more, same.symm⟩

end Frame

/-- A report leaves a problem on record. -/
theorem Reported.record (state : State) (diagnostic : Diagnostic) :
    Reported state (state.record diagnostic) :=
  ⟨diagnostic, [], rfl⟩

/-- What was reported is not quiet. -/
theorem Reported.not_quiet {first last : State} (reported : Reported first last) :
    ¬Quiet first last := by
  obtain ⟨problem, more, same⟩ := reported
  simp [Quiet, same]

/-- If the first computation ends, the second ends alike, inside the frame. Unless a
problem was reported on the way, the result was kept. -/
def Tracks {α : Type} (first second : Parse α) (state : State) (kept : α → Prop) : Prop :=
  ∀ result last, first state = some (result, last) →
    second state = some (result, last) ∧ Frame state last ∧ (Quiet state last → kept result)

namespace Tracks

variable {α β : Type} {state : State}

theorem pure {value : α} {kept : α → Prop} (holds : kept value) :
    Tracks (Pure.pure value) (Pure.pure value) state kept := by
  intro result last runs
  cases runs
  exact ⟨rfl, .refl state, fun _ => holds⟩

/-- What is known of a result that was kept may be weakened. -/
theorem mono {first second : Parse α} {kept better : α → Prop}
    (tracks : Tracks first second state kept) (implies : ∀ result, kept result → better result) :
    Tracks first second state better := by
  intro result last runs
  obtain ⟨alike, frame, holds⟩ := tracks result last runs
  exact ⟨alike, frame, fun quiet => implies result (holds quiet)⟩

theorem trivial {first second : Parse α} {kept : α → Prop}
    (tracks : Tracks first second state kept) : Tracks first second state fun _ => True :=
  tracks.mono fun _ _ => True.intro

/-- The first computation kept its result, or problems were reported. When both have
ended without a report, it did keep its result. -/
theorem bind {first second : Parse α} {kept : α → Prop} {next later : α → Parse β}
    {final : β → Prop} (tracks : Tracks first second state kept)
    (goesOn : ∀ value middle, Frame state middle → kept value ∨ Reported state middle →
      Tracks (next value) (later value) middle fun result => kept value → final result) :
    Tracks (first >>= next) (second >>= later) state final := by
  intro result last runs
  obtain ⟨value, middle, left, right⟩ := bind_eq_some runs
  obtain ⟨alike, frame, holds⟩ := tracks value middle left
  have known : kept value ∨ Reported state middle :=
    frame.reported_or_quiet.symm.imp_left holds
  obtain ⟨same, onward, ends⟩ := goesOn value middle frame known result last right
  refine ⟨(congrArg (Option.bind · _) alike).trans same, frame.trans onward, fun quiet => ?_⟩
  -- Problems are only added, so a quiet whole has quiet parts.
  obtain ⟨before, after⟩ := quiet.parts frame.added onward.added
  exact ends after (holds before)

/-- A result about which nothing need be known. -/
theorem andThen {first second : Parse α} {kept : α → Prop} {next later : α → Parse β}
    {final : β → Prop} (tracks : Tracks first second state kept)
    (goesOn : ∀ value middle, Frame state middle →
      Tracks (next value) (later value) middle final) :
    Tracks (first >>= next) (second >>= later) state final :=
  tracks.bind fun value middle frame _ => (goesOn value middle frame).mono fun _ holds _ => holds

/-- A construct is given up with the one that it needs. -/
theorem keep {first second : Parse (Option α)} {next later : Option α → Parse β}
    {nothing : β} {final : β → Prop} (tracks : Tracks first second state (·.isSome))
    (absent : next none = Pure.pure nothing) (alike : later none = Pure.pure nothing)
    (goesOn : ∀ value middle, Frame state middle →
      Tracks (next (some value)) (later (some value)) middle final) :
    Tracks (first >>= next) (second >>= later) state final := by
  refine tracks.bind fun value middle frame _ => ?_
  cases value with
  | none =>
    rw [absent, alike]
    exact .pure (by simp)
  | some value => exact (goesOn value middle frame).mono fun _ holds _ => holds

/-- What is made of a result that was kept. -/
theorem mapped {first second : Parse (Option α)} {build : α → β}
    (tracks : Tracks first second state (·.isSome)) :
    Tracks (first >>= fun value => Pure.pure (value.map build))
      (second >>= fun value => Pure.pure (value.map build)) state (·.isSome) :=
  tracks.bind fun _ _ _ _ => .pure fun kept => Option.isSome_map.trans kept

/-! ### Looking at the state -/

section Look

variable {next later : State → Parse β} {final : β → Prop}

@[simp]
theorem get_bind : Tracks (get >>= next) (get >>= later) state final ↔
    Tracks (next state) (later state) state final := Iff.rfl

end Look

section Look

variable {next later : Token → Parse β} {final : β → Prop}

@[simp]
theorem current_bind : Tracks (current >>= next) (current >>= later) state final ↔
    Tracks (next state.current) (later state.current) state final := Iff.rfl

@[simp]
theorem lookahead_bind : Tracks (lookahead >>= next) (lookahead >>= later) state final ↔
    Tracks (next state.lookahead) (later state.lookahead) state final := Iff.rfl

end Look

section Look

variable {next later : Bool → Parse β} {final : β → Prop}

@[simp]
theorem endsCommand_bind : Tracks (endsCommand >>= next) (endsCommand >>= later) state final ↔
    Tracks (next state.endsCommand) (later state.endsCommand) state final := Iff.rfl

@[simp]
theorem isAhead_bind {kind : TokenKind} :
    Tracks (isAhead kind >>= next) (isAhead kind >>= later) state final ↔
      Tracks (next (state.lookahead.kind == kind)) (later (state.lookahead.kind == kind))
        state final := Iff.rfl

end Look

/-! ### Changing the state -/

/-- An action that always gives one result and one state. -/
theorem run {action : Parse α} {value : α} {changed : State} {kept : α → Prop}
    (runs : action state = some (value, changed)) (frame : Frame state changed)
    (holds : Quiet state changed → kept value) : Tracks action action state kept := by
  intro result last ends
  obtain ⟨rfl, rfl⟩ : value = result ∧ changed = last := by simpa [runs] using ends
  exact ⟨runs, frame, holds⟩

/-- Going on after such an action. -/
theorem run_bind {action : Parse α} {value : α} {changed : State} {next later : α → Parse β}
    {final : β → Prop} (runs : action state = some (value, changed)) (frame : Frame state changed)
    (goesOn : Tracks (next value) (later value) changed fun result =>
      Quiet state changed → final result) :
    Tracks (action >>= next) (action >>= later) state final := by
  intro result last ends
  obtain ⟨_, _, left, right⟩ := bind_eq_some ends
  rw [runs] at left
  cases left
  obtain ⟨alike, onward, holds⟩ := goesOn result last right
  refine ⟨(congrArg (Option.bind · _) runs).trans alike, frame.trans onward, fun quiet => ?_⟩
  obtain ⟨before, after⟩ := quiet.parts frame.added onward.added
  exact holds after before

section Change

variable {next later : Unit → Parse β} {final : β → Prop}

theorem advance_bind (goesOn : Tracks (next ()) (later ()) state.advance final) :
    Tracks (advance >>= next) (advance >>= later) state final :=
  run_bind rfl (.advance state) (goesOn.mono fun _ holds _ => holds)

/-- Nothing has to be kept after a report. -/
theorem record_bind {action : Parse Unit} {diagnostic : Diagnostic}
    (runs : action state = some ((), state.record diagnostic))
    (goesOn : ∀ middle, Frame state middle → Reported state middle →
      Tracks (next ()) (later ()) middle fun _ => True) :
    Tracks (action >>= next) (action >>= later) state final := by
  have reported := Reported.record state diagnostic
  have frame := Frame.record state diagnostic
  refine run_bind runs frame ((goesOn _ frame reported).mono fun _ _ quiet => ?_)
  exact absurd quiet reported.not_quiet

/-- A construct is given up after a report. -/
theorem giveUp {action : Parse Unit} {diagnostic : Diagnostic} {value : β} {kept : β → Prop}
    (runs : action state = some ((), state.record diagnostic)) :
    Tracks (action >>= fun _ => Pure.pure value) (action >>= fun _ => Pure.pure value) state kept :=
  record_bind runs fun _ _ _ => pure True.intro

/-- Nothing has to be kept when a problem is reported. -/
theorem record {action : Parse Unit} {diagnostic : Diagnostic} {kept : Unit → Prop}
    (runs : action state = some ((), state.record diagnostic)) :
    Tracks action action state kept :=
  run runs (.record state diagnostic) fun quiet =>
    absurd quiet (Reported.record state diagnostic).not_quiet

end Change

/-- Declaring a variable is inside the frame. -/
theorem declare (name : Option String) :
    Tracks (Parser.declare name) (Parser.declare name) state fun _ => True := by
  cases name with
  | none => exact pure True.intro
  | some name => exact run rfl (.of_scopes rfl rfl rfl List.prefix_rfl) fun _ => True.intro

/-! ### Branches -/

theorem ite {condition : Prop} [Decidable condition] {first second other another : Parse α}
    {kept : α → Prop} (yes : condition → Tracks first second state kept)
    (no : ¬condition → Tracks other another state kept) :
    Tracks (if condition then first else other) (if condition then second else another)
      state kept := by
  by_cases holds : condition
  · simpa only [if_pos holds] using yes holds
  · simpa only [if_neg holds] using no holds

section Check

variable {condition : Prop} [Decidable condition] {first second : Parse Unit}
  {next later : Unit → Parse β} {final : β → Prop}

/-- A check that does something when its condition holds. Whatever comes next
comes next in both cases. -/
theorem check (checked : condition → Tracks first second state fun _ => True)
    (goesOn : ∀ middle, Frame state middle → Tracks (next ()) (later ()) middle final) :
    Tracks (if condition then first >>= next else next ())
      (if condition then second >>= later else later ()) state final :=
  ite (fun holds => (checked holds).andThen fun _ => goesOn) fun _ => goesOn state (.refl state)

/-- A check that does something unless its condition holds. -/
theorem checkUnless (checked : ¬condition → Tracks first second state fun _ => True)
    (goesOn : ∀ middle, Frame state middle → Tracks (next ()) (later ()) middle final) :
    Tracks (if condition then next () else first >>= next)
      (if condition then later () else second >>= later) state final :=
  ite (fun _ => goesOn state (.refl state)) fun fails => (checked fails).andThen fun _ => goesOn

end Check

/-! ### Constructs -/

theorem within {nesting : Nesting} {body other : Parse α} {kept : α → Prop}
    (inner : Tracks body other (state.enter nesting) kept) :
    Tracks (within nesting body) (within nesting other) state kept := by
  intro result last runs
  obtain ⟨_, _, entered, runs⟩ := bind_eq_some runs
  cases entered
  obtain ⟨_, inside, body, runs⟩ := bind_eq_some runs
  obtain ⟨_, _, left, runs⟩ := bind_eq_some runs
  cases left
  cases runs
  obtain ⟨alike, frame, holds⟩ := inner _ inside body
  exact ⟨congrArg (Option.bind · _) alike, frame.within, holds⟩

/-- Inside a scope of its own a construct does not change the scope around it. -/
theorem inScope {body other : Parse α} {build : α → β} {kept : α → Prop}
    (inner : Tracks body other { state with scopes := state.scopes.enter } kept) :
    Tracks
      (do
        modify fun state => { state with scopes := state.scopes.enter }
        let value ← body
        modify fun state => { state with scopes := state.scopes.leave }
        return build value)
      (do
        modify fun state => { state with scopes := state.scopes.enter }
        let value ← other
        modify fun state => { state with scopes := state.scopes.leave }
        return build value)
      state fun _ => True := by
  intro result last runs
  obtain ⟨_, _, entered, runs⟩ := bind_eq_some runs
  cases entered
  obtain ⟨value, inside, left, runs⟩ := bind_eq_some runs
  obtain ⟨_, _, closed, runs⟩ := bind_eq_some runs
  cases closed
  cases runs
  obtain ⟨alike, frame, -⟩ := inner value inside left
  exact ⟨congrArg (Option.bind · _) alike, frame.inScope, fun _ => True.intro⟩

/-- Reading a snippet changes nothing outside of it. -/
theorem isolated {snippet : State} {body other : Parse α} {kept : α → Prop}
    (inner : Tracks body other snippet kept) :
    Tracks (isolated snippet body) (isolated snippet other) state fun _ => True := by
  intro result last runs
  obtain ⟨⟨value, inside⟩, left, same⟩ := Option.map_eq_some_iff.1 runs
  cases same
  obtain ⟨alike, -, -⟩ := inner value inside left
  exact ⟨congrArg (Option.map _) alike, .refl state, fun _ => True.intro⟩

end Tracks

/-! ## Calls -/

/-- Whether a production passes over what cannot be used. -/
def Production.recovers : Production → Bool
  | .drain | .skipCommand _ | .skipToCloseBrace | .skipCaseLine => true
  | _ => false

/-- Whether the result of a production that started in a state is not dropped. An
empty command is a statement that gives nothing. -/
def Production.keeps (first : State) : (production : Production) → production.Result → Bool
  | .statement => fun result => result.isSome || first.current.kind == .semicolon
  | .conditional | .fallThrough _ | .commandOrExpression | .expression _ | .operatorChain _ _
  | .word _ => Option.isSome
  | _ => fun _ => true

/-- Two meanings of the productions that track each other, recovery being called only
with problems on record that permit it. Whatever is reported from now on does. -/
structure Answers (grammar other : Grammar) (permits : List Diagnostic → Prop) (state : State) :
    Prop where
  licensed (problem : Diagnostic) (more : List Diagnostic) :
    permits (state.diagnostics ++ problem :: more)
  tracks (production : Production) (inner : State)
    (permitted : production.recovers → permits inner.diagnostics) :
    Tracks (grammar.parse production) (other.parse production) inner
      (production.keeps inner ·)

namespace Answers

variable {grammar other : Grammar} {permits : List Diagnostic → Prop} {state later : State}

/-- Any call but one for recovery. -/
theorem call (answers : Answers grammar other permits state) {inner : State}
    (production : Production) (plain : production.recovers = false) :
    Tracks (grammar.parse production) (other.parse production) inner (production.keeps inner ·) :=
  answers.tracks production inner (by simp [plain])

/-- A report permits recovery. -/
theorem permitted (answers : Answers grammar other permits state)
    (reported : Reported state later) : permits later.diagnostics := by
  obtain ⟨problem, more, same⟩ := reported
  exact same ▸ answers.licensed problem more

/-- After a report any production may be called, recovery among them. -/
theorem recover (answers : Answers grammar other permits state) (reported : Reported state later)
    (production : Production) :
    Tracks (grammar.parse production) (other.parse production) later
      (production.keeps later ·) :=
  answers.tracks production later fun _ => answers.permitted reported

/-- More problems on record permit no less. -/
theorem grown (answers : Answers grammar other permits state)
    (added : state.diagnostics <+: later.diagnostics) : Answers grammar other permits later where
  licensed := by
    intro problem more
    obtain ⟨fresh, same⟩ := added
    rw [← same, List.append_assoc]
    cases fresh with
    | nil => exact answers.licensed problem more
    | cons first rest => exact answers.licensed first (rest ++ problem :: more)
  tracks := answers.tracks

/-- What may be called before a construct may be called behind it. -/
theorem after (answers : Answers grammar other permits state) (frame : Frame state later) :
    Answers grammar other permits later :=
  answers.grown frame.added

/-- Entering a construct permits what was permitted. -/
theorem enter (answers : Answers grammar other permits state) (nesting : Nesting) :
    Answers grammar other permits (state.enter nesting) :=
  answers.grown List.prefix_rfl

/-- What was permitted stays permitted. -/
theorem still (answers : Answers grammar other permits state)
    (permitted : permits state.diagnostics) (frame : Frame state later) :
    permits later.diagnostics := by
  rcases frame.reported_or_quiet with reported | quiet
  · exact answers.permitted reported
  · exact quiet ▸ permitted

end Answers

end IRule.Parser
