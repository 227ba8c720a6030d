import IRule.Proofs.Parser.Construct
import IRule.Proofs.Parser.Termination

/-!
# Open constructs and scopes

Whatever a construct opens it closes again, on every path: the open constructs and
the enclosing scopes are those of before, so line ends are read as the surroundings
read them. No scope on the way holds commands that exclude each other.
-/

namespace IRule

open Text

/-- No open scope holds commands that exclude each other. -/
def Scopes.Compatible (scopes : Scopes) : Prop :=
  ∀ scope ∈ scopes.current :: scopes.outer, scope.Compatible

namespace Scopes.Compatible

variable {scopes later : Scopes}

theorem outermost : ({} : Scopes).Compatible := by
  simpa [Scopes.Compatible] using Exclusives.empty_compatible

theorem enter (compatible : scopes.Compatible) : scopes.enter.Compatible :=
  List.forall_mem_cons.2 ⟨Exclusives.empty_compatible, compatible⟩

theorem leave (compatible : scopes.Compatible) : scopes.leave.Compatible := by
  unfold Scopes.leave
  split
  · exact compatible
  · rename_i enclosing outer nested
    intro scope mem
    exact compatible scope (List.mem_cons_of_mem _ (nested ▸ mem))

/-- Only the innermost scope has changed. -/
theorem innermost (compatible : scopes.Compatible) (outer : later.outer = scopes.outer)
    (current : later.current.Compatible) : later.Compatible := by
  intro scope mem
  rcases List.mem_cons.1 mem with rfl | mem
  · exact current
  · exact compatible scope (List.mem_cons_of_mem _ (outer ▸ mem))

end Scopes.Compatible

namespace Parser

theorem Step.compatible {state next : State} (step : Step state next)
    (compatible : state.scopes.Compatible) : next.scopes.Compatible := by
  cases step with
  | exclude single allowed =>
    have frame := Frame.exclude single allowed
    exact compatible.innermost frame.outer (frame.compatible (compatible _ (by simp)))
  | openScope => exact compatible.enter
  | closeScope => exact compatible.leave
  | _ => exact compatible

/-- No scope on the way holds commands that exclude each other. -/
theorem Reached.compatible {source : List Char} {declared : List String} {state : State}
    (reached : Reached source declared state) : state.scopes.Compatible := by
  induction reached with
  | refl => exact .outermost
  | step _ step ih => exact step.compatible ih
  | snippet => exact .outermost

theorem Frame.balanced (state : State) : Frame state state.balanced := by
  unfold State.balanced
  split
  · exact .refl state
  · exact .record state _

/-- Whatever a construct ends with, it stays inside its frame. -/
theorem Construct.frame {α : Type} {steps : Nat} {construct : Construct α} {state last : State}
    {result : α} (runs : construct.parse ⟨unfold steps⟩ state = some (result, last)) :
    Frame state last :=
  (construct.tracks (unfold_answers steps state) (fun _ => trivial) result last runs).2.1

/-- A block leaves the scope that it entered, which is never the outermost one. -/
theorem block_closes {steps : Nat} {state last : State} {body : Block}
    (runs : block ⟨unfold steps⟩ state = some (body, last)) :
    ∃ statements inside,
      within .script (advance >>= fun _ => unfold steps (.blockBody state.current.line))
        { state with scopes := state.scopes.enter } = some (statements, inside) ∧
      1 < inside.scopes.depth ∧ last = { inside with scopes := inside.scopes.leave } ∧
      last.scopes = state.scopes := by
  unfold block at runs
  obtain ⟨_, _, looked, runs⟩ := bind_eq_some runs
  cases looked
  obtain ⟨_, _, entered, runs⟩ := bind_eq_some runs
  cases entered
  obtain ⟨statements, inside, reading, runs⟩ := bind_eq_some runs
  obtain ⟨_, _, closed, runs⟩ := bind_eq_some runs
  cases closed
  cases runs
  have tracked := blockInside_tracks (unfold_answers steps state) statements inside reading
  have frame := tracked.2.1
  refine ⟨statements, inside, reading, ?_, rfl, frame.leave_scopes⟩
  simp [Scopes.depth, frame.outer, Scopes.enter]

/-- The stacks of the parser are balanced on every path. Whatever state a construct is
started in and however it ends, the open constructs, the enclosing scopes and whether
references are checked are as before, so line ends are read as before, and if no scope
held commands that exclude each other, none does. A block never leaves the outermost
scope. Every rule ends with nothing open but the script and one scope. On the way no
scope ever holds commands that exclude each other: every production that is started in
a state on the way ends in one, after calls that are all made in such states. -/
theorem stacks_balanced :
    (∀ (steps : Nat) (α : Type) (construct : Construct α) (state last : State) (result : α),
      construct.parse ⟨unfold steps⟩ state = some (result, last) →
        last.nesting = state.nesting ∧ last.scopes.depth = state.scopes.depth ∧
        last.scopes.outer = state.scopes.outer ∧ last.checkVariables = state.checkVariables ∧
        last.newlineEndsCommand = state.newlineEndsCommand ∧
        (state.scopes.Compatible → last.scopes.Compatible)) ∧
    (∀ (steps : Nat) (state last : State) (body : Block),
      block ⟨unfold steps⟩ state = some (body, last) → ∃ statements inside,
        within .script (advance >>= fun _ => unfold steps (.blockBody state.current.line))
          { state with scopes := state.scopes.enter } = some (statements, inside) ∧
        1 < inside.scopes.depth ∧ last = { inside with scopes := inside.scopes.leave } ∧
        last.scopes = state.scopes) ∧
    ∀ (declared : List String) (source : String),
      (∃ last, (∀ steps, depthBound (byteLength source.toList) ≤ steps →
          (wholeScript steps).run (.start source.toList declared) =
            some ((parseWith declared source).script, last)) ∧
        last.nesting = [.script] ∧ last.scopes.depth = 1 ∧ last.checkVariables = true) ∧
      ∀ state, Reached source.toList declared state →
        state.scopes.Compatible ∧
        ∀ production, ∃ result last, Reached source.toList declared last ∧
          ∀ steps, state.depth production ≤ steps →
            unfold (steps + 1) production state = some (result, last) ∧
            rules (Grammar.only ⟨unfold steps⟩ fun _ inner => Reached source.toList declared inner)
              production state = some (result, last) := by
  refine ⟨?_, fun _ _ _ _ => block_closes, fun declared source => ⟨?_, ?_⟩⟩
  · intro steps α construct state last result runs
    have frame := Construct.frame runs
    refine ⟨frame.nesting, ?_, frame.outer, frame.checked, ?_, fun compatible => ?_⟩
    · simp [Scopes.depth, frame.outer]
    · simp [State.newlineEndsCommand, frame.nesting]
    · exact compatible.innermost frame.outer (frame.compatible (compatible _ (by simp)))
  · obtain ⟨statements, last, completed⟩ := exists_completed declared source
    have frame := (unfold_tracks _ _ (completed.unfolds _ le_rfl)).2.1.trans (.balanced last)
    refine ⟨last.balanced, ?_, frame.nesting, ?_, frame.checked⟩
    · rw [completed.outcome]
      exact completed.wholeScript_eq
    · rw [Scopes.depth, frame.outer]
      rfl
  · intro state reached
    refine ⟨Reached.compatible reached, fun production => Reached.rule_ends reached ?_⟩
    exact fun called inner descends => reached.trans descends.leads

end Parser

end IRule
