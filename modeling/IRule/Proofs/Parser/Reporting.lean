import IRule.Proofs.Parser.Construct
import IRule.Proofs.Parser.Termination

/-!
# Nothing is discarded in silence

A construct that is given up has reported a problem, and text is passed over only
after a report. `unforgiving` is the grammar with that built in: a parser that has
reported nothing neither recovers nor drops a construct. It reads every rule in the
same way. An arm of a `switch` that is dropped shows in the recovery behind it.
-/

namespace IRule.Parser

open Text

variable {steps : Nat} {production : Production} {state : State}

/-- A production unfolded at most `steps` deep, by a parser that stops where it would
recover or drop a construct with no problem on record. -/
def unforgiving : (steps : Nat) → (production : Production) → Parse production.Result
  | 0, _ => outOfSteps
  | steps + 1, production => fun state =>
    if production.recovers && state.diagnostics.isEmpty then none
    else
      match rules ⟨unforgiving steps⟩ production state with
      | none => none
      | some (result, last) =>
        if !production.keeps state result && last.diagnostics.isEmpty then none
        else some (result, last)

/-- Not to forgive makes no difference. -/
theorem unforgiving_tracks (permitted : production.recovers → state.diagnostics ≠ []) :
    Tracks (unfold steps production) (unforgiving steps production) state
      (production.keeps state ·) := by
  induction steps generalizing production state with
  | zero =>
    intro _ _ runs
    simp [unfold, outOfSteps] at runs
  | succ steps ih =>
    have answers : Answers ⟨unfold steps⟩ ⟨unforgiving steps⟩ (· ≠ []) state :=
      ⟨by simp, fun _ _ => ih⟩
    intro result last runs
    obtain ⟨alike, frame, kept⟩ := rules_tracks answers permitted result last runs
    refine ⟨?_, frame, kept⟩
    have recovery : (production.recovers && state.diagnostics.isEmpty) = false := by
      simpa using permitted
    have dropping : (!production.keeps state result && last.diagnostics.isEmpty) = false := by
      -- Nothing on record at the end means nothing reported on the way.
      by_cases clean : last.diagnostics = []
      · have before : state.diagnostics = [] := List.prefix_nil.1 (clean ▸ frame.added)
        simp [kept (clean.trans before.symm)]
      · simp [clean]
    simp [unforgiving, recovery, alike, dropping]

/-- A call that is answered is answered as before. -/
theorem only_tracks {allowed : Production → State → Prop} (allows : allowed production state) :
    Tracks (unfold steps production) ((Grammar.only ⟨unfold steps⟩ allowed).parse production) state
      (production.keeps state ·) := by
  intro result last runs
  obtain ⟨-, frame, kept⟩ := unfold_tracks result last runs
  exact ⟨by simpa [Grammar.only, allows] using runs, frame, kept⟩

/-- Nothing is discarded in silence, in whatever state a construct is started and
however deep it is unfolded. A construct that gives nothing has reported a problem,
unless it is a statement at an empty command. No construct calls for recovery before
it has reported a problem itself. Hence every rule is read in the same way by a parser
that stops rather than recover or drop a construct in silence; while a rule is read
without a problem, that parser has nothing on record that would let it do so. -/
theorem nothing_discarded :
    (∀ (steps : Nat) (α : Type) (construct : Fallible α) (state last : State),
      construct.parse ⟨unfold steps⟩ state = some (none, last) →
      construct.isEmptyCommand state = false → Reported state last) ∧
    (∀ (steps : Nat) (α : Type) (construct : Construct α) (state : State) (outcome : α × State),
      construct.recovers = false → construct.parse ⟨unfold steps⟩ state = some outcome →
      construct.parse (Grammar.only ⟨unfold steps⟩ fun called inner =>
        called.recovers → Reported state inner) state = some outcome) ∧
    ∀ (declared : List String) (source : String), ∃ last,
      unforgiving (depthBound (byteLength source.toList)) .script (.start source.toList declared) =
        some ((parseWith declared source).script.statements, last) ∧
      ((parseWith declared source).diagnostics = [] → last.diagnostics = []) := by
  refine ⟨?_, ?_, ?_⟩
  · intro steps α construct state last runs command
    obtain ⟨-, frame, kept⟩ := construct.tracks (unfold_answers steps state) none last runs
    exact frame.reported_or_quiet.resolve_right fun quiet => by simpa [command] using kept quiet
  · intro steps α construct state outcome plain runs
    -- What was on record at the start permits nothing; only what is added to it does.
    let permits (problems : List Diagnostic) : Prop :=
      ∃ problem more, problems = state.diagnostics ++ problem :: more
    have answers : Answers ⟨unfold steps⟩ (Grammar.only ⟨unfold steps⟩ fun called inner =>
        called.recovers → Reported state inner) permits state :=
      ⟨fun problem more => ⟨problem, more, rfl⟩, fun _ _ permitted => only_tracks permitted⟩
    exact (construct.tracks answers (by simp [plain]) outcome.1 outcome.2 runs).1
  · intro declared source
    obtain ⟨statements, last, completed⟩ := exists_completed declared source
    have plain :
        Production.script.recovers → (State.start source.toList declared).diagnostics ≠ [] := nofun
    have tracked := unforgiving_tracks plain statements last (completed.unfolds _ le_rfl)
    rw [completed.outcome]
    exact ⟨last, tracked.1, State.diagnostics_of_balanced⟩

end IRule.Parser
