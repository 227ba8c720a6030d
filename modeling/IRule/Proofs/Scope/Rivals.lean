import IRule.Proofs.Parser.Run

/-!
# Rivals in one scope

Sets of commands as sets of their members, and the calls that open and close scopes and
declare into the innermost one. A declaration is checked against what the scope holds,
but not against itself: both members of a pair stand in one scope only if one declaration
brought both along.
-/

namespace IRule

/-! ## Commands -/

/-- A command that excludes another one. -/
inductive ExclusiveCommand where
  | node
  | pool
  | redirect
  | respond
deriving DecidableEq, Repr

namespace ExclusiveCommand

/-- The command that is excluded. -/
def rival : ExclusiveCommand → ExclusiveCommand
  | node => pool
  | pool => node
  | redirect => respond
  | respond => redirect

/-- Whether the command is the second one of its pair. -/
def isSecond : ExclusiveCommand → Bool
  | node | redirect => false
  | pool | respond => true

@[simp]
theorem rival_rival (command : ExclusiveCommand) : command.rival.rival = command := by
  cases command <;> rfl

end ExclusiveCommand

namespace Exclusives

/-- Whether a command is in the set. -/
def has (set : Exclusives) : ExclusiveCommand → Bool
  | .node => set.node
  | .pool => set.pool
  | .redirect => set.redirect
  | .respond => set.respond

instance : Membership ExclusiveCommand Exclusives :=
  ⟨fun set command => set.has command⟩

instance (command : ExclusiveCommand) (set : Exclusives) : Decidable (command ∈ set) :=
  inferInstanceAs (Decidable (set.has command = true))

variable {first second set : Exclusives} {command : ExclusiveCommand}

theorem mem_iff : command ∈ set ↔ set.has command = true := Iff.rfl

@[simp]
theorem not_mem_empty : command ∉ empty := by
  cases command <;> simp [mem_iff, has, empty]

@[simp]
theorem mem_union : command ∈ first.union second ↔ command ∈ first ∨ command ∈ second := by
  cases command <;> simp [mem_iff, has, union]

@[simp]
theorem mem_inter : command ∈ first.inter second ↔ command ∈ first ∧ command ∈ second := by
  cases command <;> simp [mem_iff, has, inter]

theorem eq_empty_iff : set = empty ↔ ∀ command : ExclusiveCommand, command ∉ set := by
  constructor
  · rintro rfl command
    exact not_mem_empty
  · intro none
    obtain ⟨node, pool, redirect, respond⟩ := set
    have := none .node
    have := none .pool
    have := none .redirect
    have := none .respond
    simp_all [mem_iff, has, empty]

/-- A set excludes the rivals of its members. The first member of a pair is left out where
the set holds the pair whole. -/
theorem mem_rivals :
    command ∈ set.rivals ↔ command.rival ∈ set ∧ (command ∈ set → command.isSecond) := by
  cases command <;>
    simp [mem_iff, has, rivals, ExclusiveCommand.rival, ExclusiveCommand.isSecond, and_comm]

end Exclusives

/-! ## Calls -/

/-- A call on the open scopes. -/
inductive ScopeCall where
  | enter
  | leave
  | declare (set : Exclusives)
deriving DecidableEq, Repr

namespace Scopes

variable {scopes later : Scopes} {set : Exclusives} {conflict : Conflict} {calls : List ScopeCall}

/-- The open scopes, innermost first. -/
def all (scopes : Scopes) : List Exclusives :=
  scopes.current :: scopes.outer

/-- What a call makes of the scopes. A refused declaration leaves them as they are. -/
def step (scopes : Scopes) : ScopeCall → Scopes
  | .enter => scopes.enter
  | .leave => scopes.leave
  | .declare set =>
    match scopes.declare set with
    | .ok later => later
    | .error _ => scopes

/-- What calls make of new scopes. -/
def run (calls : List ScopeCall) : Scopes :=
  calls.foldl step {}

@[simp]
theorem run_append_singleton (call : ScopeCall) :
    run (calls ++ [call]) = (run calls).step call := by
  simp [run]

/-- A declaration was made and not refused. -/
def Accepted (calls : List ScopeCall) (set : Exclusives) : Prop :=
  ∃ before after later, calls = before ++ .declare set :: after ∧
    (run before).declare set = .ok later

theorem Accepted.append (accepted : Accepted calls set) (call : ScopeCall) :
    Accepted (calls ++ [call]) set := by
  obtain ⟨before, after, later, rfl, allowed⟩ := accepted
  exact ⟨before, after ++ [call], later, by simp, allowed⟩

theorem Accepted.now (allowed : (run calls).declare set = .ok later) :
    Accepted (calls ++ [.declare set]) set :=
  ⟨calls, [], later, rfl, allowed⟩

/-! ## Declarations -/

/-- A refusal names what stands in the scope and is excluded. -/
theorem declare_eq_error_iff :
    scopes.declare set = .error conflict ↔
      conflict = ⟨set, scopes.current.inter set.rivals⟩ ∧
        scopes.current.inter set.rivals ≠ .empty := by
  simp only [declare]
  split <;> simp_all [eq_comm]

/-- A declaration is refused exactly when the rival of one of its commands stands in the
scope. Of a pair that is declared whole only the second member counts. -/
theorem declare_refused_iff :
    (∃ conflict, scopes.declare set = .error conflict) ↔
      ∃ command ∈ set, command.rival ∈ scopes.current ∧
        (command.rival ∈ set → command.rival.isSecond) := by
  simp only [declare_eq_error_iff, exists_and_right, exists_eq, true_and, ne_eq,
    Exclusives.eq_empty_iff, not_forall, not_not, Exclusives.mem_inter, Exclusives.mem_rivals]
  constructor
  · rintro ⟨command, stands, declared, second⟩
    exact ⟨command.rival, declared, by simpa using stands, by simpa using second⟩
  · rintro ⟨command, declared, stands, second⟩
    exact ⟨command.rival, stands, by simpa using declared, second⟩

/-- A scope was open before the call, or is new, or has taken in what was declared. -/
theorem mem_step {call : ScopeCall} {scope : Exclusives} (mem : scope ∈ (scopes.step call).all) :
    scope ∈ scopes.all ∨ scope = .empty ∨
      ∃ set later, call = .declare set ∧ scopes.declare set = .ok later ∧
        scope = scopes.current.union set := by
  cases call with
  | enter =>
    simp only [step, enter, all, List.mem_cons] at mem ⊢
    tauto
  | leave =>
    left
    cases outer : scopes.outer <;> simp_all [step, leave, all]
  | declare set =>
    simp only [step] at mem
    split at mem
    · rename_i later allowed
      obtain ⟨-, rfl⟩ := declare_ok allowed
      rcases List.mem_cons.1 mem with rfl | outer
      · exact .inr (.inr ⟨set, _, rfl, allowed, rfl⟩)
      · exact .inl (List.mem_cons_of_mem _ outer)
    · exact .inl mem

/-- What a declaration adds to a scope without refusal makes no pair whole, unless the
declaration holds the pair whole. -/
theorem whole_of_allowed {command : ExclusiveCommand} (allowed : scopes.declare set = .ok later)
    (one : command ∈ scopes.current.union set) (other : command.rival ∈ scopes.current.union set) :
    command ∈ scopes.current ∧ command.rival ∈ scopes.current ∨
      command ∈ set ∧ command.rival ∈ set := by
  have notRefused : ¬∃ conflict, scopes.declare set = .error conflict := by simp [allowed]
  rw [declare_refused_iff] at notRefused
  push Not at notRefused
  rw [Exclusives.mem_union] at one other
  by_cases whole : command ∈ set ∧ command.rival ∈ set
  · exact .inr whole
  refine .inl ⟨one.resolve_right fun declared => ?_, other.resolve_right fun declared => ?_⟩
  · have stands := other.resolve_right fun both => whole ⟨declared, both⟩
    exact whole ⟨declared, (notRefused command declared stands).1⟩
  · have stands := one.resolve_right fun both => whole ⟨both, declared⟩
    have := (notRefused command.rival declared (by simpa using stands)).1
    exact whole ⟨by simpa using this, declared⟩

/-- A pair stands whole in a scope only if an accepted declaration held it whole. -/
theorem run_whole (calls : List ScopeCall) :
    ∀ scope ∈ (run calls).all, ∀ command ∈ scope, command.rival ∈ scope →
      ∃ set, Accepted calls set ∧ command ∈ set ∧ command.rival ∈ set := by
  induction calls using List.reverseRecOn with
  | nil =>
    intro scope mem command inside
    have only : scope = .empty := by simpa [run, all] using mem
    simp [only] at inside
  | append_singleton calls call ih =>
    have before {scope : Exclusives} (mem : scope ∈ (run calls).all) {command : ExclusiveCommand}
        (one : command ∈ scope) (other : command.rival ∈ scope) :
        ∃ set, Accepted (calls ++ [call]) set ∧ command ∈ set ∧ command.rival ∈ set := by
      obtain ⟨set, accepted, whole⟩ := ih scope mem command one other
      exact ⟨set, accepted.append call, whole⟩
    intro scope mem command one other
    rw [run_append_singleton] at mem
    rcases mem_step mem with earlier | rfl | ⟨set, later, rfl, allowed, rfl⟩
    · exact before earlier one other
    · simp at one
    · rcases whole_of_allowed allowed one other with ⟨one, other⟩ | whole
      · exact before List.mem_cons_self one other
      · exact ⟨set, .now allowed, whole⟩

/-- Scopes after any calls. A pair of rivals stands in one scope only if an accepted
declaration held both. A declaration is refused exactly when a command of it has its rival
in the innermost scope, where of a pair that is declared whole only the second member
counts; then nothing changes, and the conflict names commands of the scope whose rivals
are declared. An accepted declaration adds to the innermost scope only. Opening a scope
and closing it leave the outer ones, and one scope always stays. -/
theorem rivals_apart (calls : List ScopeCall) :
    let scopes := run calls
    (∀ scope ∈ scopes.all, ∀ command ∈ scope, command.rival ∈ scope →
      ∃ set, Accepted calls set ∧ command ∈ set ∧ command.rival ∈ set) ∧
    (∀ set, (∃ conflict, scopes.declare set = .error conflict) ↔
      ∃ command ∈ set, command.rival ∈ scopes.current ∧
        (command.rival ∈ set → command.rival.isSecond)) ∧
    (∀ set conflict, scopes.declare set = .error conflict →
      run (calls ++ [.declare set]) = scopes ∧ conflict.declared = set ∧
      conflict.existing ≠ .empty ∧
      ∀ command ∈ conflict.existing, command ∈ scopes.current ∧ command.rival ∈ set) ∧
    (∀ set later, scopes.declare set = .ok later →
      (run (calls ++ [.declare set])).all = scopes.current.union set :: scopes.outer) ∧
    (run (calls ++ [.enter])).all = .empty :: scopes.all ∧
    (run (calls ++ [.leave])).all = (if scopes.outer = [] then scopes.all else scopes.outer) ∧
    scopes.all.length = scopes.depth ∧ 0 < scopes.depth := by
  intro scopes
  simp only [run_append_singleton]
  refine ⟨run_whole calls, fun set => declare_refused_iff, ?_, ?_, rfl, ?_, ?_⟩
  · intro set conflict refused
    obtain ⟨rfl, some⟩ := declare_eq_error_iff.1 refused
    refine ⟨by simp [step, scopes, refused], rfl, some, fun command mem => ?_⟩
    rw [Exclusives.mem_inter, Exclusives.mem_rivals] at mem
    exact ⟨mem.1, mem.2.1⟩
  · intro set later allowed
    obtain ⟨-, rfl⟩ := declare_ok allowed
    simp [step, scopes, allowed, all]
  · change scopes.leave.all = _
    cases outer : scopes.outer <;> simp [leave, all, outer]
  · exact ⟨by simp [all, depth], by simp [depth]⟩

/-- Both members of a pair in one declaration are not refused, though the first one stands
in the scope. -/
example : run [.declare { node := true }, .declare { node := true, pool := true }] =
    ⟨{ node := true, pool := true }, []⟩ := by
  decide

end Scopes

end IRule
