import IRule.Eval.Interpreter

/-!
# Runs of the interpreter

What single evaluations do to the variables of a rule: a sequence stops at the first
error, a reference reads its variable, and an assignment changes that variable only.
-/

namespace IRule

namespace Environment

theorem lookup_cons (key name : String) (value : Value) (rest : List (String × Value)) :
    ((key, value) :: rest).lookup name = if name = key then some value else rest.lookup name := by
  by_cases same : name = key
  · simp [same]
  · simp [List.lookup_cons, beq_eq_false_iff_ne.2 same, same]

theorem lookup_bind (bindings : List (String × Value)) (name other : String) (value : Value) :
    (bind name value bindings).lookup other =
      if other = name then some value else bindings.lookup other := by
  induction bindings with
  | nil => simp [bind, lookup_cons]
  | cons binding rest ih =>
    obtain ⟨key, old⟩ := binding
    by_cases here : key = name
    · subst here
      simp only [bind, beq_self_eq_true, if_true, lookup_cons]
      split <;> rfl
    · simp only [bind, beq_eq_false_iff_ne.2 here, Bool.false_eq_true, if_false, lookup_cons, ih]
      by_cases same : other = key
      · simp [same, here]
      · simp [same]

/-- The last assignment to a variable counts, and changes no other variable. -/
theorem lookup_define (environment : Environment) (name other : String) (value : Value) :
    (environment.define name value).lookup other =
      if other = name then some value else environment.lookup other :=
  lookup_bind environment.bindings name other value

end Environment

namespace Eval

section Sequence

variable {α β : Type} {first : Eval α} {next : α → Eval β} {environment after : Environment}

theorem run_bind_ok {value : α} (runs : first.run.run environment = (.ok value, after)) :
    (first >>= next).run.run environment = (next value).run.run after := by
  rw [ExceptT.run_bind, StateT.run_bind, runs]
  rfl

theorem run_bind_error {error : EvalError}
    (fails : first.run.run environment = (.error error, after)) :
    (first >>= next).run.run environment = (.error error, after) := by
  rw [ExceptT.run_bind, StateT.run_bind, fails]
  rfl

/-- A sequence that gives a value goes through one of its first part. -/
theorem run_bind_eq_ok {value : β}
    (runs : (first >>= next).run.run environment = (.ok value, after)) :
    ∃ given middle, first.run.run environment = (.ok given, middle) ∧
      (next given).run.run middle = (.ok value, after) := by
  rcases here : first.run.run environment with ⟨error | given, middle⟩
  · rw [run_bind_error here] at runs
    cases runs
  · rw [run_bind_ok here] at runs
    exact ⟨given, middle, rfl, runs⟩

end Sequence

theorem run_read (name : String) (environment : Environment) :
    (read name).run.run environment =
      (match environment.lookup name with
        | some value => .ok value
        | none => .error (.noSuchVariable name), environment) := by
  change (match environment.lookup name with
    | some value => (pure value : Eval Value)
    | none => throw (EvalError.noSuchVariable name)).run.run environment = _
  cases environment.lookup name <;> rfl

section Still

variable {α β : Type}

/-- Whatever an evaluation ends with, it leaves the variables as they are. -/
def Still (action : Eval α) : Prop :=
  ∀ environment, (action.run.run environment).2 = environment

namespace Still

theorem pure (value : α) : Still (Pure.pure value) :=
  fun _ => rfl

theorem ofResult (result : Except EvalError α) : Still (Eval.ofResult result) :=
  fun _ => rfl

theorem read (name : String) : Still (Eval.read name) := by
  intro environment
  rw [run_read]

theorem run {action : Eval α} (still : Still action) {result : Except EvalError α}
    (ends : (action.run.run environment).1 = result) :
    action.run.run environment = (result, environment) :=
  Prod.ext ends (still environment)

theorem bind {first : Eval α} {next : α → Eval β} (here : Still first)
    (later : ∀ value, Still (next value)) : Still (first >>= next) := by
  intro environment
  rcases ends : (first.run.run environment).1 with error | value
  · rw [run_bind_error (here.run ends)]
  · rw [run_bind_ok (here.run ends), later value environment]

end Still

end Still

/-- Name of the array of an element: a name as it stands, otherwise the text of what is
evaluated. -/
def arrayName (array : Expression) (evaluated : Eval Value) : Eval String :=
  match array with
  | .identifier _ name _ _ => return name
  | _ => return (← evaluated).written

theorem expression_element (token : Token) (array key : Expression) :
    expression (.element token array key) =
      (do
        let base ← arrayName array (expression array)
        let index ← expression key
        read (base ++ "(" ++ index.written ++ ")")) := by
  rw [expression.eq_def]
  cases array <;> simp [arrayName]

/-- Names of the variables of a loop. -/
def loopNames (targets : Expression) (evaluated : Eval Value) : Eval (List String) :=
  match targets with
  | .list _ elements => return listWords elements
  | _ => return [← targetName targets evaluated]

/-- Words that a loop runs over. -/
def loopWords (items : Expression) (evaluated : Eval Value) : Eval (List String) :=
  match items with
  | .list _ elements => return listWords elements
  | _ => return wordsOf (← evaluated)

theorem statement_foreach (token : Token) (targets items : Expression) (body : Block) :
    statement (.foreach token targets items body) =
      (do
        let names ← loopNames targets (expression targets)
        let words ← loopWords items (expression items)
        if names.isEmpty then return .next .empty
        else forGroups names (block body) (groupsOf names.length [] words)) := by
  rw [statement.eq_def]
  dsimp only
  unfold loopNames loopWords
  split <;> split <;> simp [List.singleton]

end Eval

end IRule
