import IRule.Eval.Value

/-!
# Environments

The variables of a rule. Blocks open no scopes, so one table holds them all;
an array element is stored under its full text `name(key)`.
-/

namespace IRule

/-- Variables and their values, each name once. -/
structure Environment where
  bindings : List (String × Value) := []
deriving Repr, Inhabited

namespace Environment

/-- Bindings with one of them set, in place or at the end. -/
def bind (name : String) (value : Value) : List (String × Value) → List (String × Value)
  | [] => [(name, value)]
  | (key, old) :: rest =>
    if key == name then (key, value) :: rest else (key, old) :: bind name value rest

/-- Set a variable. -/
def define (environment : Environment) (name : String) (value : Value) : Environment :=
  ⟨bind name value environment.bindings⟩

/-- Value of a variable. -/
def lookup (environment : Environment) (name : String) : Option Value :=
  environment.bindings.lookup name

/-- Whether a variable is set. -/
def contains (environment : Environment) (name : String) : Bool :=
  (environment.lookup name).isSome

/-- Unset a variable. -/
def remove (environment : Environment) (name : String) : Environment :=
  ⟨environment.bindings.filter fun (key, _) => key != name⟩

/-- Number of variables. -/
def size (environment : Environment) : Nat :=
  environment.bindings.length

/-- Bindings in ascending order of the names. -/
def sorted (environment : Environment) : List (String × Value) :=
  environment.bindings.mergeSort fun first second => decide (first.1 ≤ second.1)

end Environment

end IRule
