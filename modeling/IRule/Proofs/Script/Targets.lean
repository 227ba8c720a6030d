import IRule.Naming
import IRule.Proofs.Script.Nodes

/-!
# Targets of assignments

The variables that a script assigns by name, wherever it does: in `set` and
`foreach`, in the result of a `regsub` and in a `set` between brackets, at the top
and in everything that is nested. An element of an array counts as its array.
Nothing here refers to how a tree was read.
-/

namespace IRule

/-- The variable that is declared under a name: the array of an element. -/
def declaredName (name : String) : String :=
  String.ofList (Naming.arrayBase name.toList)

/-- The variable of a name. -/
def Expression.nameTarget : Expression → List String
  | .identifier _ name .. => [declaredName name]
  | _ => []

/-- The variable of a target that is a literal name. A word that starts with a quoted
string or a reference is no such name. -/
def Expression.literalTarget : Expression → List String
  | .identifier token name false _ =>
    if token.kind = .string ∨ token.kind = .reference then [] else [declaredName name]
  | _ => []

/-- The variables of the target of a `foreach`: one name, or a list of names. -/
def Expression.loopTargets : Expression → List String
  | .list _ elements => elements.flatMap Expression.nameTarget
  | other => other.literalTarget

/-- Whether the expression is the word `set`, which has a kind of its own. -/
def Expression.isSetWord : Expression → Bool
  | .identifier token _ false _ => token.kind == .reserved .set
  | _ => false

/-- The variable that a command assigns, if it is a `set`. -/
def commandTargets (name : Expression) : List Expression → List String
  | [] => []
  | target :: _ => if name.isSetWord then target.literalTarget else []

/-- A command that is no `set` assigns nothing. -/
@[simp]
theorem commandTargets_eq_nil {name : Expression} {arguments : List Expression}
    (plain : name.isSetWord = false) : commandTargets name arguments = [] := by
  cases arguments <;> simp [commandTargets, plain]

/-- Variables that a node assigns on its own, apart from what stands in it. -/
@[simp]
def Node.targets : Node → List String
  | .expression (.invocation _ name arguments) => commandTargets name arguments
  | .expression (.regsub _ _ _ _ _ result) => result.literalTarget
  | .statement (.set _ target _) => target.literalTarget
  | .statement (.foreach _ target _ _) => target.loopTargets
  | _ => []

/-- Variables that nodes assign. -/
def targetsIn (nodes : List Node) : List String :=
  nodes.flatMap Node.targets

/-- Variables that a script assigns by name. -/
def Script.targets (script : Script) : List String :=
  targetsIn script.nodes

theorem Expression.literalTarget_subset (target : Expression) :
    target.literalTarget ⊆ target.nameTarget := by
  unfold literalTarget nameTarget
  split
  · split <;> simp
  · simp

/-- A target that is no list of names stands for no more than its own name. -/
theorem Expression.loopTargets_subset {target : Expression}
    (noList : ∀ token elements, target ≠ .list token elements) :
    target.loopTargets ⊆ target.nameTarget := by
  unfold loopTargets
  split
  · exact absurd rfl (noList _ _)
  · exact target.literalTarget_subset

section Lists

@[simp]
theorem targetsIn_nil : targetsIn [] = [] := rfl

@[simp]
theorem targetsIn_cons (node : Node) (nodes : List Node) :
    targetsIn (node :: nodes) = node.targets ++ targetsIn nodes := rfl

@[simp]
theorem targetsIn_append (first second : List Node) :
    targetsIn (first ++ second) = targetsIn first ++ targetsIn second :=
  List.flatMap_append

/-- What may be assigned in an expression, if there is one. -/
theorem targetsIn_toList {result : Option Expression} {names : List String} :
    targetsIn (nodesOf result.toList) ⊆ names ↔
      ∀ value ∈ result, targetsIn value.nodes ⊆ names := by
  cases result <;> simp

/-- What a conditional assigns, with or without an alternative. -/
theorem targetsIn_conditional_subset {token : Token} {condition : Expression}
    {consequence : Block} {alternative : Option Statement} {names : List String} :
    targetsIn (Statement.conditional token condition consequence alternative).nodes ⊆ names ↔
      targetsIn condition.nodes ⊆ names ∧ targetsIn consequence.nodes ⊆ names ∧
        ∀ statement ∈ alternative, targetsIn statement.nodes ⊆ names := by
  cases alternative <;> simp

end Lists

end IRule
