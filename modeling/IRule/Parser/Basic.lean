import IRule.Parser.Statement

/-!
# Parser

The grammar of the language, unfolded as many steps as a text can need, and
the reading of a whole rule. Validation happens on the way: the outcome holds
a script for every text, and the problems found in it.
-/

namespace IRule.Parser

/-- The rules of the language, over a meaning for the productions they refer to. -/
def rules (grammar : Grammar) : (production : Production) → Parse production.Result
  | .script => script grammar
  | .statement => statement grammar
  | .conditional => conditional grammar
  | .blockBody line => blockBody grammar line
  | .drain => drain grammar
  | .skipCommand depth => skipCommand grammar depth
  | .skipToCloseBrace => skipToCloseBrace grammar
  | .rawWord depth => rawWord grammar depth
  | .switchOptions options => switchOptions grammar options
  | .cases options line => cases grammar options line
  | .fallThrough options => fallThrough grammar options
  | .skipCaseLine => skipCaseLine grammar
  | .commandOrExpression => commandOrExpression grammar
  | .expression precedence => expression grammar precedence
  | .operatorChain left precedence => operatorChain grammar left precedence
  | .callArguments => callArguments grammar
  | .arguments => arguments grammar
  | .classOptions => classOptions grammar
  | .regsubFlags => regsubFlags grammar
  | .regsubArguments first => regsubArguments grammar first
  | .word glue => word grammar glue
  | .pieces glue => pieces grammar glue
  | .bracketCommands line => bracketCommands grammar line
  | .listElements => listElements grammar
  | .hashPairs => hashPairs grammar
  | .substitutionCommands => substitutionCommands grammar

/-- A production, unfolded at most `steps` deep. -/
def unfold : (steps : Nat) → (production : Production) → Parse production.Result
  | 0, _ => outOfSteps
  | steps + 1, production => rules ⟨unfold steps⟩ production

/-- A depth no text of the given number of bytes goes beyond: between two
tokens there are fewer productions than this allows for each byte. -/
def depthBound (length : Nat) : Nat :=
  16 * (length + 4)

/-- Report braces that are open at the end of the input. -/
def checkBalance : Parse Unit := do
  let state ← get
  unless state.braceCount == 0 do
    report (.unbalanced state.braceCount) state.current.line

/-- A whole rule, unfolded at most `steps` deep. -/
def wholeScript (steps : Nat) : Parse Script := do
  let statements ← unfold steps .script
  checkBalance
  return ⟨statements⟩

/-- What reading a rule gives. -/
structure Outcome where
  script : Script
  diagnostics : List Diagnostic := []
  /-- Variables declared before and in the rule. -/
  declared : List String := []
  /-- Braces left open. -/
  braceCount : Int := 0

namespace Outcome

/-- Whether a problem is an error. -/
def hasErrors (outcome : Outcome) : Bool :=
  outcome.diagnostics.any fun diagnostic => diagnostic.severity == .error

/-- The problems, one line each. -/
def errorLines (outcome : Outcome) : List String :=
  outcome.diagnostics.map Diagnostic.text

end Outcome

end IRule.Parser

namespace IRule

/-- Read a rule in which some variables are declared beforehand. -/
def parseWith (declared : List String) (source : String) : Parser.Outcome :=
  let text := source.toList
  match (Parser.wholeScript (Parser.depthBound (Text.byteLength text))).run
    (.start text declared) with
  | some (script, state) => ⟨script, state.diagnostics, state.declared, state.braceCount⟩
  | none => { script := ⟨[]⟩ }

/-- Read a rule. -/
def parse (source : String) : Parser.Outcome :=
  parseWith [] source

end IRule
