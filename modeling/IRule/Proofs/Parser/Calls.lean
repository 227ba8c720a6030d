import IRule.Proofs.Parser.Vouching.Statement

/-!
# Every call stands behind what it calls

Every call of a script is glued to what it calls. A name that is called is the token in
front of the parenthesis. Only behind a logical operator or `contains` the call takes the
whole operation.
-/

namespace IRule

/-- The call of a node. -/
@[simp]
def Node.call? : Node → Option CallSite
  | .expression (.call token function _) => some ⟨token, function⟩
  | _ => none

/-- The calls of a script, at any depth. -/
def Script.calls (script : Script) : List CallSite :=
  script.nodes.filterMap Node.call?

/-- The calls among covered nodes are glued to what they call. -/
theorem Parser.AllVouched.glued {transcript : Transcript} {nodes : List Node}
    (vouched : AllVouched transcript nodes) :
    ∀ call ∈ nodes.filterMap Node.call?, Glued transcript.source transcript.declared call := by
  intro call mem
  obtain ⟨node, inside, found⟩ := List.mem_filterMap.1 mem
  have covers := vouched node inside
  unfold Node.call? at found
  split at found
  · cases found
    exact covers
  · cases found

open IRule.Parser

/-- Every call of a rule is applied to what stands immediately in front of its parenthesis.
Wherever the parser of the rule finds the parenthesis of a call, it is glued to the token
before it, and the function is the operand or the call that was read up to it: never an
operation with a sign in front, and an operation with two operands only if its operator is
a logical one or `contains`, which takes its right operand without the call. A name that is
called is the token that ends where the parenthesis starts. -/
theorem calls_glued (declared : List String) (source : String) :
    ∀ call ∈ (parseWith declared source).script.calls,
      Glued source.toList declared call ∧
      (call.function.isOperation = true →
        ∃ token left operator right, call.function = .binary token left operator right ∧
          bindsTighter token.kind ∧ Callee source.toList declared right call.opening) ∧
      (call.function.isOperation = false → call.function.token.kind = .word →
        call.function = bareWord call.function.token call.function.token.literal ∧
          call.function.token.span.stop = call.opening.span.start) := by
  intro call mem
  have site := (parseWith_vouched declared source).glued call mem
  exact ⟨site, site.callee.of_isOperation, site.callee.name site.kind site.adjacent⟩

/-- A call behind a sum is applied to its name. -/
theorem calls_glued_sum :
    let source := "if \x7b1 + abs(5)\x7d \x7b\x7d"
    ∃ call, (parseWith [] source).script.calls = [call] ∧ call.function.written = "abs" ∧
      Glued source.toList [] call := by
  intro source
  have names : (parseWith [] source).script.calls.map (fun call => call.function.written) =
      ["abs"] := by decide +kernel
  obtain ⟨call, only, name⟩ := List.map_eq_singleton_iff.1 names
  exact ⟨call, only, name, (calls_glued [] source call (by simp [only])).1⟩

/-- Behind a logical operator the call takes the operation. -/
example : (parseWith [] "if \x7b1 && abs(5)\x7d \x7b\x7d").script.calls.map
    (fun call => call.function.written) = ["1 && abs"] := by
  decide +kernel

end IRule
