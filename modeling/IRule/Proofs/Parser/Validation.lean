import IRule.Proofs.Parser.Termination

/-!
# Validation

Reading a rule validates it: a script that was read without a problem is valid,
at every depth.
-/

namespace IRule

open IRule.Parser

/-- A rule that is read without a problem is valid, whatever was declared before. -/
theorem parseWith_valid {declared : List String} {source : String}
    (clean : (parseWith declared source).diagnostics = []) :
    (parseWith declared source).script.Valid := by
  obtain ⟨statements, last, completed⟩ := exists_completed declared source
  rw [completed.outcome] at clean ⊢
  have collected := completed.collected (State.diagnostics_of_balanced clean)
  have compatible := completed.passage.compatible Exclusives.empty_compatible
  exact ⟨collected.valid, collected.within.compatible compatible⟩

/-- A rule that is read without a problem is valid. -/
theorem parse_valid (source : String) (clean : (parse source).diagnostics = []) :
    (parse source).script.Valid :=
  parseWith_valid clean

/-- Handlers, conditions, strings with embedded commands, lists and commands of all
checked shapes. -/
theorem parse_valid_handler :
    let source :=
      "when HTTP_REQUEST priority 5 \x7b\n  set host [string tolower [HTTP::host]]\n" ++
      "  if \x7b $host contains \"x\" && 1 < 2 \x7d \x7b\n    HTTP::header insert X-Id \"[HTTP::uri]\"\n" ++
      "    regsub -all \x7ba+\x7d $host b out\n    pool web\n  \x7d else \x7b\n" ++
      "    class match -name -- $host equals hosts\n    node 10.0.0.1 80\n  \x7d\n\x7d"
    (parse source).diagnostics = [] ∧ (parse source).script.Valid := by
  intro source
  have clean : (parse source).diagnostics = [] := by decide +kernel
  exact ⟨clean, parse_valid source clean⟩

end IRule
