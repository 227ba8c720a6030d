import IRule.Proofs.Parser.Vouching.Statement

/-!
# Every flag is listed or reported

The flags of every `regsub` in a script are the option words behind it in the rule, and
those that the table does not list are reported. The table is looked up without dashes,
however many there are.
-/

namespace IRule

/-- The token and the flags of a `regsub`. -/
@[simp]
def Node.regsub? : Node → Option (Token × List String)
  | .expression (.regsub token flags ..) => some (token, flags)
  | _ => none

/-- The `regsub` commands of a script, at any depth. -/
def Script.regsubs (script : Script) : List (Token × List String) :=
  script.nodes.filterMap Node.regsub?

namespace Parser

/-- What is vouched for is shown. -/
theorem AllVouched.shows {transcript : Transcript} {nodes : List Node}
    (vouched : AllVouched transcript nodes) :
    ∀ command ∈ nodes.filterMap Node.regsub?, transcript.Shows command.1 command.2 := by
  intro command mem
  obtain ⟨node, inside, found⟩ := List.mem_filterMap.1 mem
  have covers := vouched node inside
  unfold Node.regsub? at found
  split at found
  · cases found
    exact covers
  · cases found

end Parser

open IRule.Parser

/-- Only listed flags of `regsub` are taken without a report. For every `regsub` in a
script the parser of the rule got to its token, and its flags are the option words behind
it, up to `--` or up to the first word that is none. Each of them is a name of the table
behind one or more dashes, or it is reported; so all of them are listed in a rule without
a problem. -/
theorem regsub_flags_listed (declared : List String) (source : String) :
    ∀ command ∈ (parseWith declared source).script.regsubs,
      (∃ state, Visited source.toList declared state ∧ state.current = command.1 ∧
        FlagWords (parseWith declared source).diagnostics state command.2) ∧
      (∀ flag ∈ command.2, IsListedFlag flag ∨
        ∃ line, (Problem.regsubFlag flag).diagnostic line ∈
          (parseWith declared source).diagnostics) ∧
      ((parseWith declared source).diagnostics = [] → ∀ flag ∈ command.2, IsListedFlag flag) := by
  intro command mem
  obtain ⟨state, visited, here, words⟩ := (parseWith_vouched declared source).shows command mem
  have known := words.listed_or_reported
  refine ⟨⟨state, visited, here, words⟩, known, fun clean flag inside => ?_⟩
  rcases known flag inside with listed | ⟨line, reported⟩
  · exact listed
  · simp [clean] at reported

/-- A flag behind two dashes is taken without a report. -/
theorem regsub_flags_listed_dashes :
    let source := "regsub --all a b c out"
    (parseWith [] source).diagnostics = [] ∧
      ∃ token, (token, ["--all"]) ∈ (parseWith [] source).script.regsubs ∧
        IsListedFlag "--all" := by
  intro source
  have clean : (parseWith [] source).diagnostics = [] := by decide +kernel
  have flags : (parseWith [] source).script.regsubs.map Prod.snd = [["--all"]] := by
    decide +kernel
  obtain ⟨⟨token, words⟩, only, same⟩ := List.map_eq_singleton_iff.1 flags
  cases same
  have mem : (token, ["--all"]) ∈ (parseWith [] source).script.regsubs := by simp [only]
  exact ⟨clean, token, mem, (regsub_flags_listed [] source _ mem).2.2 clean _ (by simp)⟩

end IRule
