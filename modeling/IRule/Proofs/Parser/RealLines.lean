import IRule.Proofs.Parser.Accounting.Statement
import IRule.Proofs.Parser.Termination

/-!
# Every line is a line of the rule

The grammar does the same when its productions are answered only in states that the
parser of the rule visits, so no production is ever started in another state, at any
depth of snippets. What it reports and what it builds then has lines of the rule, and
every token that it looks at has the line on which the token stands in the rule.
-/

namespace IRule

open Text

/-! ## Tokens -/

/-- Where a token of a piece of the rule stands in the rule. -/
theorem Token.Located.stands_in_rule {token : Token} {whole before after source : List Char}
    (located : token.Located source (1 + before.count '\n'))
    (stands : whole = before ++ (source ++ after)) :
    ∃ passed text rest, whole = before ++ passed ++ (text ++ rest) ∧
      token.StandsBehind (1 + before.count '\n') passed text ∧
      token.line = 1 + (before ++ passed).count '\n' := by
  obtain ⟨passed, text, rest, split, token⟩ := located.stands
  refine ⟨passed, text, rest ++ after, by simp [stands, split], token, ?_⟩
  rw [token.line, List.count_append, Nat.add_assoc]

namespace Parser

/-! ## Productions in some states only -/

open Classical in
/-- A production, unfolded at most `steps` deep. Started in a state that is not allowed,
a production runs out of steps. -/
noncomputable def unfoldIn (allowed : State → Prop) :
    (steps : Nat) → (production : Production) → Parse production.Result
  | 0, _ => outOfSteps
  | steps + 1, production => fun state =>
    if allowed state then rules ⟨unfoldIn allowed steps⟩ production state else none

theorem unfoldIn_of_allowed {allowed : State → Prop} {steps : Nat} {production : Production}
    {state : State} (allows : allowed state) :
    unfoldIn allowed (steps + 1) production state =
      rules ⟨unfoldIn allowed steps⟩ production state :=
  if_pos allows

/-- The states that the parser of a rule gets to. -/
def Visited (source : List Char) (declared : List String) (state : State) : Prop :=
  ∃ before, Visits (.start source declared) before state

/-- The grammar accounts for its results at every depth, and starts productions in
sound states only. -/
theorem unfold_lawful {source : List Char} {declared : List String} {allowed : State → Prop}
    (allows : ∀ state, Sound source declared state → allowed state) (steps : Nat) :
    Lawful source declared ⟨unfold steps⟩ ⟨unfoldIn allowed steps⟩ := by
  induction steps with
  | zero =>
    intro production state _ _ result last runs
    simp [unfold, outOfSteps] at runs
  | succ steps ih =>
    intro production state sound admitted result last runs
    obtain ⟨alike, accounted⟩ := rules_accounts ih sound admitted result last runs
    exact ⟨(unfoldIn_of_allowed (allows state sound)).trans alike, accounted⟩

/-! ## Rules -/

section Rules

variable {declared : List String} {source : String} {statements : List Statement} {last : State}

/-- A rule that was read is accounted for. -/
theorem Completed.accounted (completed : Completed declared source statements last) (steps : Nat)
    (deep : depthBound (byteLength source.toList) ≤ steps) :
    unfoldIn (Visited source.toList declared) steps .script (.start source.toList declared) =
        some (statements, last) ∧
      Sound source.toList declared last ∧ OnLines source.toList (statementTokens statements) :=
  unfold_lawful (fun _ sound => sound.visited) steps .script _ (.start _ _) trivial statements last
    (completed.unfolds steps deep)

/-- The report of open braces is fair as well. -/
theorem Sound.fair_balanced {source : List Char} (sound : Sound source declared last) :
    ∀ diagnostic ∈ last.balanced.diagnostics, diagnostic.Fair source := by
  unfold State.balanced
  split
  · exact sound.fair
  · intro diagnostic mem
    rcases List.mem_append.1 mem with earlier | latest
    · exact sound.fair diagnostic earlier
    · rw [List.mem_singleton.1 latest]
      exact (Problem.Told.silent rfl).fair sound.line

end Rules

/-- All diagnostics of a rule are fair. -/
theorem parseWith_fair (declared : List String) (source : String) :
    ∀ diagnostic ∈ (parseWith declared source).diagnostics, diagnostic.Fair source.toList := by
  obtain ⟨statements, last, completed⟩ := exists_completed declared source
  obtain ⟨-, sound, -⟩ := completed.accounted _ le_rfl
  rw [completed.outcome]
  exact sound.fair_balanced

/-- Every line is a line of the rule. A rule has one line more than it has line feeds,
and every diagnostic and every token of the script has one of them. Whatever the depth of
unfolding, productions are started in visited states only, in the text of the rule and in
the snippets; and there the text that is read stands in the rule, and the line of every
token is the one on which its text starts in the rule. -/
theorem lines_are_real (declared : List String) (source : String) :
    (∀ diagnostic ∈ (parseWith declared source).diagnostics, ∃ line,
      diagnostic.line = some line ∧ 1 ≤ line ∧ line ≤ source.toList.count '\n' + 1) ∧
    (∀ token ∈ (parseWith declared source).script.tokens,
      1 ≤ token.line ∧ token.line ≤ source.toList.count '\n' + 1) ∧
    (∃ statements last, (parseWith declared source).script = ⟨statements⟩ ∧
      ∀ steps, depthBound (byteLength source.toList) ≤ steps →
        unfold steps .script (.start source.toList declared) = some (statements, last) ∧
        unfoldIn (Visited source.toList declared) steps .script (.start source.toList declared) =
          some (statements, last)) ∧
    ∀ before state, Visits (.start source.toList declared) before state →
      (∃ after, source.toList = before ++ (state.source ++ after)) ∧
      ∀ token ∈ [state.current, state.lookahead], ∃ passed text rest,
        source.toList = before ++ passed ++ (text ++ rest) ∧
        token.StandsBehind (1 + before.count '\n') passed text ∧
        token.line = 1 + (before ++ passed).count '\n' := by
  obtain ⟨statements, last, completed⟩ := exists_completed declared source
  obtain ⟨-, -, lines⟩ := completed.accounted _ le_rfl
  refine ⟨?_, ?_, ⟨statements, last, ?_, ?_⟩, ?_⟩
  · exact fun diagnostic mem => (parseWith_fair declared source diagnostic mem).line
  · rw [completed.outcome]
    exact lines
  · rw [completed.outcome]
  · exact fun steps deep => ⟨completed.unfolds steps deep, (completed.accounted steps deep).1⟩
  · intro before state visits
    have placed := visits.placed (start_placed source.toList declared)
    obtain ⟨after, stands⟩ := placed.stands
    refine ⟨⟨after, stands⟩, fun token mem => ?_⟩
    obtain rfl | rfl : token = state.current ∨ token = state.lookahead := by simpa using mem
    · exact placed.aligned.current.stands_in_rule stands
    · exact placed.aligned.lookahead.stands_in_rule stands

end Parser

end IRule
