import IRule.Proofs.Lexer.Braces
import IRule.Proofs.Parser.Termination

/-!
# Counting braces

The parser counts the braces it has passed, and the lexer those it has read,
which is one token more. The counts agree in every state on the way. Braces
left open are reported at the end of the rule and only there, and in plain text
they are the braces that matching from left to right leaves open.
-/

namespace IRule

open IRule.Parser

namespace Parser

/-- The count of the parser is the depth of the lexer less the share of the
lookahead. -/
theorem State.Coherent.braceCount_eq {state : State} (coherent : state.Coherent) :
    0 ≤ state.braceCount ∧
      state.braceCount =
        state.lexer.scanner.braceDepth - State.braceChange state.lookahead.kind := by
  obtain ⟨gap, text, reading⟩ := coherent.reading
  have depth := reading.depth
  have braces := coherent.braces
  omega

/-- Taking a braced word, found or not, ends in a state on the way. -/
theorem Reached.captureBrace_ends {declared : List String} {source : List Char} {state : State}
    {steps : Nat} (reached : Reached source declared state) (deep : state.depth .drain < steps) :
    ∃ result last, Reached source declared last ∧
      captureBrace ⟨unfold steps⟩ state = some (result, last) := by
  have calls : Calls ⟨unfold steps⟩ ⟨unfold steps⟩ 1 state := by
    refine ⟨Reached.coherent reached, fun called inner descends => ?_⟩
    have low := called.rank_lt_top
    have less := descends.less
    have enough : inner.depth called < steps := by
      have last : Production.drain.rank = 0 := rfl
      simp only [State.depth, Production.top, last] at low deep ⊢
      omega
    exact unfold_reads (descends.leads.coherent (Reached.coherent reached)) enough enough
  have reads : Reads (captureBrace ⟨unfold steps⟩ >>= pure) (captureBrace ⟨unfold steps⟩ >>= pure)
      state fun _ _ => True :=
    captureBrace_bind calls (fun _ _ => .pure trivial) fun _ _ _ _ => .pure trivial
  rw [bind_pure] at reads
  obtain ⟨result, last, runs, -, passage, -⟩ := reads
  exact ⟨result, last, Leads.steps reached passage.steps, runs⟩

/-! ## Plain text -/

/-- In plain text every step keeps count. -/
theorem Step.counts {state next : State} (step : Step state next) (coherent : state.Coherent)
    (plain : PlainText state.source) (counts : state.lexer.before.Counts state.source) :
    next.lexer.before.Counts next.source := by
  cases step with
  | advance =>
    have read := Lexer.next_counts ⟨state.lexer.before, state.lexer.before⟩ plain counts
    rw [coherent.read] at read
    exact read
  | capture captured => exact Lexer.capture?_counts plain counts captured
  | _ => exact counts

theorem Steps.counts {state last : State} (steps : Steps state last) (coherent : state.Coherent)
    (plain : PlainText state.source) (counts : state.lexer.before.Counts state.source) :
    last.lexer.before.Counts last.source := by
  induction steps with
  | refl => exact counts
  | tail prior step ih =>
    refine step.counts (Steps.coherent prior coherent) ?_ ih
    rwa [Steps.source_eq prior]

/-- At the end of plain text the open braces are those that matching leaves open. -/
theorem braceCount_of_plainText {declared : List String} {source : List Char} {last : State}
    (plain : PlainText source) (steps : Steps (.start source declared) last)
    (ended : last.current.kind = .endOfInput) : last.braceCount = openBraces 0 source := by
  have start : (State.start source declared).lexer.before.Counts source :=
    Lexer.next_counts _ plain ⟨[], rfl, rfl⟩
  have coherent := Steps.coherent steps (start_coherent source declared)
  obtain ⟨passed, whole, depth⟩ :=
    Steps.counts steps (start_coherent source declared) plain start
  have same : last.source = source := Steps.source_eq steps
  rw [(coherent.atEnd ended).2, List.append_nil, same] at whole
  rw [coherent.braces, depth, whole]

/-! ## The report -/

/-- Open braces are reported at the end, with their number, and only there. -/
theorem Completed.mem_unbalanced {declared : List String} {source : String}
    {statements : List Statement} {last : State}
    (completed : Completed declared source statements last) (diagnostic : Diagnostic) :
    diagnostic ∈ last.balanced.diagnostics ∧ diagnostic.code = .unbalancedBraces ↔
      0 < last.braceCount ∧
        diagnostic = (Problem.unbalanced last.braceCount).diagnostic last.current.line := by
  have coherent := completed.passage.coherent (start_coherent source.toList declared)
  have counted := coherent.braceCount_eq.1
  have before (mem : diagnostic ∈ last.diagnostics) : diagnostic.code ≠ .unbalancedBraces := by
    rcases Steps.unbalanced completed.passage.steps mem with start | code
    · exact absurd start List.not_mem_nil
    · exact code
  unfold State.balanced
  split
  · rename_i balanced
    have none : last.braceCount = 0 := beq_iff_eq.1 balanced
    simp only [none, lt_self_iff_false, false_and, iff_false, not_and]
    exact before
  · rename_i unbalanced
    have some : 0 < last.braceCount := by
      have : last.braceCount ≠ 0 := by simpa using unbalanced
      omega
    simp only [State.record, List.mem_append, List.mem_singleton, some, true_and]
    constructor
    · rintro ⟨mem | rfl, code⟩
      · exact absurd code (before mem)
      · rfl
    · rintro rfl
      exact ⟨.inr rfl, by simp [Problem.diagnostic, Problem.code]⟩

end Parser

/-- In every state on the way through a rule, which productions and the taking of
braced words leave only for other such states, the count of the parser is not
negative and is the depth of the lexer less the share of the lookahead. Open
braces are reported exactly when some are open at the end, with their number. In
plain text that is the number of braces that matching from left to right leaves
open. -/
theorem brace_accounting (declared : List String) (source : String) :
    (∀ state, Reached source.toList declared state →
      0 ≤ state.braceCount ∧
      state.braceCount =
        state.lexer.scanner.braceDepth - State.braceChange state.lookahead.kind ∧
      (∀ production, ∃ result last, Reached source.toList declared last ∧
        ∀ steps, state.depth production ≤ steps →
          unfold (steps + 1) production state = some (result, last) ∧
          rules (Grammar.only ⟨unfold steps⟩ fun _ inner => Reached source.toList declared inner)
            production state = some (result, last)) ∧
      ∀ steps, state.depth .drain < steps →
        ∃ result last, Reached source.toList declared last ∧
          captureBrace ⟨unfold steps⟩ state = some (result, last)) ∧
    (∃ last, Reached source.toList declared last ∧ last.current.kind = .endOfInput ∧
      (parseWith declared source).braceCount = last.braceCount) ∧
    ((∃ diagnostic ∈ (parseWith declared source).diagnostics,
        diagnostic.code = .unbalancedBraces) ↔
      0 < (parseWith declared source).braceCount) ∧
    (∀ diagnostic ∈ (parseWith declared source).diagnostics,
      diagnostic.code = .unbalancedBraces →
        diagnostic.message = "Unbalanced braces: depth at end of parsing is " ++
          toString (parseWith declared source).braceCount) ∧
    (PlainText source.toList →
      (parseWith declared source).braceCount = openBraces 0 source.toList) := by
  obtain ⟨statements, last, completed⟩ := exists_completed declared source
  have reached : Reached source.toList declared last := .steps .refl completed.passage.steps
  have count : (parseWith declared source).braceCount = last.braceCount := by
    simp [completed.outcome]
  have reported : (parseWith declared source).diagnostics = last.balanced.diagnostics := by
    rw [completed.outcome]
  refine ⟨fun state on => ?_, ⟨last, reached, completed.atEnd, count⟩, ?_, ?_, ?_⟩
  · obtain ⟨nonnegative, depth⟩ := (Reached.coherent on).braceCount_eq
    refine ⟨nonnegative, depth, fun production => Reached.rule_ends on ?_, fun steps deep => ?_⟩
    · exact fun called inner descends => on.trans descends.leads
    · exact Reached.captureBrace_ends on deep
  · rw [reported, count]
    constructor
    · rintro ⟨diagnostic, found⟩
      exact ((completed.mem_unbalanced diagnostic).1 found).1
    · exact fun some => ⟨_, (completed.mem_unbalanced _).2 ⟨some, rfl⟩⟩
  · rw [reported, count]
    intro diagnostic mem code
    obtain ⟨-, rfl⟩ := (completed.mem_unbalanced diagnostic).1 ⟨mem, code⟩
    exact Diagnostic.error_message _ _ _
  · intro plain
    rw [count]
    exact braceCount_of_plainText plain completed.passage.steps completed.atEnd

end IRule
