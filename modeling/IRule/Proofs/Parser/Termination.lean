import IRule.Proofs.Parser.Statement

/-!
# Parsing ends

Every call of a production gets nearer to the end of a text, so the depth to
which the grammar is unfolded does not matter once it is large enough, and
`depthBound` always is. The parser ends at the end of the rule.
-/

namespace IRule.Parser

open Text

/-! ## Unfolding -/

/-- A depth to which unfolding a production in a state never gets. -/
def State.depth (state : State) (production : Production) : Nat :=
  Production.top * state.remaining + production.rank

theorem Descends.depth_lt {state inner : State} {production called : Production}
    (descends : Descends state production.rank called inner) :
    inner.depth called < state.depth production := by
  have low := called.rank_lt_top
  have less := descends.less
  simp only [State.depth, Production.top] at low ⊢
  omega

/-- Deep enough, the grammar keeps all contracts, and the same way at any depth. -/
theorem unfold_reads {first second : Nat} {production : Production} {state : State}
    (coherent : state.Coherent) (deep : state.depth production < first)
    (enough : state.depth production < second) :
    Reads (unfold first production) (unfold second production) state (production.Good state) := by
  -- One unfolding is a rule over a grammar unfolded one less deep, and its calls descend.
  induction first generalizing second production state with
  | zero => simp at deep
  | succ first ih =>
    cases second with
    | zero => simp at enough
    | succ second =>
      refine rules_reads ⟨coherent, fun called inner descends => ?_⟩
      have less := descends.depth_lt
      exact ih (descends.leads.coherent coherent) (by omega) (by omega)

/-- Snippets and later places of a text leave no more to read than the text. -/
theorem Reached.depth_lt {source : List Char} {declared : List String} {state : State}
    (reached : Reached source declared state) (production : Production) :
    state.depth production < depthBound (byteLength source) := by
  have low := production.rank_lt_top
  have shorter : byteLength state.source ≤ byteLength source := by
    rcases Leads.source reached with same | less
    · rw [same]
      exact le_rfl
    · exact less.le
  have inside : state.remaining ≤ byteLength state.source := Nat.sub_le _ _
  simp only [State.depth, depthBound, Production.top] at low ⊢
  omega

/-! ## Calls -/

open Classical in
/-- A grammar in which only some calls are answered; all others run out of steps. -/
noncomputable def Grammar.only (grammar : Grammar) (allowed : Production → State → Prop) :
    Grammar where
  parse := fun production state =>
    if allowed production state then grammar.parse production state else none

/-- A rule makes only calls that get nearer to the end: it does the same when no
other call is answered. -/
theorem rules_only {steps : Nat} {production : Production} {state : State}
    {allowed : Production → State → Prop} (coherent : state.Coherent)
    (deep : state.depth production ≤ steps)
    (allows : ∀ called inner, Descends state production.rank called inner → allowed called inner) :
    Reads (rules ⟨unfold steps⟩ production) (rules (Grammar.only ⟨unfold steps⟩ allowed) production)
      state (production.Good state) := by
  refine rules_reads ⟨coherent, fun called inner descends => ?_⟩
  have less := descends.depth_lt
  have inside := descends.leads.coherent coherent
  obtain ⟨result, last, left, -, passage, good⟩ :=
    unfold_reads inside (less.trans_le deep) (less.trans_le deep)
  exact ⟨result, last, left, by simpa [Grammar.only, allows called inner descends] using left,
    passage, good⟩

/-- A call makes progress when it reads on behind the current token, when it
leaves the current token to a production of lower rank, or when it reads a text
shorter than the present one. A production that calls itself reads on or reads a
shorter text. -/
inductive Progress (state : State) (production called : Production) (inner : State) : Prop where
  | further (same : inner.source = state.source)
      (further : state.current.span.start < inner.current.span.start)
  | lower (same : inner.source = state.source)
      (here : inner.current.span.start = state.current.span.start)
      (lower : called.rank < production.rank)
  | snippet (shorter : byteLength inner.source < byteLength state.source)

theorem Descends.progress {state inner : State} {production called : Production}
    (descends : Descends state production.rank called inner) (coherent : state.Coherent) :
    Progress state production called inner := by
  have inside := (descends.leads.coherent coherent).start_le
  have outside := coherent.start_le
  have less := descends.less
  rcases descends.leads.source with same | shorter
  · simp only [State.remaining, same] at less inside
    rcases less with less | ⟨equal, lower⟩
    · exact .further same (by omega)
    · exact .lower same (by omega) lower
  · exact .snippet shorter

/-! ## The end -/

/-- Reading statements to the end of a text gets to the end of the text. -/
theorem unfold_script_atEnd {steps : Nat} {state last : State} {statements : List Statement}
    (runs : unfold steps .script state = some (statements, last)) :
    last.current.kind = .endOfInput := by
  induction steps generalizing state statements with
  | zero => simp [unfold, outOfSteps] at runs
  | succ steps ih =>
    change script ⟨unfold steps⟩ state = _ at runs
    unfold script at runs
    obtain ⟨token, here, looked, runs⟩ := bind_eq_some runs
    cases looked
    split at runs
    · cases runs
      exact beq_iff_eq.1 ‹_›
    · obtain ⟨next, middle, -, runs⟩ := bind_eq_some runs
      obtain ⟨_, onward, -, runs⟩ := bind_eq_some runs
      obtain ⟨later, last, runs, same⟩ := bind_eq_some runs
      cases same
      exact ih runs

/-- The state with open braces reported. -/
def State.balanced (state : State) : State :=
  if state.braceCount == 0 then state
  else state.record ((Problem.unbalanced state.braceCount).diagnostic state.current.line)

namespace State

variable (state : State)

@[simp]
theorem balanced_current : state.balanced.current = state.current := by
  unfold balanced
  split <;> rfl

@[simp]
theorem balanced_lookahead : state.balanced.lookahead = state.lookahead := by
  unfold balanced
  split <;> rfl

@[simp]
theorem balanced_braceCount : state.balanced.braceCount = state.braceCount := by
  unfold balanced
  split <;> rfl

/-- A clean balance has nothing to report, and nothing was reported before. -/
theorem diagnostics_of_balanced {state : State} (clean : state.balanced.diagnostics = []) :
    state.diagnostics = [] := by
  unfold balanced at clean
  split at clean
  · exact clean
  · simp [record] at clean

end State

theorem checkBalance_eq (state : State) : checkBalance state = some ((), state.balanced) := by
  change (if (state.braceCount == 0) = true then pure ()
    else report (.unbalanced state.braceCount) state.current.line : Parse Unit) state = _
  unfold State.balanced
  split <;> rfl

/-- How a rule is read: from its start to its end, with the same statements for
every depth that is large enough. -/
structure Completed (declared : List String) (source : String) (statements : List Statement)
    (last : State) : Prop where
  unfolds (steps : Nat) (deep : depthBound (byteLength source.toList) ≤ steps) :
    unfold steps .script (.start source.toList declared) = some (statements, last)
  passage : Passage (.start source.toList declared) last
  collected : Quiet (.start source.toList declared) last →
    Collected statements last.scopes.current
  atEnd : last.current.kind = .endOfInput

/-- Every rule is read to its end. -/
theorem exists_completed (declared : List String) (source : String) :
    ∃ statements last, Completed declared source statements last := by
  have bound := Reached.depth_lt (.refl : Reached source.toList declared _) .script
  have coherent := start_coherent source.toList declared
  obtain ⟨statements, last, unfolds, -, passage, collected⟩ := unfold_reads coherent bound bound
  refine ⟨statements, last, ?_, passage, collected, unfold_script_atEnd unfolds⟩
  intro steps deep
  obtain ⟨_, _, left, right, -, -⟩ := unfold_reads coherent bound (bound.trans_le deep)
  rw [right, ← left, unfolds]

/-- The whole of a rule, once it has been read. -/
theorem Completed.wholeScript_eq {declared : List String} {source : String}
    {statements : List Statement} {last : State}
    (completed : Completed declared source statements last) (steps : Nat)
    (deep : depthBound (byteLength source.toList) ≤ steps) :
    (wholeScript steps).run (.start source.toList declared) =
      some (⟨statements⟩, last.balanced) := by
  refine (congrArg (Option.bind · _) (completed.unfolds steps deep)).trans ?_
  exact congrArg (Option.bind · _) (checkBalance_eq last)

theorem Completed.outcome {declared : List String} {source : String}
    {statements : List Statement} {last : State}
    (completed : Completed declared source statements last) :
    parseWith declared source = ⟨⟨statements⟩, last.balanced.diagnostics,
      last.balanced.declared, last.balanced.braceCount⟩ := by
  simp only [parseWith, completed.wholeScript_eq _ le_rfl]

/-- A braced word that was taken verbatim got further. -/
theorem State.Coherent.start_lt_captureBrace {state last : State} {grammar : Grammar}
    {body : List Char} (coherent : state.Coherent)
    (captures : captureBrace grammar state = some (some body, last)) :
    state.current.span.start < last.current.span.start := by
  unfold captureBrace at captures
  obtain ⟨_, _, looked, captures⟩ := bind_eq_some captures
  cases looked
  cases captured : state.lexer.capture? state.current with
  | none =>
    simp only [captured] at captures
    obtain ⟨_, _, -, captures⟩ := bind_eq_some captures
    obtain ⟨_, _, -, captures⟩ := bind_eq_some captures
    cases captures
  | some found =>
    simp only [captured] at captures
    obtain ⟨_, _, moved, captures⟩ := bind_eq_some captures
    cases moved
    cases captures
    exact coherent.start_lt_afterCapture captured

/-- Every rule, started in a state on the way, ends in one, and makes no other calls
than those that get nearer to the end. -/
theorem Reached.rule_ends {declared : List String} {source : List Char} {state : State}
    {production : Production} {allowed : Production → State → Prop}
    (reached : Reached source declared state)
    (allows : ∀ called inner, Descends state production.rank called inner → allowed called inner) :
    ∃ result last, Reached source declared last ∧
      ∀ steps, state.depth production ≤ steps →
        unfold (steps + 1) production state = some (result, last) ∧
        rules (Grammar.only ⟨unfold steps⟩ allowed) production state = some (result, last) := by
  have coherent := Reached.coherent reached
  have here : state.depth production < state.depth production + 1 := Nat.lt_succ_self _
  obtain ⟨result, last, ends, -, passage, -⟩ := unfold_reads coherent here here
  refine ⟨result, last, Leads.steps reached passage.steps, fun steps deep => ?_⟩
  obtain ⟨_, _, alike, same, -, -⟩ := unfold_reads coherent here (Nat.lt_succ_of_le deep)
  obtain ⟨_, _, freely, guarded, -, -⟩ := rules_only coherent deep allows
  have unfolded : unfold (steps + 1) production state = some (result, last) := by
    rw [same, ← alike, ends]
  refine ⟨unfolded, ?_⟩
  rw [guarded, ← freely]
  exact unfolded

/-- Parsing ends on every rule. It gives the same outcome for every depth of
unfolding that is large enough, and stops with nothing but the end of the rule
before it. On the way every token read and every braced word taken verbatim
starts further on than the token before it, until the end is reached; and every
rule, started in any state on the way, ends with the same result for every depth
that is large enough, after calls that all make progress. -/
theorem parsing_terminates (declared : List String) (source : String) :
    (∃ script last,
      (∀ steps, depthBound (byteLength source.toList) ≤ steps →
        (wholeScript steps).run (.start source.toList declared) = some (script, last)) ∧
      last.current.kind = .endOfInput ∧ last.lookahead.kind = .endOfInput ∧
      parseWith declared source = ⟨script, last.diagnostics, last.declared, last.braceCount⟩) ∧
    ∀ state, Reached source.toList declared state →
      (state.current.kind ≠ .endOfInput →
        state.current.span.start < state.advance.current.span.start) ∧
      (state.current.kind = .endOfInput → state.advance.current.kind = .endOfInput) ∧
      (∀ grammar body last, captureBrace grammar state = some (some body, last) →
        state.current.span.start < last.current.span.start) ∧
      ∀ production, state.depth production < depthBound (byteLength source.toList) ∧
        ∃ result last, Reached source.toList declared last ∧
          ∀ steps, state.depth production ≤ steps →
            unfold (steps + 1) production state = some (result, last) ∧
            rules (Grammar.only ⟨unfold steps⟩ fun called inner =>
              Reached source.toList declared inner ∧ Progress state production called inner)
              production state = some (result, last) := by
  constructor
  · obtain ⟨statements, last, completed⟩ := exists_completed declared source
    have coherent := completed.passage.coherent (start_coherent source.toList declared)
    refine ⟨⟨statements⟩, last.balanced, completed.wholeScript_eq, ?_, ?_, completed.outcome⟩
    · rw [State.balanced_current]
      exact completed.atEnd
    · rw [State.balanced_lookahead]
      exact coherent.lookahead_of_atEnd completed.atEnd
  · intro state reached
    have coherent := Reached.coherent reached
    refine ⟨coherent.start_lt_advance, coherent.lookahead_of_atEnd,
      fun _ _ _ => coherent.start_lt_captureBrace, fun production => ?_⟩
    refine ⟨Reached.depth_lt reached production, Reached.rule_ends reached ?_⟩
    exact fun called inner descends =>
      ⟨reached.trans descends.leads, descends.progress coherent⟩

end IRule.Parser
