import IRule.Proofs.Parser.Validation
import IRule.Proofs.RoundTrip.Statement

/-!
# Scripts read back

The written form of a legible script is read without a problem, and gives a
script of the same shape and the same written form.
-/

namespace IRule

namespace Parser

variable {names : Names} {setting : Setting}

/-- A script is read to its end without a problem, with the given braces open. -/
structure Finished (braces : Nat) (last : State) : Prop where
  clean : last.diagnostics = []
  braceCount : last.braceCount = braces

/-- A script is its first statement, and what is read behind it. -/
theorem Yields.script {accepts : Statement → State → Prop} {state : State}
    {post : List Statement → State → Prop} (coherent : state.Coherent)
    (more : state.current.kind ≠ .endOfInput)
    (first : Yields language.statement state fun result last =>
      ∃ copy, result = some copy ∧ accepts copy last)
    (later : ∀ (copy : Statement) (next : State), accepts copy next →
      Yields language.script next.advance fun copies last => post (copy :: copies) last) :
    Yields language.script state post := by
  change Yields (language.parse .script) _ _
  refine .rule coherent ?_
  change Yields (Parser.script language) _ _
  simp only [Parser.script, Yields.current_bind, beq_eq_false_iff_ne.2 more, Bool.false_eq_true,
    if_false]
  refine first.bind ?_
  rintro _ next ⟨copy, rfl, accepted⟩
  simp only [Yields.advance_bind]
  exact (later copy next accepted).bind fun copies last holds => .pure holds

/-- Reading on at the end of the text reports nothing more. -/
theorem yields_script_end {state : State} (ended : state.quiet.Faces setting []) :
    Yields language.script state.advance fun result last =>
      result = [] ∧ last.diagnostics = state.diagnostics ∧ last.braceCount = setting.braces := by
  have here : (state.advance.current.kind == .endOfInput) = true := by
    have kind : state.advance.current.kind = .endOfInput := ended.atEnd
    simp [kind]
  have spells : Lexeme.Spells setting.braces setting.brackets [] [] .endOfInput := ⟨rfl, rfl⟩
  obtain ⟨-, -, -, final⟩ := State.Faces.token ended .none spells
  have awaits : state.advance.Awaits (· = state.diagnostics) (setting.delimit .endOfInput) [] :=
    ⟨final, rfl⟩
  change Yields (language.parse .script) _ _
  refine .rule awaits.coherent ?_
  change Yields (script language) _ _
  simp only [script, Yields.current_bind, here, if_true]
  refine .pure ⟨rfl, rfl, ?_⟩
  rw [awaits.coherent.braces]
  exact congrArg Nat.cast final.braces

/-- A script has no more statements at the end of the text. -/
theorem yields_script_nil {state : State} (ended : state.Faces setting []) :
    Yields language.script state.advance fun result last =>
      result = [] ∧ Finished setting.braces last := by
  refine (yields_script_end (by rwa [State.quiet_eq ended.clean])).mono ?_
  rintro _ last ⟨rfl, same, braceCount⟩
  exact ⟨rfl, same.trans ended.clean, braceCount⟩

/-- One statement of a script, and those behind it. -/
theorem yields_script_cons {statement : Statement} {statements : List Statement} {state : State}
    {gap : List Char} {spacing : Spacing} (reads : ReadsStatement names statement)
    (opens : Opens statement) (admits : setting.Admits names)
    (scripted : setting.nesting.head? = some .script)
    (free : setting.scopes.current.inter statement.exclusives.rivals = .empty)
    (gapped : Gap gap spacing)
    (faces : state.Faces setting (gap ++ (statement.written.toList ++
      (followed "\n" (writtenStatements statements)).toList)))
    (ends : setting.Ends (followed "\n" (writtenStatements statements)).toList)
    (later : ∀ next : State,
      next.Stands (setting.after statement.exclusives statement.names)
        (followed "\n" (writtenStatements statements)).toList →
      Yields language.script next.advance fun result last =>
        shapeStatements result = shapeStatements statements ∧ Finished setting.braces last) :
    Yields language.script state.advance fun result last =>
      shapeStatements result = shapeStatements (statement :: statements) ∧
        Finished setting.braces last := by
  have goesOn := opens.kind gapped faces (ends.closes .empty []).severs
  have more : state.advance.current.kind ≠ .endOfInput := by
    simp only [List.mem_cons, List.not_mem_nil, or_false, not_or] at goesOn
    exact goesOn.2
  refine .script faces.ahead.advance more (reads admits gapped scripted faces ends free) ?_
  rintro copy next ⟨same, stands⟩
  refine (later next stands).mono ?_
  rintro copies last ⟨shapes, finished⟩
  exact ⟨by simp [shapeStatements, same, shapes], finished⟩

/-- Statements of a script are read back up to the end of the text. -/
theorem yields_script {statements : List Statement} {state : State}
    (each : ReadsEach names statements) (admits : setting.Admits names)
    (scripted : setting.nesting.head? = some .script)
    (compatible : (setting.scopes.current.union (exclusivesOf statements)).Compatible)
    (faces : state.Faces setting (followed "\n" (writtenStatements statements)).toList) :
    Yields language.script state.advance fun result last =>
      shapeStatements result = shapeStatements statements ∧ Finished setting.braces last := by
  induction each generalizing setting state with
  | nil =>
    refine (yields_script_nil (by simpa [writtenStatements] using faces)).mono ?_
    rintro _ last ⟨rfl, finished⟩
    exact ⟨rfl, finished⟩
  | @cons names statement statements reads opens later ih =>
    simp only [exclusivesOf, ← Exclusives.union_assoc] at compatible
    have faced : state.Faces setting (['\n'] ++ (statement.written.toList ++
        (followed "\n" (writtenStatements statements)).toList)) := by
      simpa [writtenStatements] using faces
    have ends : setting.Ends (followed "\n" (writtenStatements statements)).toList := by
      simpa using later.ends scripted Setting.ends_nil
    refine yields_script_cons reads opens admits scripted
      (Exclusives.inter_rivals_eq_empty compatible.of_union) .line faced ends fun next stands => ?_
    have finished := ih (admits.after statement.exclusives statement.names) scripted compatible
      stands.toFaces
    exact finished

/-- What a script is read with when some variables are declared beforehand. -/
theorem start_faces {known barred : List String} (text : List Char) {declared : List String}
    (knows : ({ known := known, barred := barred } : Setting).Knows
      (Naming.addAll [] declared)) :
    ∃ start : State, State.start text declared = start.advance ∧
      start.Faces { known := known, barred := barred } text := by
  refine ⟨{ (State.blank text 1).advance with declared := Naming.addAll [] declared }, rfl, ?_⟩
  have ahead := blank_advance_ahead text 1
  exact ⟨⟨ahead.read, ahead.stands, ahead.braces⟩, rfl, rfl, rfl, rfl, rfl, rfl, knows, rfl⟩

/-- The written form of statements is read back from the start of a text. -/
theorem yields_written {statements : List Statement} {barred : List String}
    (each : ReadsEach { barred := barred } statements)
    (compatible : (exclusivesOf statements).Compatible) :
    Yields language.script
      (State.start (separated "\n" (writtenStatements statements)).toList [])
      fun result last => shapeStatements result = shapeStatements statements ∧
        Finished 0 last := by
  have knows : ({ barred := barred } : Setting).Knows (Naming.addAll [] []) :=
    ⟨fun _ inside => inside, fun _ _ => List.not_mem_nil⟩
  obtain ⟨start, same, faces⟩ :=
    start_faces (separated "\n" (writtenStatements statements)).toList knows
  rw [same]
  have joined : (({ barred := barred } : Setting).scopes.current.union
      (exclusivesOf statements)).Compatible := by
    simpa [Exclusives.union, Exclusives.empty] using compatible
  have admits : ({ barred := barred } : Setting).Admits { barred := barred } :=
    ⟨fun _ => rfl, by simp, rfl, by simp⟩
  cases each with
  | nil =>
    exact yields_script .nil admits rfl joined
      (by simpa [writtenStatements, separated] using faces)
  | @cons _ statement statements reads opens later =>
    simp only [exclusivesOf, ← Exclusives.union_assoc] at joined
    have faced : start.Faces { barred := barred } ([] ++ (statement.written.toList ++
        (followed "\n" (writtenStatements statements)).toList)) := by
      simpa [writtenStatements, separated_cons] using faces
    have ends : ({ barred := barred } : Setting).Ends
        (followed "\n" (writtenStatements statements)).toList := by
      simpa using later.ends rfl Setting.ends_nil
    refine yields_script_cons reads opens admits rfl
      (Exclusives.inter_rivals_eq_empty joined.of_union) .none faced ends fun next stands => ?_
    have finished := yields_script later (admits.after statement.exclusives statement.names) rfl
      joined stands.toFaces
    exact finished

/-- A script that is read to its end with no brace open is the outcome, with what was
reported on the way. -/
theorem Yields.outcome {declared : List String} {source : String}
    {accepts : List Statement → State → Prop}
    (yields : Yields language.script (.start source.toList declared)
      fun result last => accepts result last ∧ last.braceCount = 0) :
    ∃ last : State, (parseWith declared source).diagnostics = last.diagnostics ∧
      accepts (parseWith declared source).script.statements last := by
  obtain ⟨statements, last, reads, accepted, balance⟩ := yields
  have balanced : last.balanced = last := by
    simp [State.balanced, balance]
  rw [parseWith_eq_language reads, balanced]
  exact ⟨last, rfl, accepted⟩

/-- What is known of a script that is read to its end without a problem. -/
theorem Yields.parsed {source : String} {accepts : List Statement → Prop}
    (yields : Yields language.script (.start source.toList [])
      fun result last => accepts result ∧ Finished 0 last) :
    (parse source).diagnostics = [] ∧ accepts (parse source).script.statements := by
  have reads : Yields language.script (.start source.toList []) fun result last =>
      (accepts result ∧ last.diagnostics = []) ∧ last.braceCount = 0 :=
    yields.mono fun _ _ ⟨accepted, finished⟩ => ⟨⟨accepted, finished.clean⟩, finished.braceCount⟩
  obtain ⟨last, same, accepted, clean⟩ := reads.outcome
  exact ⟨same.trans clean, accepted⟩

end Parser

open IRule.Parser

/-- The written form of a valid, legible script is read without a problem, and
means the same. -/
theorem parse_written {script : Script} (valid : script.Valid) (legible : script.legible) :
    (parse script.written).diagnostics = [] ∧
      (parse script.written).script.shape = script.shape := by
  have each := readsEach_of_legible _ script.statements legible valid.1
  obtain ⟨clean, shapes⟩ := Yields.parsed (yields_written each valid.2)
  exact ⟨clean, congrArg Script.mk shapes⟩

/-- Reading the written form of an accepted, legible rule gives the rule again:
without a problem, in the same shape and in the same written form. -/
theorem round_trip (source : String) (clean : (parse source).diagnostics = [])
    (legible : (parse source).script.legible) :
    let text := (parse source).script.written
    (parse text).diagnostics = [] ∧ (parse text).script.written = text ∧
      (parse text).script.shape = (parse source).script.shape := by
  intro text
  obtain ⟨again, shape⟩ := parse_written (parseWith_valid clean) legible
  exact ⟨again, Script.written_eq_of_shape_eq shape, shape⟩

/-- Handlers, conditions, operators of several strengths, regular expressions in quotes and in
braces, strings with embedded variables, loops over several variables, the arms of a switch, and a
hash with a variable that is assigned between brackets. -/
theorem round_trip_handler :
    let source :=
      "when HTTP_REQUEST priority 5 \x7b\n" ++
      "  set host [string tolower [HTTP::host]]\n  set n($host) [expr (1 + 2) * -5]\n" ++
      "  if \x7b $host matches_regex \"^[a-z]+$\" && -($n($host) + 1) < 2 \x7d \x7b drop \x7d\n" ++
      "  else \x7b foreach \x7bkey value\x7d $host \x7b log local0. \"web $key\" \x7d \x7d\n" ++
      "  set re \x7b^/([^/]+)|x\x7d\n" ++
      "  switch -glob [set path [HTTP::uri]] \x7b\n" ++
      "    \"/a*\" - \x7b/b*\x7d \x7b set d \x7bk: 1, j: $path\x7d \x7d\n" ++
      "    default \x7b !$n(a) \x7d\n  \x7d\n\x7d"
    let text := (parse source).script.written
    (parse source).diagnostics = [] ∧ (parse source).script.legible ∧
      (parse text).diagnostics = [] ∧ (parse text).script.written = text ∧
      (parse text).script.shape = (parse source).script.shape := by
  intro source text
  obtain ⟨clean, legible⟩ : (parse source).diagnostics = [] ∧ (parse source).script.legible := by
    decide +kernel
  exact ⟨clean, legible, round_trip source clean legible⟩

end IRule
