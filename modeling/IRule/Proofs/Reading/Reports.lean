import IRule.Proofs.RoundTrip.Script

/-!
# Reading with reports

Most problems do not keep the parser from reading on. `Reports` says which problems were
reported, in which order; `ReadsWord` says what is read of a text that stands as a word,
and what is reported of it. Words make up the arguments of a command, and a statement on
its own makes up a rule.
-/

namespace IRule

namespace Parser

open Lexeme (Breaks Spells)

variable {setting : Setting} {state : State} {rest : List Char}

/-! ## Words -/

section Words

variable {α : Type} {written : α → List Char} {accepts : α → Expression → Prop}
  {problems : α → List Problem}

/-- Words with a blank in front of each. -/
def spaced (written : α → List Char) (words : List α) : List Char :=
  words.flatMap fun word => ' ' :: written word

@[simp]
theorem spaced_nil : spaced written [] = [] := rfl

@[simp]
theorem spaced_cons (word : α) (words : List α) :
    spaced written (word :: words) = ' ' :: (written word ++ spaced written words) := rfl

theorem toList_spacedWords (written : α → String) (words : List α) :
    (spacedWords (words.map written)).toList =
    spaced (fun word => (written word).toList) words := by
  simp [spacedWords, spaced, String.toList_join, List.flatMap_map]

theorem breaks_spaced (breaks : Breaks rest) (words : List α) :
    Breaks (spaced written words ++ rest) := by
  cases words with
  | nil => exact breaks
  | cons word words => exact breaks_space

/-- A word ends in front of others and where the command does. -/
theorem stops_spaced (closes : setting.Closes rest) (words : List α) :
    setting.Stops .word (spaced written words ++ rest) := by
  cases words with
  | nil => exact closes.stops .word
  | cons word words => exact Setting.stops_space .word

/-- The arguments of a command are its words up to the end, with the problems of each. -/
theorem yields_words {words : List α} {found : List Problem}
    (reads : ∀ word ∈ words, ReadsWord (written word) (accepts word) (problems word))
    (begins : ∀ word ∈ words, Begins (written word)) (closes : setting.Closes rest)
    (awaits : state.Awaits (Reports found) setting (spaced written words ++ rest)) :
    Yields language.arguments state fun result last =>
      List.Forall₂ accepts words result ∧
        last.Awaits (Reports (found ++ words.flatMap problems)) setting rest := by
  induction words generalizing state found with
  | nil =>
    have ended : state.endsCommand = true := closes.ends state.quiet awaits.faces
    exact readsWords_arguments.none awaits.coherent ended ⟨.nil, by simpa using awaits⟩
  | cons word words ih =>
    have faced : state.Awaits (Reports found) setting
        ([' '] ++ (written word ++ (spaced written words ++ rest))) := by simpa using awaits
    have quiet : state.quiet.endsCommand = false :=
      (begins word (List.mem_cons_self ..)).goesOn faced.faces (stops_spaced closes words).severs
    have more : state.endsCommand = false := quiet
    refine readsWords_arguments.one awaits.coherent more
      (reads word (List.mem_cons_self ..) .space faced (stops_spaced closes words)) ?_
    rintro value next ⟨accepted, awaits⟩
    refine (ih (fun other inside => reads other (List.mem_cons_of_mem _ inside))
      (fun other inside => begins other (List.mem_cons_of_mem _ inside)) awaits).mono ?_
    rintro later last ⟨alike, awaits⟩
    exact ⟨.cons accepted alike, by simpa using awaits⟩

end Words

/-! ## Commands -/

/-- Wherever the text stands as a command, what is accepted is read, and the problems are
reported. -/
structure ReadsAsCommand (text : List Char) (accepts : Expression → Prop)
    (problems : List Problem) : Prop where
  starts : text.head?.any Lexeme.startsOperand
  reads : ∀ ⦃setting : Setting⦄ ⦃state : State⦄ ⦃gap rest : List Char⦄ ⦃spacing : Spacing⦄
    ⦃found : List Problem⦄,
    Gap gap spacing → state.quiet.Faces setting (gap ++ (text ++ rest)) →
    Reports found state.diagnostics → setting.Closes rest →
    state.advance.current.kind ∉ structureKinds ∧
      Yields language.commandOrExpression state.advance fun result last =>
        ∃ copy, result = some copy ∧ accepts copy ∧
          last.Awaits (Reports (found ++ problems)) setting rest

/-- A command in brackets is a word. -/
theorem ReadsAsCommand.bracket {text : List Char} {accepts : Expression → Prop}
    {problems : List Problem} (command : ReadsAsCommand text accepts problems) :
    ReadsWord ('[' :: text ++ [']'])
      (fun value => ∃ token copy, value = .bracket token [copy] ∧ accepts copy) problems := by
  intro setting state gap rest spacing found gapped awaits stops
  have faced : state.quiet.Faces setting (gap ++ ('[' :: (text ++ ']' :: rest))) := by
    simpa using awaits.faces
  have commandsRead : ∀ (next : State) (line : Nat),
      next.Awaits (Reports found) ((setting.delimit .openBracket).inside .bracket)
        (text ++ ']' :: rest) →
      Yields (language.bracketCommands line) next fun copies last =>
        (∃ copy, copies = [copy] ∧ accepts copy) ∧ last.Awaits (Reports (found ++ problems))
          (((setting.delimit .openBracket).inside .bracket).delimit .closeBracket) rest := by
    intro next line awaits
    have opened : 0 < ((setting.delimit .openBracket).inside .bracket).brackets := Nat.succ_pos _
    have closes : ((setting.delimit .openBracket).inside .bracket).Closes (']' :: rest) :=
      Setting.closes_bracket opened
    have behind : next.quiet.Faces ((setting.delimit .openBracket).inside .bracket)
        ([] ++ (text ++ ']' :: rest)) := awaits.faces
    have inner := (behind.startsOperand .none command.starts).1
    have finished : Yields language.commandOrExpression next.advance fun result last =>
        ∃ copy, result = some copy ∧ (accepts copy ∧ last.Awaits (Reports (found ++ problems))
          ((setting.delimit .openBracket).inside .bracket) (']' :: rest)) ∧
          last.endsCommand = true := by
      refine (command.reads .none behind awaits.found closes).2.mono ?_
      rintro _ last ⟨copy, rfl, accepted, awaits⟩
      exact ⟨copy, rfl, ⟨accepted, awaits⟩, closes.ends last.quiet awaits.faces⟩
    refine yields_bracketCommands_command awaits.coherent inner finished ?_
    rintro copy last ⟨accepted, awaits⟩
    refine (yields_bracketCommands_end opened awaits).mono ?_
    rintro _ last ⟨rfl, awaits⟩
    exact ⟨⟨copy, rfl, accepted⟩, awaits⟩
  refine yields_word_of_piece awaits.coherent.advance stops ?_
  obtain ⟨kind, bracketRead⟩ :=
    yields_bracketed [] gapped faced (by simpa using commandsRead) awaits.found
  refine (bracketRead.bracket kind).mono ?_
  rintro _ last ⟨_, rfl, token, _, rfl, ⟨copy, rfl, accepted⟩, awaits⟩
  rw [Setting.knowing_nil] at awaits
  exact ⟨awaits.faces, _, rfl, ⟨token, copy, rfl, accepted⟩, awaits⟩

/-! ## Rules of one statement -/

/-- A text that is read as one statement is a rule with that statement, and nothing else is
reported. -/
theorem parse_statement {declared : List String} {source : String}
    {reported : List Diagnostic → Prop} {accepts : Statement → Prop}
    (balanced : setting.braces = 0)
    (reads : ∀ start : State, start.Faces {} source.toList →
      start.advance.current.kind ≠ .endOfInput ∧
        Yields language.statement start.advance fun result last =>
          ∃ copy, result = some copy ∧ accepts copy ∧ last.Awaits reported setting []) :
    reported (parseWith declared source).diagnostics ∧
      ∃ statement, (parseWith declared source).script.statements = [statement] ∧
        accepts statement := by
  obtain ⟨start, same, faces⟩ :=
    start_faces source.toList (Setting.knows_nothing rfl rfl (Naming.addAll [] declared))
  obtain ⟨starts, statementRead⟩ := reads start faces
  have scriptRead : Yields language.script (.start source.toList declared) fun result last =>
      (reported last.diagnostics ∧ ∃ statement, result = [statement] ∧ accepts statement) ∧
        last.braceCount = 0 := by
    rw [same]
    refine .script faces.ahead.advance starts statementRead ?_
    rintro copy next ⟨accepted, awaits⟩
    refine (yields_script_end awaits.faces).mono ?_
    rintro _ last ⟨rfl, found, balance⟩
    refine ⟨⟨found ▸ awaits.found, copy, rfl, accepted⟩, ?_⟩
    rw [balance, balanced]
    rfl
  obtain ⟨last, found, holds⟩ := scriptRead.outcome
  rwa [found]

/-- The rule that is a command. -/
theorem parse_command {declared : List String} {source : String} {accepts : Expression → Prop}
    {problems : List Problem} (command : ReadsAsCommand source.toList accepts problems) :
    let outcome := parseWith declared source
    Reports problems outcome.diagnostics ∧
      ∃ token copy, outcome.script.statements = [.expression token copy] ∧ accepts copy := by
  have read : ∀ start : State, start.Faces {} source.toList →
      start.advance.current.kind ≠ .endOfInput ∧
        Yields language.statement start.advance fun result last =>
          ∃ copy, result = some copy ∧
            (∃ token command, copy = .expression token command ∧ accepts command) ∧
            last.Awaits (Reports problems) {} [] := by
    intro start faces
    have faced : start.quiet.Faces {} ([] ++ (source.toList ++ [])) := by
      simpa [State.quiet_eq faces.clean] using faces
    obtain ⟨kind, commandRead⟩ :=
      command.reads .none faced (reports_nil_iff.2 faces.clean) Setting.closes_nil
    refine ⟨fun ended => by simp [ended, structureKinds] at kind, ?_⟩
    have finished : Yields language.commandOrExpression start.advance fun result last =>
        ∃ copy, result = some copy ∧ (accepts copy ∧ last.Awaits (Reports problems) {} []) ∧
          last.endsCommand = true := by
      refine commandRead.mono ?_
      rintro _ last ⟨copy, rfl, accepted, awaits⟩
      exact ⟨copy, rfl, ⟨accepted, awaits⟩, Setting.closes_nil.ends last.quiet awaits.faces⟩
    refine (yields_commandStatement faces.ahead.advance kind finished).mono ?_
    rintro _ last ⟨_, rfl, token, copy, rfl, accepted, awaits⟩
    exact ⟨_, rfl, ⟨token, copy, rfl, accepted⟩, awaits⟩
  obtain ⟨reported, _, single, token, copy, rfl, accepted⟩ := parse_statement rfl read
  exact ⟨reported, token, copy, single, accepted⟩

/-- The rule that assigns a word to a variable. -/
theorem parse_assignment {declared : List String} {name : String} {text : List Char}
    {accepts : Expression → Prop} {problems : List Problem} (legible : isRawName name)
    (legal : Naming.isVariableName name) (begins : Begins text)
    (reads : ReadsWord text accepts problems) :
    let outcome := parseWith declared ("set " ++ name ++ " " ++ String.ofList text)
    Reports problems outcome.diagnostics ∧
      ∃ token place value, outcome.script.statements = [.set token (bareWord place name) value] ∧
        accepts value := by
  have read : ∀ start : State,
      start.Faces {} ("set " ++ name ++ " " ++ String.ofList text).toList →
      start.advance.current.kind ≠ .endOfInput ∧
        Yields language.statement start.advance fun result last =>
          ∃ copy, result = some copy ∧
            (∃ token place value, copy = .set token (bareWord place name) value ∧ accepts value) ∧
            last.Awaits (Reports problems) (({} : Setting).knowing [declaredName name]) [] := by
    intro start faces
    have faced : start.Faces {} ([] ++ ("set".toList ++ ([' '] ++ (name.toList ++
        ' ' :: (text ++ []))))) := by
      simpa using faces
    have wordRead : ∀ later : State, later.Stands {} ([' '] ++ (text ++ [])) → True →
        Yields (language.word .word) later.advance fun result last =>
          ∃ value, result = some value ∧ (accepts value ∧ True) ∧
            last.Awaits (Reports problems) {} [] := by
      intro later stands _
      refine (reads .space stands.awaits (Setting.closes_nil.stops .word)).mono ?_
      rintro _ last ⟨value, rfl, accepted, awaits⟩
      exact ⟨value, rfl, ⟨accepted, trivial⟩, awaits⟩
    have kind : start.advance.current.kind = .reserved .set :=
      (faced.name .none (by decide) breaks_space).1.trans (by decide)
    refine ⟨by simp [kind], ?_⟩
    refine (yields_setWord (fun _ => True) legible legal (by simp [Setting.Spares]) .none rfl faced
      Setting.ends_nil begins trivial wordRead).mono ?_
    rintro _ last ⟨copy, rfl, ⟨made, -⟩, awaits⟩
    exact ⟨copy, rfl, made, awaits⟩
  obtain ⟨reported, _, single, token, place, value, rfl, accepted⟩ :=
    parse_statement rfl read
  exact ⟨reported, token, place, value, single, accepted⟩

end Parser

end IRule
