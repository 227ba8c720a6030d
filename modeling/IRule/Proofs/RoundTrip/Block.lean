import IRule.Proofs.RoundTrip.Nesting

/-!
# Blocks read back

Statements stand on lines of their own. A statement is read back where its names
are known and nothing in its scope excludes it, and leaves the variables it
declares behind; a block is the run of its statements in a scope of its own.
-/

namespace IRule

namespace Exclusives

theorem union_assoc (first second third : Exclusives) :
    (first.union second).union third = first.union (second.union third) := by
  simp [union, Bool.or_assoc]

/-- What is compatible with a set holds none of its rivals. -/
theorem inter_rivals_eq_empty {present set : Exclusives}
    (compatible : (present.union set).Compatible) : present.inter set.rivals = .empty := by
  obtain ⟨targets, answers⟩ := compatible
  simp only [union, Bool.or_eq_true] at targets answers
  simp only [inter, rivals, empty, mk.injEq, Bool.and_eq_false_iff, Bool.not_eq_false']
  grind

theorem Compatible.of_union {first second : Exclusives}
    (compatible : (first.union second).Compatible) : first.Compatible :=
  Within.compatible ⟨by simp +contextual [union], by simp +contextual [union],
    by simp +contextual [union], by simp +contextual [union]⟩ compatible

end Exclusives

namespace Parser

open Lexeme (Severs Spells)

variable {names : Names} {setting : Setting} {rest : List Char}

/-! ## Settings of statements -/

theorem Setting.Admits.after (admits : setting.Admits names) (exclusives : Exclusives)
    (declared : List String) :
    (setting.after exclusives declared).Admits (names.plus declared) := by
  have excluded : (setting.excluding exclusives).Admits names :=
    admits.congr rfl rfl rfl rfl
  exact excluded.knowing declared

/-- A statement ends in front of the text, whatever it declared, and no alternative
of a condition is ahead. -/
structure Setting.Ends (setting : Setting) (rest : List Char) : Prop where
  closes : ∀ exclusives declared, (setting.after exclusives declared).Closes rest
  final : ∀ (exclusives : Exclusives) (declared : List String) (state : State),
    state.Faces (setting.after exclusives declared) rest →
    state.lookahead.kind ∉ [.reserved .elseIf, .reserved .elseWord]

/-- A statement is read back where its names are known, it ends and nothing in its
scope excludes it. -/
def ReadsStatement (names : Names) (statement : Statement) : Prop :=
  ∀ ⦃setting : Setting⦄ ⦃state : State⦄ ⦃gap rest : List Char⦄ ⦃spacing : Spacing⦄,
    setting.Admits names → Gap gap spacing → setting.nesting.head? = some .script →
    state.Faces setting (gap ++ (statement.written.toList ++ rest)) → setting.Ends rest →
    setting.scopes.current.inter statement.exclusives.rivals = .empty →
    Yields language.statement state.advance fun result last =>
      ∃ copy : Statement, result = some copy ∧ copy.shape = statement.shape ∧
        last.Stands (setting.after statement.exclusives statement.names) rest

/-- A block is read back from its brace on, wherever its names are known. -/
def ReadsBlock (names : Names) (body : Block) : Prop :=
  ∃ inner, body.written.toList = '\x7b' :: inner ∧
    ∀ ⦃setting : Setting⦄ ⦃state : State⦄ ⦃rest : List Char⦄, setting.Admits names →
      state.Stands (setting.delimit .openBrace) (inner ++ rest) →
      Yields (block language) state fun copy last =>
        copy.shape = body.shape ∧ last.Stands (setting.knowing body.names) rest

/-- What the text of a statement starts with ends no block and no condition. -/
def Opens (statement : Statement) : Prop :=
  ∀ (braces brackets : Nat) (rest : List Char), Severs rest →
    ∃ kind first later, statement.written.toList ++ rest = first ++ later ∧
      Spells braces brackets first later kind ∧
      kind ∉ [.reserved .elseIf, .reserved .elseWord, .closeBrace, .endOfInput, .semicolon]

/-- Statements are read back one after the other. -/
inductive ReadsEach : Names → List Statement → Prop where
  | nil {names : Names} : ReadsEach names []
  | cons {names : Names} {statement : Statement} {rest : List Statement}
      (reads : ReadsStatement names statement) (opens : Opens statement)
      (later : ReadsEach (names.plus statement.names) rest) : ReadsEach names (statement :: rest)

/-! ## Ends of statements -/

theorem Setting.after_after (setting : Setting) (first second : Exclusives)
    (declared more : List String) :
    (setting.after first declared).after second more =
      setting.after (first.union second) (declared ++ more) := by
  simp [after, excluding, knowing, Exclusives.union_assoc]

theorem Setting.Ends.after (ends : setting.Ends rest) (exclusives : Exclusives)
    (declared : List String) : (setting.after exclusives declared).Ends rest := by
  constructor
  · intro set more
    rw [setting.after_after]
    exact ends.closes _ _
  · intro set more state faces
    rw [setting.after_after] at faces
    exact ends.final _ _ state faces

/-- Statements end at the end of the text. -/
theorem Setting.ends_nil : setting.Ends [] :=
  ⟨fun _ _ => Setting.closes_nil, fun _ _ _ faces => by simp [faces.atEnd]⟩

/-- Statements end with their line, unless an alternative starts the next one. -/
theorem Setting.ends_line {kind : TokenKind} {first later : List Char}
    (scripted : setting.nesting.head? = some .script)
    (spells : Spells setting.braces setting.brackets first later kind)
    (final : kind ∉ [.reserved .elseIf, .reserved .elseWord]) :
    setting.Ends ('\n' :: (first ++ later)) := by
  obtain ⟨outer, script⟩ := List.head?_eq_some_iff.1 scripted
  refine ⟨fun _ _ => Setting.closes_line script, fun exclusives declared state faces => ?_⟩
  have faced : state.Faces (setting.after exclusives declared) (['\n'] ++ (first ++ later)) := faces
  rw [(faced.token .line spells).1]
  exact final

/-- Statements end in front of others. -/
theorem ReadsEach.ends {statements : List Statement} (each : ReadsEach names statements)
    (scripted : setting.nesting.head? = some .script) (ends : setting.Ends rest) :
    setting.Ends ((followed "\n" (writtenStatements statements)).toList ++ rest) := by
  induction each with
  | nil => simpa [writtenStatements] using ends
  | @cons names statement statements reads opens later ih =>
    have severs := (ih.closes .empty []).severs
    obtain ⟨kind, first, behind, text, spells, final⟩ :=
      opens setting.braces setting.brackets _ severs
    simp only [List.mem_cons, List.not_mem_nil, or_false, not_or] at final
    have line := Setting.ends_line scripted spells (by simp [final])
    simpa [writtenStatements, ← text] using line

/-! ## Single statements -/

/-- A statement is read where its command ends. -/
theorem Yields.finished {accepts : Statement → State → Prop} {state : State}
    (coherent : state.Coherent) (notEmpty : state.current.kind ≠ .semicolon)
    (body : Yields (statementBody language) state fun result last =>
      ∃ copy, result = some copy ∧ accepts copy last ∧ last.endsCommand = true) :
    Yields language.statement state fun result last =>
      ∃ copy, result = some copy ∧ accepts copy last := by
  change Yields (language.parse .statement) _ _
  refine .rule coherent ?_
  change Yields (Parser.statement language) _ _
  simp only [Parser.statement, Yields.current_bind, beq_eq_false_iff_ne.2 notEmpty,
    Bool.false_eq_true, if_false]
  refine body.bind ?_
  rintro _ last ⟨copy, rfl, accepted, ends⟩
  refine (yields_finishCommand ends).bind ?_
  rintro _ _ rfl
  exact .pure ⟨copy, rfl, accepted⟩

/-- A statement that is read up to where it ends. -/
theorem Yields.statement {accepts : Statement → State → Prop} {state : State}
    (coherent : state.Coherent) (notEmpty : state.current.kind ≠ .semicolon)
    (closes : setting.Closes rest)
    (body : Yields (statementBody language) state fun result last =>
      ∃ copy, result = some copy ∧ accepts copy last ∧ last.Stands setting rest) :
    Yields language.statement state fun result last =>
      ∃ copy, result = some copy ∧ accepts copy last ∧ last.Stands setting rest := by
  refine .finished coherent notEmpty (body.mono ?_)
  rintro _ last ⟨copy, rfl, accepted, stands⟩
  exact ⟨copy, rfl, ⟨accepted, stands⟩, closes.ends last stands.toFaces⟩

/-! ## Runs of statements -/

/-- The token ahead of a statement. -/
theorem Opens.kind {statement : Statement} (opens : Opens statement) {state : State}
    {gap : List Char} {spacing : Spacing} (gapped : Gap gap spacing)
    (faces : state.Faces setting (gap ++ (statement.written.toList ++ rest)))
    (severs : Severs rest) :
    state.advance.current.kind ∉ [.closeBrace, .endOfInput] := by
  obtain ⟨kind, first, later, text, spells, other⟩ :=
    opens setting.braces setting.brackets rest severs
  rw [text] at faces
  have known : state.advance.current.kind = kind := (faces.token gapped spells).1
  rw [known]
  simp only [List.mem_cons, List.not_mem_nil, or_false, not_or] at other ⊢
  exact ⟨other.2.2.1, other.2.2.2.1⟩

/-- A block has no more statements in front of its brace. -/
theorem yields_blockBody_nil (reported : List Diagnostic → Prop) {state : State} {line : Nat}
    {gap : List Char} {spacing : Spacing} (gapped : Gap gap spacing) (opened : 0 < setting.braces)
    (faces : state.quiet.Faces setting (gap ++ (['\x7d'] ++ rest)))
    (found : reported state.diagnostics) :
    Yields (language.blockBody line) state.advance fun result last =>
      result = [] ∧ last.Awaits reported (setting.delimit .closeBrace) rest := by
  obtain ⟨kind, -, -, closed⟩ := faces.token gapped (.closeBrace opened)
  have here : state.advance.current.kind = .closeBrace := kind
  have awaits : state.advance.Awaits reported (setting.delimit .closeBrace) rest :=
    ⟨closed, found⟩
  change Yields (language.parse (.blockBody line)) _ _
  refine .rule awaits.coherent ?_
  change Yields (blockBody language line) _ _
  simp only [blockBody, Yields.current_bind, here]
  exact .pure ⟨rfl, awaits⟩

/-- Statements of a block are read back up to its brace. -/
theorem yields_blockBody {statements : List Statement} {state : State} {line : Nat}
    (each : ReadsEach names statements) (admits : setting.Admits names)
    (scripted : setting.nesting.head? = some .script) (opened : 0 < setting.braces)
    (compatible : (setting.scopes.current.union (exclusivesOf statements)).Compatible)
    (faces : state.Faces setting ((followed "\n" (writtenStatements statements)).toList ++
      '\n' :: '\x7d' :: rest)) :
    Yields (language.blockBody line) state.advance fun result last =>
      shapeStatements result = shapeStatements statements ∧
        last.Stands ((setting.after (exclusivesOf statements) (namesOf statements)).delimit
          .closeBrace) rest := by
  induction each generalizing setting state with
  | nil =>
    have faced : state.quiet.Faces setting (['\n'] ++ (['\x7d'] ++ rest)) := by
      rw [State.quiet_eq faces.clean]
      simpa [writtenStatements] using faces
    refine (yields_blockBody_nil (· = []) .line opened faced faces.clean).mono ?_
    rintro _ last ⟨rfl, awaits⟩
    refine ⟨rfl, ?_⟩
    simpa [Setting.after, exclusivesOf, namesOf] using State.awaits_iff_stands.1 awaits
  | @cons names statement statements reads opens later ih =>
    have ends : setting.Ends ((followed "\n" (writtenStatements statements)).toList ++
        '\n' :: '\x7d' :: rest) :=
      later.ends scripted (Setting.ends_line scripted (.closeBrace opened) (by simp))
    have faced : state.Faces setting (['\n'] ++ (statement.written.toList ++
        ((followed "\n" (writtenStatements statements)).toList ++ '\n' :: '\x7d' :: rest))) := by
      simpa [writtenStatements] using faces
    have goesOn := opens.kind .line faced (ends.closes .empty []).severs
    simp only [exclusivesOf, ← Exclusives.union_assoc] at compatible
    have free := Exclusives.inter_rivals_eq_empty compatible.of_union
    change Yields (language.parse (.blockBody line)) _ _
    refine .rule faces.ahead.advance ?_
    change Yields (blockBody language line) _ _
    simp only [blockBody, Yields.current_bind]
    split
    · simp_all
    · simp_all
    · refine (reads admits .line scripted faced ends free).bind ?_
      rintro _ next ⟨copy, rfl, same, stands⟩
      simp only [Yields.advance_bind]
      refine (ih (admits.after _ _) scripted opened compatible stands.toFaces).bind ?_
      rintro copies last ⟨shapes, stands⟩
      refine .pure ⟨by simp [shapeStatements, same, shapes], ?_⟩
      rwa [Setting.after_after, ← namesOf_cons] at stands

/-! ## Blocks -/

/-- The setting inside the braces of a block. -/
def Setting.body (setting : Setting) : Setting :=
  { setting with
    braces := setting.braces + 1
    nesting := .script :: setting.nesting
    scopes := setting.scopes.enter }

/-- What stands behind the opening brace of a block. -/
def bodyText (statements : List Statement) (rest : List Char) : List Char :=
  match statements with
  | [] => [' '] ++ (['\x7d'] ++ rest)
  | _ => (followed "\n" (writtenStatements statements)).toList ++ '\n' :: '\x7d' :: rest

theorem written_block (token : Token) (statements : List Statement) (rest : List Char) :
    (Block.mk token statements).written.toList ++ rest = ['\x7b'] ++ bodyText statements rest := by
  cases statements with
  | nil => simp [Block.written, bodyText]
  | cons statement statements => simp [Block.written, bodyText, separated_cons, writtenStatements]

/-- The statements of a block are read back, from its opening brace on. -/
theorem yields_bodyText {statements : List Statement} {state : State} {line : Nat}
    (each : ReadsEach names statements) (compatible : (exclusivesOf statements).Compatible)
    (admits : setting.Admits names)
    (stands : state.Stands setting.body (bodyText statements rest)) :
    Yields (language.blockBody line) state.advance fun result last =>
      shapeStatements result = shapeStatements statements ∧
        last.Stands ((setting.body.after (exclusivesOf statements) (namesOf statements)).delimit
          .closeBrace) rest := by
  cases statements with
  | nil =>
    have awaits := State.awaits_iff_stands.2 stands
    refine (yields_blockBody_nil (· = []) .space (Nat.succ_pos _) awaits.stands.toFaces
      awaits.found).mono ?_
    rintro _ last ⟨rfl, awaits⟩
    refine ⟨rfl, ?_⟩
    simpa [Setting.after, exclusivesOf, namesOf] using State.awaits_iff_stands.1 awaits
  | cons statement statements =>
    have inside : setting.body.Admits names :=
      ⟨admits.checked, admits.known, admits.barred, by simp [Setting.body]⟩
    refine yields_blockBody each inside rfl (Nat.succ_pos _) ?_ stands.toFaces
    simpa [Setting.body, Scopes.enter, Exclusives.union, Exclusives.empty] using compatible

/-- The braces of a block are a scope around what is read between them. -/
theorem yields_block {reported : List Diagnostic → Prop} {accepts : List Statement → Prop}
    {exclusives : Exclusives} {declared : List String} {text : List Char} {state : State}
    (opened : state.Awaits reported (setting.delimit .openBrace) text)
    (body : ∀ inner : State, inner.Awaits reported setting.body text →
      Yields (language.blockBody state.current.line) inner.advance fun result last =>
        accepts result ∧ last.Awaits reported
          ((setting.body.after exclusives declared).delimit .closeBrace) rest) :
    Yields (block language) state fun result last =>
      (∃ statements, result = .mk state.current statements ∧ accepts statements) ∧
        last.Awaits reported (setting.knowing declared) rest := by
  let entered : State := { state with scopes := state.scopes.enter }
  have nested : state.nesting = setting.nesting := opened.stands.nesting
  have scopes : state.scopes = setting.scopes := opened.stands.scopes
  have inside : (entered.enter .script).Awaits reported setting.body text :=
    ⟨opened.stands.congr rfl rfl rfl rfl rfl rfl rfl
      (by simp [entered, State.quiet, State.enter, Setting.body, nested])
      (by simp [entered, State.quiet, State.enter, Setting.body, scopes]) opened.stands.checked
      (opened.stands.knows.congr rfl rfl) rfl, opened.found⟩
  have bodyRead : Yields (within .script do advance; language.blockBody state.current.line)
      entered fun result last => accepts result ∧
        ({ last with scopes := last.scopes.leave } : State).Awaits reported
          (setting.knowing declared) rest := by
    refine .within ?_
    rw [Yields.advance_bind]
    refine (body _ inside).mono ?_
    rintro copies last ⟨accepted, awaits⟩
    have nested : last.nesting = .script :: setting.nesting := by
      simpa [State.quiet, Setting.after, Setting.body, Setting.knowing, Setting.excluding] using
        awaits.stands.nesting
    have outer : last.scopes.outer = setting.scopes.enter.outer := by
      have scopes := congrArg Scopes.outer awaits.stands.scopes
      simpa [State.quiet, Setting.after, Setting.body, Setting.knowing, Setting.excluding] using
        scopes
    refine ⟨accepted, awaits.stands.congr rfl rfl rfl rfl rfl (Nat.add_sub_cancel ..).symm rfl ?_ ?_
      awaits.stands.checked (awaits.stands.knows.congr rfl rfl) rfl, awaits.found⟩
    · simp [State.quiet, State.leave, nested, Setting.knowing]
    · simp [State.quiet, State.leave, outer, Setting.knowing, Scopes.enter, Scopes.leave]
  simp only [block, Yields.current_bind, Yields.modify_bind]
  refine bodyRead.bind ?_
  rintro copies last ⟨accepted, awaits⟩
  rw [Yields.modify_bind]
  exact .pure ⟨⟨copies, rfl, accepted⟩, awaits⟩

/-- A block is read back from its opening brace on, whatever stands in front of that. -/
theorem yields_opened {token : Token} {statements : List Statement} {state : State}
    (each : ReadsEach names statements) (compatible : (exclusivesOf statements).Compatible)
    (admits : setting.Admits names)
    (opened : state.Stands (setting.delimit .openBrace) (bodyText statements rest)) :
    Yields (block language) state fun copy last =>
      copy.shape = (Block.mk token statements).shape ∧
        last.Stands (setting.knowing (Block.mk token statements).names) rest := by
  have bodyRead : ∀ inner : State, inner.Awaits (· = []) setting.body (bodyText statements rest) →
      Yields (language.blockBody state.current.line) inner.advance fun result last =>
        shapeStatements result = shapeStatements statements ∧
          last.Awaits (· = []) ((setting.body.after (exclusivesOf statements)
            (namesOf statements)).delimit .closeBrace) rest := by
    intro inner awaits
    refine (yields_bodyText each compatible admits (State.awaits_iff_stands.1 awaits)).mono ?_
    rintro copies last ⟨shapes, stands⟩
    exact ⟨shapes, State.awaits_iff_stands.2 stands⟩
  refine (yields_block (State.awaits_iff_stands.2 opened) bodyRead).mono ?_
  rintro _ last ⟨⟨copies, rfl, shapes⟩, awaits⟩
  refine ⟨by simp [Block.shape, shapes], ?_⟩
  rw [Block.names_mk]
  exact State.awaits_iff_stands.1 awaits

/-- Blocks are read back. -/
theorem readsBlock {token : Token} {statements : List Statement}
    (each : ReadsEach names statements) (compatible : (exclusivesOf statements).Compatible) :
    ReadsBlock names (.mk token statements) := by
  have text : (Block.mk token statements).written.toList = ['\x7b'] ++ bodyText statements [] := by
    simpa using written_block token statements []
  refine ⟨bodyText statements [], text, fun setting state rest admits stands => ?_⟩
  have whole : bodyText statements [] ++ rest = bodyText statements rest := by
    have split := written_block token statements rest
    rw [text, List.append_assoc] at split
    exact List.append_cancel_left split
  rw [whole] at stands
  exact yields_opened each compatible admits stands

/-- A block is read back behind a gap. -/
theorem ReadsBlock.faced {body : Block} (reads : ReadsBlock names body) {state : State}
    {gap : List Char} {spacing : Spacing} (admits : setting.Admits names) (gapped : Gap gap spacing)
    (faces : state.Faces setting (gap ++ (body.written.toList ++ rest))) :
    state.lookahead.kind = .openBrace ∧ Yields (block language) state.advance fun copy last =>
      copy.shape = body.shape ∧ last.Stands (setting.knowing body.names) rest := by
  obtain ⟨inner, text, read⟩ := reads
  rw [text] at faces
  have faced : state.Faces setting (gap ++ (['\x7b'] ++ (inner ++ rest))) := faces
  obtain ⟨kind, -, -, opened⟩ := faced.token gapped .openBrace
  exact ⟨kind, read admits opened⟩

/-- A block that has to follow is read where its brace is ahead. -/
theorem yields_expectBlock {state : State} {head : BlockHead} {post : Block → State → Prop}
    (ahead : state.lookahead.kind = .openBrace)
    (reads : Yields (block language) state.advance post) :
    Yields (expectBlock language head) state fun result last =>
      ∃ body, result = some body ∧ post body last := by
  simp only [expectBlock, Yields.isAhead_bind, ahead, beq_self_eq_true, if_true,
    Yields.advance_bind]
  refine reads.bind ?_
  rintro body last holds
  exact .pure ⟨body, rfl, holds⟩

/-- A block that has to follow is read back. -/
theorem ReadsBlock.expected {body : Block} (reads : ReadsBlock names body) {state : State}
    {gap : List Char} {spacing : Spacing} {head : BlockHead} (admits : setting.Admits names)
    (gapped : Gap gap spacing)
    (faces : state.Faces setting (gap ++ (body.written.toList ++ rest))) :
    Yields (expectBlock language head) state fun result last =>
      ∃ copy : Block, result = some copy ∧ copy.shape = body.shape ∧
        last.Stands (setting.knowing body.names) rest := by
  obtain ⟨ahead, read⟩ := reads.faced admits gapped faces
  exact yields_expectBlock ahead read

end Parser

end IRule
