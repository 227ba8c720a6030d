import IRule.Proofs.RoundTrip.Complaint

/-!
# Strings read back

The body of a written string falls into the segments its parts were written
from, and the commands embedded in it are read back by a parser of their own.
-/

namespace IRule

open Lexeme (isPlainText)

namespace Parser

/-! ## Segments -/

namespace Segment

variable {before run rest : List Char}

/-- Plain text embeds nothing. -/
theorem split_plain {text : List Char} (plain : isPlainText text) :
    split before run 0 (text ++ rest) =
      split (text.reverse ++ before) (text.reverse ++ run) 0 rest := by
  fun_induction isPlainText text generalizing before run with
  | case1 => rfl
  | case2 char later ih => simp [split, ih plain]
  | case3 char later _ ih =>
    simp only [Bool.and_eq_true, bne_iff_ne] at plain
    obtain ⟨⟨⟨⟨notHiding, -⟩, notOpening⟩, notDollar⟩, later⟩ := plain
    conv_lhs => unfold split
    simp [notHiding, embedding?, notOpening, notDollar, ih later]

end Segment

/-! ## Embedded commands -/

variable {names : Names}

section Substitution

variable {setting : Setting}

/-- A command ends in front of another one and at the end of a snippet. -/
theorem closes_snippet (commands : List Expression) :
    setting.Closes (followed "; " (writtenAll commands)).toList := by
  cases commands with
  | nil => simpa [writtenAll] using Setting.closes_nil
  | cons command commands => simpa [writtenAll] using Setting.closes_semicolon

/-- One command of a snippet, and those behind it. -/
theorem yields_substitutionCommands_cons {behind : Setting} {command : Expression}
    {commands : List Expression} {state : State} {gap : List Char} {spacing : Spacing}
    (embeds : Embeds names command) (admits : setting.Admits names)
    (placed : setting.nesting.head? ≠ some .index) (gapped : Gap gap spacing)
    (faces : state.Faces setting (gap ++ (command.written.toList ++
      (followed "; " (writtenAll commands)).toList)))
    (later : ∀ next : State,
      next.Stands (setting.knowing command.names) (followed "; " (writtenAll commands)).toList →
      Yields language.substitutionCommands next.advance fun result last =>
        shapeAll result = shapeAll commands ∧ last.Completed behind) :
    Yields language.substitutionCommands state.advance fun result last =>
      shapeAll result = shapeAll (command :: commands) ∧ last.Completed behind := by
  have inner : state.advance.current.kind ∉ Lexeme.closers :=
    (faces.startsOperand gapped embeds.starts).1
  have closes : setting.Closes (followed "; " (writtenAll commands)).toList :=
    closes_snippet commands
  change Yields (language.parse .substitutionCommands) _ _
  refine .rule faces.ahead.advance ?_
  change Yields (substitutionCommands language) _ _
  simp only [substitutionCommands, Yields.current_bind]
  split
  · simp_all [Lexeme.closers]
  · simp_all [Lexeme.closers]
  · refine (embeds.yields admits gapped faces closes placed).bind ?_
    rintro _ next ⟨copy, rfl, same, stands⟩
    refine (yields_finishCommand ((closes.knowing _).ends next stands.toFaces)).bind ?_
    rintro _ next rfl
    simp only [Yields.advance_bind]
    refine (later next stands).bind ?_
    rintro copies last ⟨shapes, completed⟩
    exact .pure ⟨by simp [shapeAll, same, shapes], completed⟩

/-- Commands of a snippet, from the first one on. -/
theorem yields_substitutionCommands {command : Expression} {commands : List Expression}
    {state : State} {gap : List Char} {spacing : Spacing} (embeds : Embeds names command)
    (later : EmbedsAll (names.plus command.names) commands) (admits : setting.Admits names)
    (placed : setting.nesting.head? ≠ some .index) (gapped : Gap gap spacing)
    (faces : state.Faces setting (gap ++ (command.written.toList ++
      (followed "; " (writtenAll commands)).toList))) :
    Yields language.substitutionCommands state.advance fun result last =>
      shapeAll result = shapeAll (command :: commands) ∧
        last.Completed (setting.knowing (wordNames (command :: commands))) := by
  induction commands generalizing names command setting state gap spacing with
  | nil =>
    refine yields_substitutionCommands_cons embeds admits placed gapped faces fun next stands => ?_
    have ended : next.Stands (setting.knowing command.names) [] := by
      simpa [writtenAll] using stands
    have here : next.advance.current.kind = .endOfInput := ended.toFaces.atEnd
    change Yields (language.parse .substitutionCommands) _ _
    refine .rule stands.ahead.advance ?_
    change Yields (substitutionCommands language) _ _
    simp only [substitutionCommands, Yields.current_bind, here]
    exact .pure ⟨rfl, by simpa using stands.completed⟩
  | cons other commands ih =>
    cases later with | cons embedsOther later => ?_
    refine yields_substitutionCommands_cons embeds admits placed gapped faces fun next stands => ?_
    have faced : next.Faces (setting.knowing command.names) ([] ++ ([';'] ++ ([' '] ++
        (other.written.toList ++ (followed "; " (writtenAll commands)).toList)))) := by
      simpa [writtenAll] using stands.toFaces
    obtain ⟨kind, -, -, separated⟩ := faced.token .none .semicolon
    have here : next.advance.current.kind = .semicolon := kind
    change Yields (language.parse .substitutionCommands) _ _
    refine .rule stands.ahead.advance ?_
    change Yields (substitutionCommands language) _ _
    simp only [substitutionCommands, Yields.current_bind, here, Yields.advance_bind]
    simpa [Setting.knowing, Setting.delimit] using
      ih embedsOther later (admits.knowing _) placed .space separated.toFaces

end Substitution

/-- What a snippet is started with. -/
theorem snippet_faces {state : State} {setting : Setting} {rest : List Char}
    (stands : state.Stands setting rest) (text : List Char) (line : Nat) (nesting : Nesting) :
    ∃ start : State, State.snippet text line nesting state.declared = start.advance ∧
      start.Faces (setting.snippet nesting) text := by
  refine ⟨{ (State.blank text line).advance with
    nesting := [nesting], checkVariables := false, declared := state.declared }, rfl, ?_⟩
  have ahead := blank_advance_ahead text line
  exact ⟨⟨ahead.read, ahead.stands, ahead.braces⟩, rfl, rfl, rfl, rfl, rfl, rfl,
    stands.knows.congr rfl rfl, rfl⟩

/-- A clean snippet is kept. -/
theorem yields_keepIfClean {α : Type} {state snippet : State} {kept dropped : α}
    (clean : snippet.diagnostics = []) :
    Yields (keepIfClean snippet kept dropped) state fun result last =>
      result = kept ∧ last = state.absorb snippet := by
  unfold keepIfClean
  rw [clean]
  exact ⟨kept, state.absorb snippet, rfl, rfl, rfl⟩

/-- A snippet with a problem is dropped. -/
theorem keepIfClean_dropped {α : Type} {state snippet : State} {kept dropped : α}
    (reported : snippet.diagnostics ≠ []) :
    keepIfClean snippet kept dropped state = some (dropped, state) := by
  unfold keepIfClean
  rw [List.isEmpty_eq_false_iff.2 reported]
  rfl

/-- Commands embedded in a string are read back. -/
theorem yields_substitution {state : State} {setting : Setting} {rest : List Char} {token : Token}
    {commands : List Expression} {line : Nat}
    (embeds : EmbedsAll names commands) (admits : (setting.snippet .bracket).Admits names)
    (nonempty : commands ≠ []) (stands : state.Stands setting rest) :
    Yields (substitution language token (separated "; " (writtenAll commands)).toList line) state
      fun result last => ∃ copies,
        result = some (.substitution { token with line := line } copies) ∧
        shapeAll copies = shapeAll commands ∧
        last.Stands (setting.knowing (wordNames commands)) rest := by
  cases embeds with
  | nil => exact absurd rfl nonempty
  | @cons _ command commands embeds later => ?_
  obtain ⟨start, same, faces⟩ := snippet_faces stands
    (separated "; " (writtenAll (command :: commands))).toList line .bracket
  have faced : start.Faces (setting.snippet .bracket)
      ([] ++ (command.written.toList ++ (followed "; " (writtenAll commands)).toList)) := by
    simpa [writtenAll, separated_cons] using faces
  have snippetRead : Yields (isolated start.advance language.substitutionCommands) state
      fun outcome last => shapeAll outcome.1 = shapeAll (command :: commands) ∧
        outcome.2.Completed ((setting.snippet .bracket).knowing (wordNames (command :: commands))) ∧
          last = state :=
    .isolated ((yields_substitutionCommands embeds later admits (by simp [Setting.snippet])
      .none faced).mono
      fun _ _ ⟨shapes, completed⟩ => ⟨shapes, completed, rfl⟩)
  unfold substitution
  simp only [Yields.get_bind, same]
  refine snippetRead.bind ?_
  rintro ⟨copies, snippet⟩ _ ⟨shapes, completed, rfl⟩
  have someCopies : copies.isEmpty = false := by
    cases copies <;> simp_all [shapeAll]
  simp only [someCopies, Bool.false_eq_true, if_false]
  refine (yields_keepIfClean completed.clean).mono ?_
  rintro _ _ ⟨rfl, rfl⟩
  exact ⟨copies, rfl, shapes, stands.absorb ⟨completed.clean, completed.knows.congr rfl rfl⟩⟩

/-- What is idle is not read as commands, and the attempt leaves nothing behind. -/
theorem substitution_idle {state : State} {setting : Setting} {rest script : List Char}
    {token : Token} {line : Nat} (idle : isIdle setting.barred script)
    (stands : state.Stands setting rest) :
    substitution language token script line state = some (none, state) := by
  obtain ⟨start, same, faces⟩ := snippet_faces stands script line .bracket
  have faced : start.Faces (setting.snippet .bracket) ([] ++ script) := faces
  have bare : isIdle (setting.snippet .bracket).barred script := idle
  have complains : Complains language.substitutionCommands start.advance :=
    .substitutionCommands faces.ahead.advance (faced.goesOn_of_idle bare .none)
      (complains_idle bare .none faced)
  obtain ⟨commands, snippet, runs⟩ := exists_parse .substitutionCommands faces.ahead.advance
  have reported : snippet.diagnostics ≠ [] := complains commands snippet runs
  have isolation : isolated start.advance language.substitutionCommands state =
      some ((commands, snippet), state) := by
    simp only [isolated]
    exact congrArg (Option.map _) runs
  unfold substitution
  rw [get_bind_apply, same, bind_apply isolation]
  dsimp only
  split
  · rfl
  · exact keepIfClean_dropped reported

/-! ## Strings -/

/-- Text behind text is one text. -/
theorem appendText_appendText (token : Token) (parts : List Expression) (first second : String) :
    appendText token (appendText token parts first) second =
      appendText token parts (first ++ second) := by
  cases ends : parts.getLast? with
  | none => simp [appendText, ends]
  | some last => cases last <;> simp [appendText, ends, String.append_assoc]

/-- In the given state, the segments are read as a text, and as others behind it. -/
def JoinsText (token : Token) (state : State) (segments : List Segment) (text : List Char)
    (behind : List Segment) : Prop :=
  ∀ known, interpolatedParts language token known segments state =
    interpolatedParts language token (appendText token known (String.ofList text)) behind state

theorem JoinsText.trans {token : Token} {state : State} {segments middle behind : List Segment}
    {text more : List Char} (first : JoinsText token state segments text middle)
    (second : JoinsText token state middle more behind) :
    JoinsText token state segments (text ++ more) behind := by
  intro known
  rw [first, second, appendText_appendText, String.ofList_append]

/-- A text that is put in front is the first one, or stands in front of it. -/
theorem joinText_eq_cons {text piece : List Char} {segments later : List Segment}
    (joined : joinText piece segments = .text text :: later) :
    (∃ more, segments = .text more :: later ∧ text = piece ++ more) ∨
      text = piece ∧ segments = later := by
  unfold joinText at joined
  split at joined
  · obtain ⟨⟨rfl⟩, rfl⟩ := List.cons.inj joined
    exact .inl ⟨_, rfl, rfl⟩
  · obtain ⟨⟨rfl⟩, rfl⟩ := List.cons.inj joined
    exact .inr ⟨rfl, rfl⟩

/-- What stands in front of the first embedding is read as one text, whatever of it is in
brackets. -/
theorem joinsText_of_settled {state : State} {setting : Setting} {rest text : List Char}
    {segments later : List Segment} (token : Token) (stands : state.Stands setting rest)
    (settles : settled setting.barred segments = .text text :: later) :
    ∃ behind, settled setting.barred behind = later ∧
      JoinsText token state segments text behind := by
  induction segments generalizing text later with
  | nil => simp [settled] at settles
  | cons first behind ih =>
    obtain ⟨piece, reads, joined⟩ : ∃ piece, JoinsText token state (first :: behind) piece behind ∧
        joinText piece (settled setting.barred behind) = .text text :: later := by
      cases first with
      | text piece => exact ⟨piece, fun _ => rfl, settles⟩
      | reference name => simp [settled] at settles
      | command script before =>
        simp only [settled] at settles
        split at settles
        · rename_i idle
          refine ⟨_, fun known => ?_, settles⟩
          simp only [interpolatedParts]
          rw [bind_apply (substitution_idle idle stands)]
          simp [String.ofList_append, String.append_assoc]
        · simp at settles
    rcases joinText_eq_cons joined with ⟨more, inner, rfl⟩ | ⟨rfl, same⟩
    · obtain ⟨last, same, goesOn⟩ := ih inner
      exact ⟨last, same, reads.trans goesOn⟩
    · exact ⟨behind, same, reads⟩

/-- Where nothing is read nothing stands. -/
theorem settled_eq_nil_iff {barred : List String} {segments : List Segment} :
    settled barred segments = [] ↔ segments = [] := by
  have some {piece : List Char} {segments : List Segment} : joinText piece segments ≠ [] := by
    unfold joinText
    split <;> simp
  cases segments with
  | nil => simp [settled]
  | cons segment behind =>
    cases segment with
    | text piece => simp [settled, some]
    | reference name => simp [settled]
    | command script before =>
      simp only [settled]
      split <;> simp [some]

/-- An embedding is one before and after. -/
theorem settled_eq_cons {barred : List String} {segments later : List Segment} {first : Segment}
    (notText : ∀ text, first ≠ .text text) (settles : settled barred segments = first :: later) :
    ∃ behind, segments = first :: behind ∧ settled barred behind = later := by
  have apart {piece : List Char} {segments : List Segment} : joinText piece segments ≠
      first :: later := by
    intro joined
    unfold joinText at joined
    split at joined
    all_goals exact notText _ (List.cons.inj joined).1.symm
  cases segments with
  | nil => simp [settled] at settles
  | cons segment behind =>
    cases segment with
    | text piece => exact absurd settles apart
    | reference name =>
      obtain ⟨rfl, same⟩ := List.cons.inj settles
      exact ⟨behind, rfl, same⟩
    | command script before =>
      simp only [settled] at settles
      split at settles
      · exact absurd settles apart
      · obtain ⟨rfl, same⟩ := List.cons.inj settles
        exact ⟨behind, rfl, same⟩

/-- The commands embedded in the parts of a string are read back. -/
inductive EmbedsParts : Names → List Expression → Prop where
  | nil {names : Names} : EmbedsParts names []
  | string {names : Names} {token : Token} {text : String} {rest : List Expression}
      (apart : startsWithText rest = false) (later : EmbedsParts names rest) :
      EmbedsParts names (.string token text :: rest)
  | reference {names : Names} {token : Token} {name : String} {isReserved : Bool}
      {rest : List Expression} (later : EmbedsParts names rest) :
      EmbedsParts names (.identifier token name true isReserved :: rest)
  | substitution {names : Names} {token : Token} {commands rest : List Expression}
      (nonempty : commands ≠ []) (embeds : EmbedsAll names commands)
      (later : EmbedsParts (names.plus (wordNames commands)) rest) :
      EmbedsParts names (.substitution token commands :: rest)

/-- The last of the parts is not text. -/
def EndsApart (parts : List Expression) : Prop :=
  ∀ token text, parts.getLast? ≠ some (.string token text)

theorem appendText_of_endsApart {token : Token} {parts : List Expression} {text : String}
    (apart : EndsApart parts) : appendText token parts text = parts ++ [.string token text] := by
  unfold appendText
  split
  · exact absurd ‹_› (apart _ _)
  · rfl

theorem shapeAll_append (first second : List Expression) :
    shapeAll (first ++ second) = shapeAll first ++ shapeAll second := by
  induction first with
  | nil => rfl
  | cons expression rest ih => simp [shapeAll, ih]

/-- The segments of the parts of a string are read back as these parts. -/
theorem yields_interpolatedParts {state : State} {setting : Setting} {rest before : List Char}
    {token : Token} {parts known : List Expression} {segments : List Segment}
    (embeds : EmbedsParts names parts)
    (settles : settled names.barred segments = partSegments before parts)
    (admits : (setting.snippet .bracket).Admits names)
    (apart : startsWithText parts → EndsApart known) (stands : state.Stands setting rest) :
    Yields (interpolatedParts language token known segments) state
      fun result last => shapeAll result = shapeAll known ++ shapeAll parts ∧
        last.Stands (setting.knowing (wordNames parts)) rest := by
  have barred : setting.barred = names.barred := admits.barred
  induction embeds generalizing setting state before known segments with
  | nil =>
    rw [partSegments, settled_eq_nil_iff] at settles
    subst settles
    exact .pure ⟨by simp [shapeAll], by simpa using stands⟩
  | @string names first text parts separate _ ih =>
    rw [partSegments, ← barred] at settles
    obtain ⟨behind, inner, reads⟩ := joinsText_of_settled token stands settles
    rw [barred] at inner
    unfold Yields
    rw [reads, String.ofList_toList, appendText_of_endsApart (apart rfl)]
    refine (ih inner admits (by simp [separate]) stands barred).mono ?_
    rintro result last ⟨shapes, stands⟩
    exact ⟨by simp [shapes, shapeAll_append, shapeAll, Expression.shape],
      by simpa [Expression.names, Node.declares] using stands⟩
  | @reference names first name isReserved parts _ ih =>
    obtain ⟨behind, rfl, inner⟩ := settled_eq_cons (by simp) settles
    simp only [interpolatedParts]
    refine (ih inner admits (fun _ => by simp [EndsApart]) stands barred).mono ?_
    rintro result last ⟨shapes, stands⟩
    exact ⟨by simp [shapes, shapeAll_append, shapeAll, Expression.shape],
      by simpa [Expression.names, Node.declares] using stands⟩
  | @substitution names first commands parts nonempty embeds _ ih =>
    obtain ⟨behind, rfl, inner⟩ := settled_eq_cons (by simp) settles
    simp only [interpolatedParts]
    refine (yields_substitution embeds admits nonempty stands).bind ?_
    rintro _ next ⟨copies, rfl, same, stands⟩
    have later : ((setting.knowing (wordNames commands)).snippet .bracket).Admits
        (names.plus (wordNames commands)) := admits.knowing _
    refine (ih inner later (fun _ => by simp [EndsApart]) stands barred).mono ?_
    rintro result last ⟨shapes, stands⟩
    rw [Setting.knowing_knowing] at stands
    exact ⟨by simp [shapes, shapeAll_append, shapeAll, Expression.shape, same],
      by simpa [Expression.names, Node.declares, wordNames] using stands⟩

/-- Whether parts are text is a matter of their shape. -/
theorem all_isString_shapeAll (parts : List Expression) :
    (shapeAll parts).all Expression.isString = parts.all Expression.isString := by
  induction parts with
  | nil => rfl
  | cons part rest ih =>
    have here : part.shape.isString = part.isString := by cases part <;> rfl
    simp [shapeAll, ih, here]

/-- A string written from its parts is read back part by part. -/
theorem yields_string {state : State} {setting : Setting} {gap rest : List Char}
    {spacing : Spacing} {parts : List Expression} (embeds : EmbedsParts names parts)
    (cut : isCutInto names.barred (writtenParts parts).toList (partSegments [] parts))
    (admits : (setting.snippet .bracket).Admits names) (gapped : Gap gap spacing)
    (faces : state.Faces setting (gap ++ ('"' :: (writtenParts parts).toList ++ ['"'] ++ rest))) :
    Yields (piece language) state.advance fun result last =>
      last.Stands (setting.knowing (wordNames parts)) rest ∧
        ∃ copies, shapeAll copies = shapeAll parts ∧
          result = some (if parts.all Expression.isString
            then .string state.advance.current (writtenParts parts)
            else .interpolated state.advance.current (writtenParts parts) copies) := by
  simp only [isCutInto, Bool.and_eq_true, beq_iff_eq] at cut
  obtain ⟨enclosed, body⟩ := cut
  obtain ⟨kind, literal, -, stands⟩ :=
    faces.token gapped (.string (Lexeme.Enclosed.of_isEnclosed enclosed).2)
  have here : state.advance.current.kind = .string := kind
  have text : state.advance.current.literal = writtenParts parts := by
    have literal : state.advance.current.literal = _ := literal
    simpa [Lexeme.literalOf, unquote] using literal
  have stringRead : Yields (quotedString language state.advance.current) state.advance
      fun result last => last.Stands (setting.knowing (wordNames parts)) rest ∧
        ∃ copies, shapeAll copies = shapeAll parts ∧
          result = if parts.all Expression.isString
            then .string state.advance.current (writtenParts parts)
            else .interpolated state.advance.current (writtenParts parts) copies := by
    unfold quotedString
    rw [text]
    refine (yields_interpolatedParts embeds body admits
      (fun _ => by simp [EndsApart]) stands).bind ?_
    rintro copies last ⟨shapes, stands⟩
    have texts : copies.all Expression.isString = parts.all Expression.isString := by
      rw [← all_isString_shapeAll copies, shapes]
      simpa [shapeAll] using all_isString_shapeAll parts
    rw [← texts]
    split
    · exact .pure ⟨stands, copies, by simpa [shapeAll] using shapes, rfl⟩
    · exact .pure ⟨stands, copies, by simpa [shapeAll] using shapes, rfl⟩
  simp only [piece, Yields.current_bind, here]
  refine stringRead.bind ?_
  rintro result last ⟨stands, copies, shapes, rfl⟩
  exact .pure ⟨stands, copies, shapes, rfl⟩

/-- Strings without embeddings are read back. -/
theorem readsBack_string {token : Token} {text : String}
    (cut : isCutInto names.barred text.toList (Segment.ofText text.toList)) :
    ReadsBack names (.string token text) := by
  intro setting state gap rest spacing admits gapped faces _ _
  -- The only part of a string without embeddings is its text, unless it is empty.
  obtain ⟨parts, embeds, written, segments, texts⟩ : ∃ parts,
      EmbedsParts names.unchecked parts ∧ writtenParts parts = text ∧
      partSegments [] parts = Segment.ofText text.toList ∧ parts.all Expression.isString := by
    by_cases empty : text = ""
    · exact ⟨[], .nil, empty.symm, by simp [empty, partSegments, Segment.ofText], rfl⟩
    · exact ⟨[.string token text], .string rfl .nil, by simp [writtenParts],
        by simp [partSegments, Segment.ofText, empty], rfl⟩
  have faced : state.Faces setting
      (gap ++ ('"' :: (writtenParts parts).toList ++ ['"'] ++ rest)) := by
    simpa [Expression.written, written] using faces
  refine (yields_string embeds (by rwa [written, segments]) (admits.snippet (by decide))
    gapped faced).mono ?_
  rintro _ last ⟨stands, copies, -, rfl⟩
  rw [if_pos texts, written]
  exact copied_of_names rfl ⟨rfl, rfl⟩ stands.forget

/-- Strings with embeddings are read back. -/
theorem readsBack_interpolated {token : Token} {raw : String} {parts : List Expression}
    (embeds : EmbedsParts names.unchecked parts)
    (embedding : parts.all Expression.isString = false)
    (cut : isCutInto names.barred (writtenParts parts).toList (partSegments [] parts)) :
    ReadsBack names (.interpolated token raw parts) := by
  intro setting state gap rest spacing admits gapped faces _ _
  have faced : state.Faces setting
      (gap ++ ('"' :: (writtenParts parts).toList ++ ['"'] ++ rest)) := by
    simpa [Expression.written] using faces
  refine (yields_string embeds cut (admits.snippet (by decide)) gapped faced).mono ?_
  rintro _ last ⟨stands, copies, shapes, rfl⟩
  rw [embedding]
  exact ⟨_, rfl, ⟨by simp [Expression.shape, shapes], rfl⟩,
    by simpa [Expression.names, Node.declares, wordNames] using stands⟩

end Parser

end IRule
