import IRule.Proofs.Lexer.Capture
import IRule.Proofs.RoundTrip.Interpolation

/-!
# Braced words read back

What stands between braces is first taken verbatim and then read as a text of its own. A
written list is a sequence of words there, unless a colon right behind its first token makes
it a sequence of pairs.
-/

namespace IRule

/-! ## Text between braces -/

namespace Lexer

/-- Where the body of a braced word ends is decided in front of its closing brace. -/
theorem bracedBody?_append {depth length : Nat} {text : List Char}
    (found : (bracedBody? depth text).map (·.length) = some length) (rest : List Char) :
    (bracedBody? depth (text ++ rest)).map (·.length) = some length := by
  rw [bracedBody?_length] at found ⊢
  exact Text.Scan.length?_append found rest

end Lexer

namespace Parser

open Lexeme (Breaks Spells)

variable {names : Names} {setting : Setting} {state : State} {gap body rest : List Char}
  {spacing : Spacing}

/-- A text is taken verbatim up to the brace that closes it. -/
theorem yields_captureBrace (braced : isBraced body) (opening : state.current.kind = .openBrace)
    (stands : state.Stands (setting.delimit .openBrace) (body ++ '\x7d' :: rest)) :
    Yields (captureBrace language) state fun result last =>
      result = some body ∧ last.Stands setting rest ∧ last.declared = state.declared := by
  obtain ⟨passage, found, length⟩ : ∃ passage,
      Lexer.bracedBody? 0 state.lexer.before.rest = some passage ∧
        passage.length = body.length := by
    rw [← Option.map_eq_some_iff, stands.rest, ← List.singleton_append, ← List.append_assoc]
    exact Lexer.bracedBody?_append (by simpa [isBraced] using braced) rest
  cases captured : state.lexer.capture? state.current with
  | none =>
    have missing := (Lexer.capture?_eq_none_iff opening stands.stop.symm).1 captured
    simp [found] at missing
  | some taken =>
    obtain ⟨word, lexer⟩ := taken
    obtain ⟨-, -, -, capturing⟩ := Lexer.capture?_capturing captured
    have same : word.body = body := by
      rw [Lexer.capture?_body captured found, stands.rest, length, List.take_left]
    have behind : lexer.scanner.rest = rest := by
      have input := capturing.input
      rw [stands.rest, same] at input
      simpa using input.symm
    have coherent := stands.coherent.afterCapture captured
    unfold captureBrace
    simp only [Yields.get_bind, captured]
    refine ⟨_, _, rfl, congrArg some same, ⟨⟨coherent.toAhead, behind, ?_, ?_, stands.nesting,
      stands.scopes, stands.checked,
      stands.knows.congr rfl rfl, stands.clean⟩, coherent, ?_⟩, rfl⟩
    · simpa [stands.braces, Setting.delimit] using capturing.depth
    · simpa [stands.brackets, Setting.delimit] using capturing.brackets
    · exact congrArg Span.stop capturing.span

/-! ## Lists -/

/-- At the end of a snippet there are no words left. -/
theorem yields_noElements (faces : state.Faces setting []) :
    Yields language.listElements state.advance fun result last =>
      result = [] ∧ last = state.advance := by
  have ended : (state.advance.current.kind == .endOfInput) = true := by
    have here : state.advance.current.kind = .endOfInput := faces.atEnd
    simp [here]
  change Yields (language.parse .listElements) _ _
  refine .rule faces.ahead.advance ?_
  change Yields (listElements language) _ _
  simp only [listElements, Yields.current_bind, ended, if_true]
  exact .pure ⟨rfl, rfl⟩

/-- One word of a snippet, and those behind it. -/
theorem yields_element_listElements {word : Expression} {post : List Expression → State → Prop}
    (argues : Argues names word) (admits : setting.Admits names) (gapped : Gap gap spacing)
    (faces : state.Faces setting (gap ++ (word.written.toList ++ rest)))
    (stops : setting.Stops .word rest)
    (later : ∀ (copy : Expression) (next : State), copy.Copies word →
      next.Stands (setting.knowing word.names) rest →
      Yields language.listElements next.advance fun result last => post (copy :: result) last) :
    Yields language.listElements state.advance post := by
  obtain ⟨reads, begins⟩ := argues
  have more : (state.advance.current.kind == .endOfInput) = false := by
    have inner : state.advance.current.kind ∉ enders := (begins gapped faces stops.severs).1
    rw [beq_eq_false_iff_ne]
    intro ended
    simp [ended, enders] at inner
  change Yields (language.parse .listElements) _ _
  refine .rule faces.ahead.advance ?_
  change Yields (listElements language) _ _
  simp only [listElements, Yields.current_bind, more, Bool.false_eq_true, if_false]
  refine (reads admits gapped faces stops).bind ?_
  rintro _ next ⟨copy, rfl, copies, stands⟩
  simp only [Yields.advance_bind]
  exact (later copy next copies stands).bind fun result last holds => .pure holds

/-- Words are read back up to the end of a snippet. -/
theorem yields_listElements {word : Expression} {words : List Expression}
    (argues : Argues names word) (later : ArguesAll (names.plus word.names) words)
    (admits : setting.Admits names) (gapped : Gap gap spacing)
    (faces : state.Faces setting (gap ++ (word.written.toList ++
      (followed " " (writtenAll words)).toList))) :
    Yields language.listElements state.advance fun result last =>
      shapeAll result = shapeAll (word :: words) ∧
        last.Completed (setting.knowing (wordNames (word :: words))) := by
  induction words generalizing names word setting state gap spacing with
  | nil =>
    have faced : state.Faces setting (gap ++ (word.written.toList ++ [])) := by
      simpa [writtenAll] using faces
    refine yields_element_listElements argues admits gapped faced (Setting.closes_nil.stops .word)
      fun copy next copies stands => ?_
    refine (yields_noElements stands.toFaces).mono ?_
    rintro _ _ ⟨rfl, rfl⟩
    exact ⟨by simp [shapeAll, copies.shape], by simpa using stands.completed⟩
  | cons other words ih =>
    cases later with | cons arguesOther later => ?_
    have faced : state.Faces setting (gap ++ (word.written.toList ++
        (' ' :: (other.written.toList ++ (followed " " (writtenAll words)).toList)))) := by
      simpa [writtenAll] using faces
    refine yields_element_listElements argues admits gapped faced (Setting.stops_space .word)
      fun copy next copies stands => ?_
    refine (ih arguesOther later (admits.knowing _) .space stands.toFaces).mono ?_
    rintro result last ⟨shapes, completed⟩
    exact ⟨by simp_all [shapeAll, copies.shape], by simpa [Setting.knowing_knowing] using completed⟩

/-- Whether a snippet is read as pairs can be told from its text. -/
theorem State.Faces.pairAhead {text : List Char} (faces : state.Faces setting text)
    (braces : setting.braces = 0) (brackets : setting.brackets = 0) :
    (state.advance.current.kind != .endOfInput && state.advance.lookahead.kind == .colon &&
      state.advance.lookahead.spacing.isAdjacent) = startsPair text := by
  obtain ⟨first, -, -, stands⟩ := faces.next rfl rfl
  rw [braces, brackets] at first stands
  have here : state.advance.current.kind = (Lexeme.scan 0 0 (skipTrivia text)).kind := first
  have behind : state.advance.Faces _ (skipToken (skipTrivia text)) := stands.toFaces
  obtain ⟨kind, -, apart, -⟩ := behind.next rfl rfl
  rw [Bool.eq_iff_iff]
  simp only [Bool.and_eq_true, bne_iff_ne, beq_iff_eq, startsPair]
  constructor
  · rintro ⟨⟨-, colon⟩, adjacent⟩
    rw [apart] at adjacent
    rw [Lexeme.Trivia.scan_adjacent adjacent, colon] at kind
    generalize skipToken (skipTrivia text) = later at kind ⊢
    cases later with
    | nil => simp [Lexeme.scan] at kind
    | cons char later =>
      obtain rfl := Lexeme.scan_colon kind.symm
      rw [kind]
      exact congrArg _ (Lexeme.scan_of_startsToken rfl).symm
  · intro colon
    generalize written : skipToken (skipTrivia text) = later at colon kind apart
    cases later with
    | nil => simp [Lexeme.scan] at colon
    | cons char later =>
      obtain rfl := Lexeme.scan_colon colon
      rw [Lexeme.Trivia.scan_tight later rfl] at kind apart
      have alone : ∀ braces brackets : Nat, Lexeme.scan braces brackets (':' :: later) =
          Lexeme.scan 0 0 (':' :: later) := fun _ _ => Lexeme.scan_of_startsToken rfl
      refine ⟨⟨?_, ?_⟩, ?_⟩
      · rw [here, Ne, Lexeme.scan_endOfInput_iff]
        intro ended
        simp [ended, skipToken] at written
      · rw [kind]
        exact (congrArg Lexeme.kind (alone _ _)).trans colon
      · rw [apart]
        rfl

/-- The elements of a list are read back as a text of their own. -/
theorem yields_braceItems {elements : List Expression} {opening : Token}
    (argues : ArguesAll names elements) (admits : setting.Admits names)
    (single : startsPair (separated " " (writtenAll elements)).toList = false)
    (braces : setting.braces = 0) (brackets : setting.brackets = 0)
    (faces : state.Faces setting (separated " " (writtenAll elements)).toList) :
    Yields (braceItems language opening) state.advance fun result last =>
      ∃ copies, result = .list opening copies ∧ shapeAll copies = shapeAll elements ∧
        last.Completed (setting.knowing (wordNames elements)) := by
  have listed : (state.advance.current.kind != .endOfInput &&
      state.advance.lookahead.kind == .colon && state.advance.lookahead.spacing.isAdjacent) =
        false := (faces.pairAhead braces brackets).trans single
  have elementsRead : Yields language.listElements state.advance fun result last =>
      shapeAll result = shapeAll elements ∧
        last.Completed (setting.knowing (wordNames elements)) := by
    cases argues with
    | nil =>
      refine (yields_noElements (by simpa [writtenAll, separated] using faces)).mono ?_
      rintro _ _ ⟨rfl, rfl⟩
      exact ⟨rfl, by simpa using faces.completed⟩
    | @cons _ word words argues later =>
      exact yields_listElements argues later admits .none
        (by simpa [writtenAll, separated_cons] using faces)
  simp only [braceItems, Yields.get_bind, listed, Bool.false_eq_true, if_false]
  refine elementsRead.bind ?_
  rintro copies last ⟨shapes, completed⟩
  exact .pure ⟨copies, rfl, shapes, completed⟩

/-- What is made of the body of a braced word. -/
def bracedItems (opening : Token) (body : List Char) (inner : State) :
    Parse (Option Expression) := do
  let (items, snippet) ← isolated inner (braceItems language opening)
  let whole := bareWord ⟨.word, String.ofList body, opening.line, opening.span, .none⟩
    (String.ofList body)
  return some (← keepIfClean snippet items (.list opening [whole]))

/-- A braced word is read as its body is. -/
theorem yields_bracedBody {post : Option Expression → State → Prop} (braced : isBraced body)
    (gapped : Gap gap spacing)
    (faces : state.Faces setting (gap ++ ('\x7b' :: (body ++ '\x7d' :: rest))))
    (read : ∀ (start next : State) (opening : Token),
      start.Faces (setting.snippet .expression) body → next.Stands setting rest →
      Yields (bracedItems opening body start.advance) next post) :
    Yields (piece language) state.advance post := by
  have faced : state.Faces setting (gap ++ (['\x7b'] ++ (body ++ '\x7d' :: rest))) := faces
  obtain ⟨kind, -, -, opened⟩ := faced.token gapped .openBrace
  have here : state.advance.current.kind = .openBrace := kind
  simp only [piece, bracedWord, Yields.current_bind, here]
  refine (yields_captureBrace braced here opened).bind ?_
  rintro _ next ⟨rfl, stands, -⟩
  simp only [Yields.get_bind]
  obtain ⟨start, same, snippet⟩ := snippet_faces stands body state.advance.current.line .expression
  rw [same]
  exact read start next _ snippet stands

/-- A braced word whose body is read without a problem is what the body is read as. -/
theorem yields_bracedWord {accepts : Expression → Prop} {declared : List String}
    (braced : isBraced body)
    (gapped : Gap gap spacing)
    (faces : state.Faces setting (gap ++ ('\x7b' :: (body ++ '\x7d' :: rest))))
    (read : ∀ (start : State) (opening : Token),
      start.Faces (setting.snippet .expression) body →
      Yields (braceItems language opening) start.advance fun result last =>
        accepts result ∧ last.Completed (setting.knowing declared)) :
    Yields (piece language) state.advance fun result last =>
      ∃ value, result = some value ∧ accepts value ∧
        last.Stands (setting.knowing declared) rest := by
  refine yields_bracedBody braced gapped faces fun start next opening snippet stands => ?_
  have itemsRead : Yields (isolated start.advance (braceItems language opening)) next
      fun outcome last => accepts outcome.1 ∧
        outcome.2.Completed (setting.knowing declared) ∧ last = next := by
    refine .isolated ((read start opening snippet).mono ?_)
    rintro _ _ ⟨accepted, completed⟩
    exact ⟨accepted, completed, rfl⟩
  refine itemsRead.bind ?_
  rintro ⟨items, inner⟩ _ ⟨accepted, completed, rfl⟩
  refine (yields_keepIfClean completed.clean).bind ?_
  rintro _ _ ⟨rfl, rfl⟩
  exact .pure ⟨_, rfl, accepted, stands.absorb completed⟩

/-- Lists are read back. -/
theorem readsBack_list {token : Token} {elements : List Expression}
    (braced : isBraced (separated " " (writtenAll elements)).toList)
    (single : startsPair (separated " " (writtenAll elements)).toList = false)
    (argues : ArguesAll names.unchecked elements) :
    ReadsBack names (.list token elements) := by
  intro setting state gap rest spacing admits gapped faces _ _
  have faced : state.Faces setting (gap ++ ('\x7b' ::
      ((separated " " (writtenAll elements)).toList ++ '\x7d' :: rest))) := by
    simpa [Expression.written] using faces
  have names : (Expression.list token elements).names = wordNames elements := by
    simp [Expression.names, wordNames, Node.declares]
  have wordRead : Yields (piece language) state.advance fun result last =>
      ∃ value : Expression, result = some value ∧ value.Copies (.list token elements) ∧
        last.Stands (setting.knowing (wordNames elements)) rest := by
    refine yields_bracedWord braced gapped faced fun start opening snippet => ?_
    refine (yields_braceItems argues (admits.snippet (by decide)) single rfl rfl snippet).mono ?_
    rintro _ last ⟨copies, rfl, shapes, completed⟩
    exact ⟨⟨by simp [Expression.shape, shapes], rfl⟩, completed.clean,
      completed.knows.congr rfl rfl⟩
  refine wordRead.mono ?_
  rintro _ last ⟨copy, rfl, copies, stands⟩
  exact ⟨copy, rfl, copies, by rwa [names]⟩

/-! ## Keys and values -/

/-- A piece that is read back, and whose text starts one. -/
structure Fills (names : Names) (word : Expression) : Prop where
  reads : ReadsBack names word
  starts : Lexeme.Starts word.written.toList ∨ word.written.toList.head? = some '\x7b'

/-- Keys and values are read back one behind the other. -/
inductive FillsAll : Names → List (Expression × Expression) → Prop where
  | nil {names : Names} : FillsAll names []
  | cons {names : Names} {first second : Expression} {rest : List (Expression × Expression)}
      (key : Fills names first) (value : Fills (names.plus first.names) second)
      (later : FillsAll ((names.plus first.names).plus second.names) rest) :
      FillsAll names ((first, second) :: rest)

/-- Neither a separator nor the end is ahead of a piece. -/
theorem State.Faces.fills {word : Expression} (fills : Fills names word) (gapped : Gap gap spacing)
    (faces : state.Faces setting (gap ++ (word.written.toList ++ rest))) :
    state.lookahead.kind ∉ [.endOfInput, .comma] := by
  rcases fills.starts with starts | brace
  · have inner := (faces.startsPiece gapped starts).1
    simp only [Lexeme.boundaries, List.mem_cons, List.not_mem_nil, or_false, not_or] at inner ⊢
    tauto
  · obtain ⟨later, written⟩ := List.head?_eq_some_iff.1 brace
    have faced : state.Faces setting (gap ++ (['\x7b'] ++ (later ++ rest))) := by
      simpa [written] using faces
    simp [(faced.token gapped .openBrace).1]

theorem breaks_colon : Breaks (':' :: ' ' :: rest) := by
  simp [Breaks, Lexeme.isWordChar, Lexeme.isNameChar]

/-- A colon is ahead of a colon that a blank follows. -/
theorem State.Faces.colon (faces : state.Faces setting (':' :: ' ' :: rest)) :
    state.lookahead.kind = .colon ∧ state.lookahead.spacing = .none ∧
      state.advance.Stands setting (' ' :: rest) := by
  have faced : state.Faces setting ([] ++ ([':'] ++ ' ' :: rest)) := faces
  obtain ⟨kind, -, apart, stands⟩ := faced.token .none (.colon (by simp))
  exact ⟨kind, apart, stands⟩

/-- What is read behind a value. -/
def hashTail (entry : Expression × Expression) : Parse (List (Expression × Expression)) := do
  unless ← isAhead .comma do
    unless ← isAhead .endOfInput do reportAhead (.expected .hashSeparator)
    return [entry]
  advance
  if ← isAhead .endOfInput then return [entry]
  advance
  let later ← language.hashPairs
  return entry :: later

/-- One key and its value, and what is read behind them. -/
theorem yields_hashPair {first second : Expression}
    {post : List (Expression × Expression) → State → Prop} (key : Fills names first)
    (value : Fills (names.plus first.names) second) (admits : setting.Admits names)
    (gapped : Gap gap spacing)
    (faces : state.Faces setting (gap ++ (first.written.toList ++ (':' :: ' ' ::
      (second.written.toList ++ rest))))) (breaks : Breaks rest)
    (noParen : ∀ next : State, next.Faces setting rest → next.parenGlued = false)
    (later : ∀ (copy other : Expression) (next : State), copy.shape = first.shape →
      other.shape = second.shape →
      next.Stands ((setting.knowing first.names).knowing second.names) rest →
      Yields (hashTail (copy, other)) next post) :
    Yields language.hashPairs state.advance post := by
  have apart : ∀ next : State, next.Faces setting (':' :: ' ' :: (second.written.toList ++ rest)) →
      next.parenGlued = false := by
    intro next faces
    simp [State.parenGlued, faces.colon.1]
  change Yields (language.parse .hashPairs) _ _
  refine .rule faces.ahead.advance ?_
  change Yields (hashPairs language) _ _
  unfold hashPairs
  refine (key.reads admits gapped faces breaks_colon apart).bind ?_
  rintro _ next ⟨copy, rfl, copies, stands⟩
  obtain ⟨colon, -, passed⟩ := stands.toFaces.colon
  have faced : next.advance.Faces (setting.knowing first.names)
      ([' '] ++ (second.written.toList ++ rest)) := passed.toFaces
  have valued := State.Faces.fills value .space faced
  simp only [List.mem_cons, List.not_mem_nil, or_false, not_or] at valued
  simp only [Yields.isAhead_bind, colon, beq_self_eq_true, if_true, Yields.advance_bind,
    beq_eq_false_iff_ne.2 valued.1, beq_eq_false_iff_ne.2 valued.2, Bool.or_self,
    Bool.false_eq_true, if_false]
  refine (value.reads (admits.knowing _) .space faced breaks
    fun next faces => noParen next faces.forget).bind ?_
  rintro _ next ⟨other, rfl, alike, stands⟩
  exact later copy other next copies.shape alike.shape stands

/-- Keys and values are read back up to the end of a snippet. -/
theorem yields_hashPairs {first second : Expression} {pairs : List (Expression × Expression)}
    (key : Fills names first) (value : Fills (names.plus first.names) second)
    (later : FillsAll ((names.plus first.names).plus second.names) pairs)
    (admits : setting.Admits names) (gapped : Gap gap spacing)
    (faces : state.Faces setting (gap ++ (first.written.toList ++ (':' :: ' ' ::
      (second.written.toList ++ (followed ", " (writtenPairs ": " pairs)).toList))))) :
    Yields language.hashPairs state.advance fun result last =>
      shapePairs result = shapePairs ((first, second) :: pairs) ∧
        last.Completed (setting.knowing (wordNames (members ((first, second) :: pairs)))) := by
  induction pairs generalizing names first second setting state gap spacing with
  | nil =>
    have faced : state.Faces setting (gap ++ (first.written.toList ++ (':' :: ' ' ::
        (second.written.toList ++ [])))) := by
      simpa [writtenPairs] using faces
    have stops : setting.Stops .word [] := Setting.closes_nil.stops .word
    refine yields_hashPair key value admits gapped faced stops.breaks stops.noParen
      fun copy other next same alike stands => ?_
    have ended : next.lookahead.kind = .endOfInput := stands.toFaces.atEnd
    have noComma : (next.lookahead.kind == .comma) = false := by simp [ended]
    have closed : (next.lookahead.kind == .endOfInput) = true := by simp [ended]
    simp only [hashTail, Yields.isAhead_bind, noComma, closed, Bool.false_eq_true,
      if_false, if_true]
    exact .pure ⟨by simp [shapePairs, same, alike], stands.clean,
      by simpa [Setting.knowing_knowing, members] using stands.knows⟩
  | cons pair pairs ih =>
    obtain ⟨third, fourth⟩ := pair
    cases later with | cons keyLater valueLater later => ?_
    have faced : state.Faces setting (gap ++ (first.written.toList ++ (':' :: ' ' ::
        (second.written.toList ++ (',' :: ' ' :: (third.written.toList ++ (':' :: ' ' ::
          (fourth.written.toList ++ (followed ", " (writtenPairs ": " pairs)).toList)))))))) := by
      simpa [writtenPairs] using faces
    have comma : ∀ (setting : Setting) (next : State) (text : List Char),
        next.Faces setting (',' :: text) →
          next.lookahead.kind = .comma ∧ next.advance.Stands setting text := by
      intro setting next text faces
      have faced : next.Faces setting ([] ++ ([','] ++ text)) := faces
      obtain ⟨kind, -, -, stands⟩ := faced.token .none .comma
      exact ⟨kind, stands⟩
    refine yields_hashPair key value admits gapped faced
      (by simp [Breaks, Lexeme.isWordChar, Lexeme.isNameChar])
      (fun next faces => by simp [State.parenGlued, (comma _ next _ faces).1])
      fun copy other next same alike stands => ?_
    obtain ⟨kind, passed⟩ := comma _ next _ stands.toFaces
    have more := State.Faces.fills keyLater .space passed.toFaces
    simp only [List.mem_cons, List.not_mem_nil, or_false, not_or] at more
    simp only [hashTail, Yields.isAhead_bind, kind, beq_self_eq_true, if_true, Yields.advance_bind,
      beq_eq_false_iff_ne.2 more.1, Bool.false_eq_true, if_false]
    refine (ih keyLater valueLater later
      ((admits.knowing _).knowing _) .space passed.toFaces).bind ?_
    rintro result last ⟨shapes, completed⟩
    refine .pure ⟨by simp_all [shapePairs], ?_⟩
    simpa [Setting.knowing_knowing, members] using completed

/-- The text is one token in front of whatever does not continue it. -/
def IsToken (text : List Char) : Prop :=
  ∀ (braces brackets : Nat) (rest : List Char), Breaks rest →
    ∃ kind, Spells braces brackets text rest kind

/-- Keys and values are read back as a text of their own, if the first key is a single token. -/
theorem readsBack_hash {token : Token} {first second : Expression}
    {pairs : List (Expression × Expression)}
    (braced : isBraced (separated ", " (writtenPairs ": " ((first, second) :: pairs))).toList)
    (single : IsToken first.written.toList)
    (fills : FillsAll names.unchecked ((first, second) :: pairs)) :
    ReadsBack names (.hash token ((first, second) :: pairs)) := by
  intro setting state gap rest spacing admits gapped faces _ _
  have faced : state.Faces setting (gap ++ ('\x7b' ::
      ((separated ", " (writtenPairs ": " ((first, second) :: pairs))).toList ++
        '\x7d' :: rest))) := by
    simpa [Expression.written] using faces
  have names : (Expression.hash token ((first, second) :: pairs)).names =
      wordNames (members ((first, second) :: pairs)) := by
    simp [Expression.names, wordNames, Node.declares, members, pairNodes_eq]
  cases fills with | cons key value later => ?_
  have wordRead : Yields (piece language) state.advance fun result last =>
      ∃ copy : Expression, result = some copy ∧
        copy.Copies (.hash token ((first, second) :: pairs)) ∧
        last.Stands (setting.knowing (wordNames (members ((first, second) :: pairs)))) rest := by
    refine yields_bracedWord braced gapped faced fun start opening snippet => ?_
    have inner : start.Faces (setting.snippet .expression)
        ([] ++ (first.written.toList ++ (':' :: ' ' :: (second.written.toList ++
          (followed ", " (writtenPairs ": " pairs)).toList)))) := by
      simpa [writtenPairs, separated_cons, String.append_assoc] using snippet
    obtain ⟨kind, spells⟩ := single 0 0 _ breaks_colon
    obtain ⟨-, -, -, stands⟩ := inner.token .none spells
    obtain ⟨colon, apart, -⟩ := stands.toFaces.colon
    have goesOn := State.Faces.fills key .none inner
    simp only [List.mem_cons, List.not_mem_nil, or_false, not_or] at goesOn
    have more : (start.advance.current.kind != .endOfInput) = true := bne_iff_ne.2 goesOn.1
    simp only [braceItems, Yields.get_bind, more, colon, apart, Spacing.isAdjacent]
    refine (yields_hashPairs key value later (admits.snippet (by decide)) .none inner).bind ?_
    rintro copies last ⟨shapes, completed⟩
    exact .pure ⟨⟨by simp [Expression.shape, shapes], rfl⟩, completed.clean,
      completed.knows.congr rfl rfl⟩
  refine wordRead.mono ?_
  rintro _ last ⟨copy, rfl, copies, stands⟩
  exact ⟨copy, rfl, copies, by rwa [names]⟩

end Parser

end IRule
