import IRule.Proofs.RoundTrip.Braced
import IRule.Proofs.RoundTrip.Literal

/-!
# Braced text that is kept

A braced word whose text cannot be read as words is kept as it is. Up to the place where the text
breaks its tokens make up words, so the reader is always in front of less of a broken text, or has
found a problem. At the end of the text it must have found one.
-/

namespace IRule

namespace Parser

variable {names : Names} {setting : Setting} {state : State} {gap text body rest : List Char}
  {spacing : Spacing}

/-! ## What is left of a text -/

theorem remnant_drop (skip : Nat) (text : List Char) :
    remnant skip text = remnant 0 (text.drop skip) := by
  induction text generalizing skip with
  | nil => simp [remnant]
  | cons char rest ih =>
    cases skip with
    | zero => rfl
    | succ more => simpa [remnant] using ih more

/-- What is left of a text is left behind each token that stands in a word. -/
theorem remnant_eq (text : List Char) :
    remnant 0 text = if Lexeme.startsToken (skipTrivia text) &&
        (Lexeme.scan 0 0 (skipTrivia text)).kind != .illegal
      then remnant 0 (skipToken (skipTrivia text)) else skipTrivia text := by
  cases text with
  | nil => rfl
  | cons char text =>
    simp only [remnant]
    split
    · rename_i plain
      have positive : 0 < (Lexeme.scan 0 0 (skipTrivia (char :: text))).length := by
        cases ahead : skipTrivia (char :: text) with
        | nil => simp [ahead, Lexeme.startsToken] at plain
        | cons first behind => exact (Lexeme.scan_fits 0 0 first behind).length_pos
      obtain ⟨more, length⟩ := Nat.exists_eq_add_of_lt positive
      rw [remnant_drop, skipToken, length, skipTrivia, List.drop_drop]
      simp [← Nat.add_assoc]
    · rfl

/-- A token of a word is the same in every setting. -/
theorem State.Faces.kind_of_startsToken (faces : state.Faces setting text)
    (starts : Lexeme.startsToken (skipTrivia text)) :
    state.lookahead.kind = (Lexeme.scan 0 0 (skipTrivia text)).kind := by
  obtain ⟨kind, -, -, -⟩ := faces.next rfl rfl
  rwa [← skipTrivia, Lexeme.scan_of_startsToken starts] at kind

/-- A token of a word stands in front of less of the text. -/
structure State.Passes (state : State) (setting : Setting) (text : List Char) : Prop where
  literal : state.lookahead.literal =
    String.ofList ((skipTrivia text).take (Lexeme.scan 0 0 (skipTrivia text)).length)
  alone : state.lookahead.kind ∉ Lexeme.delimiters
  legal : state.lookahead.kind ≠ .illegal
  shorter : (skipToken (skipTrivia text)).length < text.length
  stands : state.advance.Stands setting (skipToken (skipTrivia text))

/-- A token of a word that is not illegal is passed by. -/
theorem State.Faces.passes (faces : state.Faces setting text)
    (starts : Lexeme.startsToken (skipTrivia text))
    (legal : (Lexeme.scan 0 0 (skipTrivia text)).kind ≠ .illegal) :
    state.Passes setting text := by
  obtain ⟨kind, literal, -, stands⟩ := faces.next rfl rfl
  have shorter : (skipTrivia text).length ≤ text.length := by simp [skipTrivia]
  rw [← skipTrivia] at kind literal stands
  generalize ahead : skipTrivia text = tokens at *
  rw [Lexeme.scan_of_startsToken starts] at kind literal stands
  cases tokens with
  | nil => simp [Lexeme.startsToken] at starts
  | cons first behind =>
    have alone : (Lexeme.scan 0 0 (first :: behind)).kind ∉ Lexeme.delimiters :=
      Lexeme.scan_kind_of_startsToken starts
    have fits := Lexeme.scan_fits 0 0 first behind
    have positive := fits.length_pos
    have notString : (Lexeme.scan 0 0 (first :: behind)).kind ≠ .string := by
      simp_all [Lexeme.delimiters]
    refine ⟨?_, by rwa [kind], by rwa [kind], ?_, ?_⟩
    · rw [literal, ahead, Lexeme.literal, fits.faultless legal]
      simp [notString]
    · rw [ahead, skipToken, List.length_drop]
      simp only [List.length_cons] at shorter ⊢
      omega
    · rw [ahead]
      rwa [Setting.delimit_of_plain] at stands
      simp_all [Lexeme.delimiters]

/-- A text breaks behind a token of a word, or at the token that is ahead. -/
theorem State.Faces.broken (faces : state.Faces setting text)
    (broken : isBroken setting.barred text) :
    (state.Passes setting text ∧ isBroken setting.barred (skipToken (skipTrivia text))) ∨
    state.lookahead.kind = .illegal ∨
    (state.lookahead.kind = .openBracket ∧ ∃ script, isIdle setting.barred script ∧
      state.advance.Stands (setting.delimit .openBracket) script) := by
  rw [isBroken, remnant_eq] at broken
  by_cases plain : (Lexeme.startsToken (skipTrivia text) &&
      (Lexeme.scan 0 0 (skipTrivia text)).kind != .illegal) = true
  · rw [if_pos plain] at broken
    simp only [Bool.and_eq_true, bne_iff_ne] at plain
    exact .inl ⟨faces.passes plain.1 plain.2, broken⟩
  · rw [if_neg plain] at broken
    refine .inr ?_
    split at broken
    · rename_i script ahead
      obtain ⟨kind, -, -, stands⟩ := faces.next rfl rfl
      rw [← skipTrivia, ahead] at kind stands
      exact .inr ⟨kind, _, broken, stands⟩
    · rw [faces.kind_of_startsToken broken]
      exact .inl (by simpa [broken] using plain)

/-! ## Words of a broken text -/

/-- A problem is on record, or there is a broken text to read, shorter than is said. -/
def Doomed (setting : Setting) (size : Nat) (state : State) : Prop :=
  state.diagnostics ≠ [] ∨
    ∃ text, isBroken setting.barred text ∧ text.length < size ∧ state.Stands setting text

theorem Doomed.mono {size more : Nat} (doomed : Doomed setting size state) (le : size ≤ more) :
    Doomed setting more state :=
  doomed.imp_right fun ⟨text, broken, short, stands⟩ => ⟨text, broken, short.trans_le le, stands⟩

/-- One token of a broken text is read, or a problem is found. -/
theorem leaves_brokenPiece (faces : state.Faces setting text)
    (broken : isBroken setting.barred text) :
    Leaves (piece language) state.advance (Doomed setting text.length) := by
  rcases faces.broken broken with ⟨passes, broken⟩ | illegal | ⟨opening, script, idle, stands⟩
  · by_cases number : state.lookahead.kind = .number
    · refine (yields_numberPiece number passes.stands.awaits).leaves ?_
      rintro _ last ⟨value, -, -, -, awaits⟩
      split at awaits
      · exact .inr ⟨_, broken, passes.shorter, awaits.unreported⟩
      · refine .inl fun clean => ?_
        have found := awaits.found
        rw [clean] at found
        cases found
    · refine (yields_simplePiece passes.legal number passes.alone).leaves ?_
      rintro _ _ ⟨-, rfl⟩
      exact .inr ⟨_, broken, passes.shorter, passes.stands⟩
  · exact (complains_illegal illegal).mono fun _ => .inl
  · have within : isIdle ((setting.delimit .openBracket).inside .bracket).barred script := idle
    exact (Complains.openBracket opening stands idle fun inner opened =>
      complains_idle within .none opened).mono fun _ => .inl

/-- Pieces glued together leave the problem ahead, or find it. -/
theorem leaves_brokenPieces {size : Nat} (doomed : Doomed setting size state) :
    Leaves (language.pieces .word) state (Doomed setting size) := by
  induction size using Nat.strong_induction_on generalizing state with
  | _ size ih =>
  obtain reported | ⟨text, broken, short, stands⟩ := doomed
  · exact (Complains.of_reported (language_declares (.pieces .word) state) reported).mono
      fun _ => .inl
  · change Leaves (language.parse (.pieces .word)) _ _
    refine .rule stands.coherent ?_
    change Leaves (pieces language .word) _ _
    simp only [pieces, Leaves.get_bind]
    split
    · simp only [Leaves.advance_bind, Leaves.current_bind]
      refine (leaves_brokenPiece stands.toFaces broken).bind fun value middle doomed => ?_
      simp only [Leaves.current_bind]
      refine (ih text.length short doomed).bind fun later last doomed => ?_
      exact .pure (doomed.mono short.le)
    · exact .pure (.inr ⟨text, broken, short, stands⟩)

/-- A word of a broken text leaves the problem ahead, or finds it. -/
theorem leaves_brokenWord (faces : state.Faces setting text)
    (broken : isBroken setting.barred text) :
    Leaves (language.word .word) state.advance (Doomed setting text.length) := by
  change Leaves (language.parse (.word .word)) _ _
  refine .rule faces.ahead.advance ?_
  change Leaves (word language .word) _ _
  unfold word
  simp only [Leaves.current_bind]
  refine (leaves_brokenPiece faces broken).bind fun first middle doomed => ?_
  cases first with
  | none => exact .pure doomed
  | some first =>
    simp only [Leaves.get_bind]
    split
    · refine (leaves_brokenPieces doomed).bind fun later last doomed => ?_
      simp only [Leaves.get_bind]
      split <;> exact .pure doomed
    · exact .pure doomed

/-- Words of a broken text are not read without a problem. -/
theorem complains_listElements (faces : state.Faces setting text)
    (broken : isBroken setting.barred text) : Complains language.listElements state.advance := by
  induction size : text.length using Nat.strong_induction_on generalizing text state with
  | _ length ih =>
  have more : (state.advance.current.kind == .endOfInput) = false := by
    have here : state.advance.current.kind = state.lookahead.kind := rfl
    rw [here, beq_eq_false_iff_ne]
    rcases faces.broken broken with ⟨passes, -⟩ | illegal | ⟨opening, -⟩
    · intro ended
      exact passes.alone (by simp [ended, Lexeme.delimiters])
    · simp [illegal]
    · simp [opening]
  change Complains (language.parse .listElements) _
  refine .rule faces.ahead.advance ?_
  change Complains (listElements language) _
  simp only [listElements, Complains.current_bind, more, Bool.false_eq_true, if_false]
  refine Leaves.bind (leaves_brokenWord faces broken) fun element middle doomed => ?_
  refine Leaves.advance_bind.2 ?_
  have elements : Complains language.listElements middle.advance := by
    obtain reported | ⟨later, broken, shorter, stands⟩ := doomed
    · exact .of_reported (language_declares .listElements middle.advance) reported
    · exact ih later.length (size ▸ shorter) stands.toFaces broken rfl
  exact elements.bind fun _ _ => .pure trivial

/-! ## Pairs of a broken text -/

/-- A token that is a word of its own is read as one. -/
theorem yields_loneWord (faces : state.Faces setting text)
    (lone : startsLoneWord (skipTrivia text)) :
    Yields (piece language) state.advance fun result last =>
      (∃ value, result = some value) ∧ last.Stands setting (skipToken (skipTrivia text)) := by
  simp only [startsLoneWord, Bool.and_eq_true, Bool.or_eq_true, bne_iff_ne] at lone
  obtain ⟨⟨starts, legal⟩, fits⟩ := lone
  have kind := faces.kind_of_startsToken starts
  have passes := faces.passes starts legal
  by_cases number : state.lookahead.kind = .number
  · refine (yields_numberPiece number passes.stands.awaits).mono ?_
    rintro _ last ⟨value, rfl, -, -, awaits⟩
    have literal : state.advance.current.literal = state.lookahead.literal := rfl
    have fits := fits.resolve_left (not_not.2 (kind.symm.trans number))
    rw [literal, passes.literal, String.toList_ofList, if_pos fits] at awaits
    exact ⟨⟨value, rfl⟩, awaits.unreported⟩
  · refine (yields_simplePiece passes.legal number passes.alone).mono ?_
    rintro _ _ ⟨rfl, rfl⟩
    exact ⟨⟨_, rfl⟩, passes.stands⟩

/-- Nothing but a comma or the end is ahead of a text without a value. -/
theorem State.Faces.no_value (faces : state.Faces setting text)
    (none : (skipTrivia text).head?.all (· == ',')) :
    state.lookahead.kind = .endOfInput ∨ state.lookahead.kind = .comma := by
  obtain ⟨kind, -, -, -⟩ := faces.next rfl rfl
  rw [← skipTrivia] at kind
  cases ahead : skipTrivia text with
  | nil => exact .inl (by simp [kind, ahead, Lexeme.scan])
  | cons char later =>
    obtain rfl : char = ',' := by simpa [ahead] using none
    have starts : Lexeme.startsToken (skipTrivia text) := by rw [ahead]; rfl
    refine .inr ?_
    rw [faces.kind_of_startsToken starts, ahead]
    simp [Lexeme.scan, Lexeme.startsNumeral, Lexeme.isNameStart, Lexeme.symbol?, Lexeme.symbols]

/-- Neither a comma nor the end is ahead of anything else. -/
theorem State.Faces.no_separator (faces : state.Faces setting text)
    (other : (skipTrivia text).head?.any (· != ',')) :
    state.lookahead.kind ≠ .comma ∧ state.lookahead.kind ≠ .endOfInput := by
  obtain ⟨kind, -, -, -⟩ := faces.next rfl rfl
  rw [← skipTrivia] at kind
  cases ahead : skipTrivia text with
  | nil => simp [ahead] at other
  | cons char later =>
    rw [ahead] at kind other
    constructor
    · intro comma
      simp [Lexeme.scan_comma (kind.symm.trans comma)] at other
    · intro ended
      simpa using Lexeme.scan_endOfInput_iff.1 (kind.symm.trans ended)

/-- Pairs of a broken text are not read without a problem. -/
theorem yields_brokenPairs (faces : state.Faces setting text) (pair : startsPair text)
    (broken : isBrokenPair text) :
    Yields language.hashPairs state.advance fun _ last => last.diagnostics ≠ [] := by
  simp only [isBrokenPair, Bool.and_eq_true, Bool.or_eq_true] at broken
  obtain ⟨key, broken⟩ := broken
  simp only [startsPair, beq_iff_eq] at pair
  change Yields (language.parse .hashPairs) _ _
  refine .rule faces.ahead.advance ?_
  change Yields (hashPairs language) _ _
  unfold hashPairs
  refine (yields_loneWord faces key).bind ?_
  rintro _ next ⟨⟨name, rfl⟩, stands⟩
  generalize skipToken (skipTrivia text) = behind at pair broken stands
  obtain ⟨tight, colon⟩ : skipTrivia behind = behind ∧ Lexeme.startsToken behind := by
    cases behind with
    | nil => simp [Lexeme.scan] at pair
    | cons char later =>
      obtain rfl := Lexeme.scan_colon pair
      exact ⟨by rw [skipTrivia, Lexeme.Trivia.scan_tight later rfl]; rfl, rfl⟩
  rw [← tight] at colon pair
  have ahead : (next.lookahead.kind == .colon) = true := by
    simp [stands.toFaces.kind_of_startsToken colon, pair]
  have valued : next.advance.Faces setting (skipToken behind) := by
    have passes := stands.toFaces.passes colon (by simp [pair])
    rw [← tight]
    exact passes.stands.toFaces
  simp only [Yields.isAhead_bind, ahead, if_true, Yields.advance_bind]
  by_cases missing : (next.advance.lookahead.kind == .endOfInput ||
      next.advance.lookahead.kind == .comma) = true
  · simp only [missing, if_true]
    exact ⟨_, _, rfl, by simp [State.record]⟩
  obtain none | ⟨lone, other⟩ := broken
  · simp [valued.no_value none] at missing
  simp only [missing, Bool.false_eq_true, if_false, Yields.advance_bind]
  refine (yields_loneWord valued lone).bind ?_
  rintro _ last ⟨⟨value, rfl⟩, stands⟩
  obtain ⟨noComma, more⟩ := stands.toFaces.no_separator other
  simp only [Yields.isAhead_bind, beq_eq_false_iff_ne.2 noComma, beq_eq_false_iff_ne.2 more,
    Bool.false_eq_true, if_false]
  exact ⟨_, _, rfl, by simp [State.record]⟩

/-! ## Braced words -/

/-- The text of a list that is kept is not read without a problem. -/
theorem yields_brokenItems {opening : Token} (faces : state.Faces setting body)
    (braces : setting.braces = 0) (brackets : setting.brackets = 0)
    (broken : (if startsPair body then isBrokenPair body
      else isBroken setting.barred body) = true) :
    Yields (braceItems language opening) state.advance fun _ last => last.diagnostics ≠ [] := by
  unfold braceItems
  simp only [Yields.get_bind, faces.pairAhead braces brackets]
  split at broken
  · rename_i pair
    simp only [pair, if_true]
    exact (yields_brokenPairs faces pair broken).bind fun _ _ reported => .pure reported
  · rename_i single
    simp only [single]
    obtain ⟨elements, last, runs⟩ := exists_parse .listElements faces.ahead.advance
    have elementsRead : Yields language.listElements state.advance
        fun _ last => last.diagnostics ≠ [] :=
      ⟨elements, last, runs, complains_listElements faces broken elements last runs⟩
    exact elementsRead.bind fun _ _ reported => .pure reported

/-- Lists whose text is kept are read back. -/
theorem readsBack_kept {token : Token} {elements : List Expression}
    (kept : isKept names.barred elements) : ReadsBack names (.list token elements) := by
  unfold isKept at kept
  split at kept
  case h_2 => simp at kept
  rename_i place text isReserved
  simp only [Bool.and_eq_true] at kept
  obtain ⟨braced, broken⟩ := kept
  intro setting state gap rest spacing admits gapped faces _ _
  have faced : state.Faces setting (gap ++ ('\x7b' :: (text.toList ++ '\x7d' :: rest))) := by
    simpa [Expression.written, writtenAll, separated] using faces
  have wordRead : Yields (piece language) state.advance fun result last =>
      ∃ value : Expression, result = some value ∧
        value.Copies (.list token [.identifier place text false isReserved]) ∧
        last.Stands setting rest := by
    refine yields_bracedBody braced gapped faced fun start next opening snippet stands => ?_
    rw [← admits.barred] at broken
    have itemsRead : Yields (isolated start.advance (braceItems language opening)) next
        fun outcome last => outcome.2.diagnostics ≠ [] ∧ last = next :=
      .isolated ((yields_brokenItems snippet rfl rfl broken).mono fun _ _ reported =>
        ⟨reported, rfl⟩)
    refine itemsRead.bind ?_
    rintro ⟨items, inner⟩ _ ⟨reported, rfl⟩
    refine ⟨_, _, (bind_apply (keepIfClean_dropped reported)).trans rfl, ?_⟩
    exact ⟨_, rfl, ⟨by simp [Expression.shape, shapeAll, bareWord], rfl⟩, stands⟩
  refine wordRead.mono ?_
  rintro _ last ⟨copy, rfl, copies, stands⟩
  exact ⟨copy, rfl, copies, by simpa [Expression.names, Node.declares] using stands⟩

end Parser

end IRule
