import IRule.Proofs.RoundTrip.Interpolation
import IRule.Proofs.RoundTrip.Literal

/-!
# Names taken as text

The targets of assignments and the names of rules are not read token by token:
whatever is glued together up to the next blank is the name.
-/

namespace IRule

namespace Lexeme

/-! ## Tokens inside a name -/

section Bounds

variable {word rest : List Char}

/-- A bare word does not reach beyond a blank. -/
theorem wordLength_le : wordLength (word ++ ' ' :: rest) ≤ word.length := by
  fun_induction wordLength word with
  | case1 next later joined ih => simpa [wordLength, joined] using ih
  | case2 next later apart => simp [wordLength, apart]
  | case3 char later notColon isWord ih =>
    rw [List.cons_append, wordLength.eq_2]
    · simpa [isWord] using ih
    · rintro next text rfl
      simp [isWordChar, isNameChar] at isWord
  | case4 char later notColon notWord =>
    cases later with
    | nil =>
      by_cases colon : char = ':'
      · subst colon
        simp [wordLength, isNameChar]
      · rw [List.cons_append, wordLength.eq_2]
        · simp [notWord]
        · exact fun _ _ same => absurd same colon
    | cons next later =>
      rw [List.cons_append, wordLength.eq_2]
      · simp [notWord]
      · rintro _ _ rfl
        exact absurd rfl (notColon _ _ rfl)
  | case5 => simp [wordLength, isWordChar, isNameChar]

/-- A name does not reach beyond a blank. -/
theorem nameLength_le : nameLength (word ++ ' ' :: rest) ≤ word.length := by
  fun_induction nameLength word with
  | case1 later ih => simpa [nameLength] using ih
  | case2 char later notColon isName ih =>
    rw [List.cons_append, nameLength.eq_2]
    · simpa [isName] using ih
    · rintro text rfl
      simp [isNameChar] at isName
  | case3 char later notColon notName =>
    cases later with
    | nil =>
      rw [List.cons_append, nameLength.eq_2]
      · simp [notName]
      · simp
    | cons next later =>
      rw [List.cons_append, nameLength.eq_2]
      · simp [notName]
      · rintro _ rfl same
        obtain ⟨rfl, -⟩ := List.cons.inj same
        exact notColon _ rfl rfl
  | case4 => simp [nameLength, isNameChar]

/-- A numeral does not reach beyond a blank. -/
theorem numeralLength_le : numeralLength (word ++ ' ' :: rest) ≤ word.length := by
  fun_induction numeralLength word with
  | case1 next later digit ih => simpa [numeralLength, digit] using ih
  | case2 next later notDigit => simp [numeralLength, notDigit]
  | case3 char later notDot digit ih =>
    rw [List.cons_append, numeralLength.eq_2]
    · simpa [digit] using ih
    · rintro next text rfl
      simp at digit
  | case4 char later notDot notDigit =>
    cases later with
    | nil =>
      by_cases dot : char = '.'
      · subst dot
        simp [numeralLength]
      · rw [List.cons_append, numeralLength.eq_2]
        · simp [notDigit]
        · exact fun _ _ same => absurd same dot
    | cons next later =>
      rw [List.cons_append, numeralLength.eq_2]
      · simp [notDigit]
      · rintro _ _ rfl
        exact absurd rfl (notDot _ _ rfl)
  | case5 => simp [numeralLength]

/-- A symbol does not reach beyond a blank. -/
theorem symbol_length_le {spelling : List Char} {kind : TokenKind}
    (known : (spelling, kind) ∈ symbols) (found : spelling <+: word ++ ' ' :: rest) :
    spelling.length ≤ word.length := by
  by_contra longer
  have blank : word ++ [' '] <+: word ++ ' ' :: rest := ⟨rest, by simp⟩
  have inside := List.prefix_of_prefix_length_le blank found (by simp; omega)
  have space : ' ' ∈ spelling := inside.subset (by simp)
  have noSpace : ∀ entry ∈ symbols, ' ' ∉ entry.1 := by simp [symbols]
  exact noSpace _ known space

/-- A token inside a name ends inside the name, and delimits nothing. -/
theorem scan_raw {braces brackets : Nat} {char : Char} {text : List Char}
    (raw : (char :: text).all isRawChar) :
    (scan braces brackets (char :: text ++ ' ' :: rest)).length ≤ text.length + 1 ∧
      (scan braces brackets (char :: text ++ ' ' :: rest)).kind ∉
        [.closeBrace, .closeBracket, .semicolon, .endOfInput, .openBrace, .openBracket,
          .string] ∧
      (char ≠ '$' → (scan braces brackets (char :: text ++ ' ' :: rest)).kind ≠ .reference) := by
  simp only [List.all_cons, Bool.and_eq_true] at raw
  have other : ∀ wrong, isRawChar wrong = false → char ≠ wrong := by
    rintro wrong notRaw rfl
    simp [raw.1] at notRaw
  rw [List.cons_append]
  refine scan_cases braces brackets char (text ++ ' ' :: rest) ?_ ?_ ?_ ?_ ?_ ?_ ?_ ?_ ?_ ?_ ?_
  · exact fun wrong => absurd wrong (other _ (by decide))
  · exact fun wrong => absurd wrong (other _ (by decide))
  · exact fun wrong => absurd wrong (other _ (by decide))
  · exact fun wrong => absurd wrong (other _ (by decide))
  · rintro rfl
    have unbraced : ∀ later, text ++ ' ' :: rest ≠ '\x7b' :: later := by
      intro later same
      cases text with
      | nil => simp at same
      | cons next text =>
        obtain ⟨rfl, -⟩ := List.cons.inj same
        simp [isRawChar] at raw
    have bound : nameLength (text ++ ' ' :: rest) ≤ text.length := nameLength_le
    refine ⟨?_, ?_, fun other => absurd rfl other⟩
    · unfold reference
      rw [referenceLength.eq_2 _ unbraced]
      split <;> simp_all
    · rcases reference_kind (text ++ ' ' :: rest) with kind | kind <;> simp [kind]
  · exact fun wrong => absurd wrong (other _ (by decide))
  · intro _
    refine ⟨?_, ?_, ?_⟩
    · rw [numeral_length]
      split
      · have bound : numeralLength (text ++ ' ' :: rest) ≤ text.length := numeralLength_le
        simp
        omega
      · have bound : numeralLength ((char :: text) ++ ' ' :: rest) ≤ (char :: text).length :=
          numeralLength_le
        simpa using bound
    all_goals
      rcases numeral_kind (char :: (text ++ ' ' :: rest)) with kind | kind | kind <;> simp [kind]
  · intro _
    have isWord : (bareWord (char :: (text ++ ' ' :: rest))).kind.isWord := bareWord_isWord _
    refine ⟨?_, fun listed => ?_, ?_⟩
    · have bound : wordLength ((char :: text) ++ ' ' :: rest) ≤ (char :: text).length :=
        wordLength_le
      simpa [bareWord] using bound
    · have notWord : ∀ kind ∈ [TokenKind.closeBrace, .closeBracket, .semicolon, .endOfInput,
          .openBrace, .openBracket, .string], kind.isWord = false := by decide
      exact absurd (notWord _ listed) (by simp [isWord])
    · rintro - same
      simp [same, TokenKind.isWord] at isWord
  · exact fun wrong => absurd wrong (other _ (by decide))
  · intro spelling kind known found
    have bound : spelling.length ≤ (char :: text).length := symbol_length_le known found
    refine ⟨by simpa using bound, fun listed => ?_, ?_⟩
    · have marked : ∀ entry ∈ symbols, entry.2 ∈ [.closeBrace, .closeBracket, .semicolon,
          .endOfInput, .openBrace, .openBracket, .string] → entry.1 = [';'] := by
        simp [symbols]
      obtain rfl : spelling = [';'] := marked _ known listed
      obtain ⟨_, same⟩ := found
      exact other ';' (by decide) (List.cons.inj same).1.symm
    · have noReference : ∀ entry ∈ symbols, entry.2 ≠ .reference := by simp [symbols]
      exact fun _ => noReference _ known
  · exact fun _ _ => by simp [illegal]

end Bounds

end Lexeme

namespace Parser

variable {setting : Setting} {rest : List Char}

/-- A name starts with a token of its own. -/
theorem tight_of_raw {char : Char} {text : List Char} (raw : (char :: text).all isRawChar) :
    Lexeme.startsTrivia char = false := by
  simp only [List.all_cons, Bool.and_eq_true, isRawChar, Bool.not_eq_true', Bool.or_eq_false_iff]
    at raw
  exact raw.1.1

/-- A name that is taken as text starts with no reference. -/
theorem exists_of_isRawName {name : String} (legible : isRawName name) :
    ∃ char text, name.toList = char :: text ∧ char ≠ '$' ∧ (char :: text).all isRawChar := by
  simp only [isRawName, Bool.and_eq_true] at legible
  cases written : name.toList with
  | nil => simp [written] at legible
  | cons char text =>
    rw [written] at legible
    exact ⟨char, text, rfl, by simpa using legible.1, legible.2⟩

/-- A token inside a name glues to what stands before it. -/
theorem State.Faces.raw {state : State} {gap : List Char} {spacing : Spacing} {char : Char}
    {text : List Char} (gapped : Gap gap spacing)
    (faces : state.Faces setting (gap ++ (char :: text ++ ' ' :: rest)))
    (raw : (char :: text).all isRawChar) :
    state.lookahead.spacing = spacing ∧
      state.lookahead.kind ∉ [.closeBrace, .closeBracket, .semicolon, .endOfInput, .openBrace,
        .openBracket, .string] ∧
      (char ≠ '$' → state.lookahead.kind ≠ .reference) ∧
      ∃ later, later.length ≤ text.length ∧ later.all isRawChar ∧
        state.advance.Stands setting (later ++ ' ' :: rest) := by
  have trivia : Lexeme.Trivia.scan false (gap ++ (char :: text ++ ' ' :: rest)) =
      .ofGap gap spacing := gapped.scan (Lexeme.Trivia.scan_tight _ (tight_of_raw raw))
  obtain ⟨kind, -, apart, stands⟩ := faces.next trivia rfl
  simp only [Lexeme.Trivia.ofGap_length, List.drop_left] at kind stands
  obtain ⟨short, plain, named⟩ : _ ∧ (Lexeme.scan setting.braces setting.brackets
    (char :: text ++ ' ' :: rest)).kind ∉ _ ∧ _ := Lexeme.scan_raw raw
  have positive := (Lexeme.scan_fits setting.braces setting.brackets char
    (text ++ ' ' :: rest)).length_pos
  rw [← List.cons_append] at positive
  rw [← kind] at plain stands named
  generalize (Lexeme.scan setting.braces setting.brackets (char :: text ++ ' ' :: rest)).length =
    length at *
  refine ⟨apart, plain, named, (char :: text).drop length, ?_, ?_, ?_⟩
  · rw [List.length_drop, List.length_cons]
    omega
  · rw [List.all_eq_true] at raw ⊢
    exact fun later inside => raw later (List.mem_of_mem_drop inside)
  · rw [setting.delimit_of_plain (by simp_all),
      List.drop_append_of_le_length (by simpa using short)]
      at stands
    exact stands

/-! ## Whole names -/

/-- Everything glued together up to a blank is passed over. -/
theorem yields_rawWord {state : State} {text : List Char} (raw : text.all isRawChar)
    (outside : setting.nesting.head? ≠ some .index)
    (stands : state.Stands setting (text ++ ' ' :: rest)) :
    Yields (language.rawWord 0) state fun _ last =>
      last.Stands setting (' ' :: rest) ∧ last.source = state.source ∧
        last.declared = state.declared := by
  induction hn : text.length using Nat.strong_induction_on generalizing text state with
  | _ length ih =>
  change Yields (language.parse (.rawWord 0)) _ _
  refine .rule stands.coherent ?_
  change Yields (rawWord language 0) _ _
  simp only [rawWord, Yields.get_bind]
  cases text with
  | nil =>
    have apart : state.glues = false := by
      simp [State.glues, Spacing.isAdjacent, stands.toFaces.space_of_cons]
    simp only [apart]
    exact .pure ⟨stands, rfl, rfl⟩
  | cons char text =>
    have faced : state.Faces setting ([] ++ (char :: text ++ ' ' :: rest)) := stands.toFaces
    obtain ⟨adjacent, plain, -, later, shorter, raw, stands⟩ := faced.raw .none raw
    simp only [List.mem_cons, List.not_mem_nil, or_false, not_or] at plain
    obtain ⟨notBrace, notBracket, notSemicolon, notEnd, notOpening, notOpenBracket, -⟩ := plain
    have notTerminator : state.lookahead.kind.isTerminator = false := by
      simp only [TokenKind.isTerminator]
    have glued : state.glues = true := by
      simp [State.glues, adjacent, Spacing.isAdjacent, Spacing.none, notTerminator, notOpening,
        faced.nesting, outside]
    have passed : Yields (passToken language 0) state.advance fun depth last =>
        depth = 0 ∧ last = state.advance := by
      have here : state.advance.current.kind = state.lookahead.kind := rfl
      simp only [passToken, Yields.current_bind, here]
      exact .pure ⟨rfl, rfl⟩
    have more : (state.lookahead.kind == .endOfInput || state.lookahead.kind == .closeBrace) =
        false := by
      simp [notEnd, notBrace]
    simp only [glued, more, Bool.not_true, Bool.and_false, Bool.false_eq_true, if_false,
      Yields.advance_bind]
    refine passed.bind ?_
    rintro _ _ ⟨rfl, rfl⟩
    exact ih later.length (by simp at hn; omega) raw stands rfl

/-- A name is taken as it is written. -/
theorem yields_rawWordText {state : State} {gap : List Char} {spacing : Spacing} {name : String}
    (legible : isRawName name) (outside : setting.nesting.head? ≠ some .index)
    (gapped : Gap gap spacing)
    (faces : state.Faces setting (gap ++ (name.toList ++ ' ' :: rest))) :
    Yields (rawWordText language) state.advance fun text last =>
      text = name ∧ last.Stands setting (' ' :: rest) ∧ last.declared = state.declared := by
  obtain ⟨char, text, written, -, raw⟩ := exists_of_isRawName legible
  rw [written] at faces
  have trivia : Lexeme.Trivia.scan false (gap ++ (char :: text ++ ' ' :: rest)) =
      .ofGap gap spacing := gapped.scan (Lexeme.Trivia.scan_tight _ (tight_of_raw raw))
  obtain ⟨-, plain, -, later, -, raw, stands⟩ := faces.raw gapped raw
  have notBracket : (state.advance.current.kind == .openBracket) = false := by
    have here : state.advance.current.kind = state.lookahead.kind := rfl
    rw [here, beq_eq_false_iff_ne]
    intro same
    simp [same] at plain
  simp only [rawWordText, Yields.current_bind, notBracket]
  refine (yields_rawWord raw outside stands).bind ?_
  rintro _ last ⟨stands, source, declared⟩
  simp only [Yields.get_bind]
  refine .pure ⟨?_, stands, declared⟩
  have same : last.source = state.source := source
  have cut := stands.slice_eq same faces (congrArg _ trivia)
  rw [← written, String.ofList_toList] at cut
  exact cut

/-! ## Declared names -/

theorem yields_variableTarget {state : State} {token : Token} {name : String}
    (legal : Naming.isVariableName name) :
    Yields (variableTarget token name) state fun result last =>
      result = (bareWord token name, some (declaredName name)) ∧ last = state := by
  simp only [variableTarget, legal, if_true]
  exact .pure ⟨rfl, rfl⟩

theorem yields_declaredTarget {state : State} {token : Token} {name : String}
    (legal : Naming.isVariableName name) (spared : setting.Spares [declaredName name])
    (stands : state.Stands setting rest) :
    Yields (declaredTarget token name) state fun result last =>
      result = bareWord token name ∧ last.Stands (setting.knowing [declaredName name]) rest := by
  unfold declaredTarget
  refine (yields_variableTarget legal).bind ?_
  rintro _ _ ⟨rfl, rfl⟩
  exact ⟨_, _, rfl, rfl, stands.declare spared⟩

end Parser

end IRule
