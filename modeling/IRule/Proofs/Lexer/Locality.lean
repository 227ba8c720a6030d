import IRule.Proofs.Lexer.Faults
import IRule.Proofs.Lexer.Spelling

/-!
# Lines that follow

A text is continued by another line. Names, words, numbers, references and comments
end with the line, so that nothing behind it matters to them. Two things are not
finished with their line: a backslash at its end hides the line end, and a string
looks for the bracket that closes a substitution up to the end of the whole text.
The tokens of a text without faults stay as they are exactly when neither happens.
-/

namespace IRule

open Text

namespace Lexeme

/-- The texts behind the brackets in the body of a string that are never closed, where
the first `skip` characters are known to belong to the body. -/
def loneBrackets (skip : Nat) : List Char → List (List Char)
  | [] => []
  | char :: rest =>
    match skip with
    | more + 1 => loneBrackets more rest
    | 0 =>
      if char == '"' then []
      else if char == '\\' then loneBrackets 1 rest
      else if char == '[' then
        match substitution? [.bracket] rest with
        | some inner => loneBrackets inner.length rest
        | none => rest :: loneBrackets 0 rest
      else loneBrackets 0 rest

/-- The texts behind the lone brackets of the string at the head of a text. -/
def openBrackets : List Char → List (List Char)
  | '"' :: rest => loneBrackets 0 rest
  | _ => []

/-- The lexeme at the head of `text` is finished when the line `later` follows the
text: it is no backslash that hides the line end, and no lone bracket of a string is
closed. -/
def Finished (later text : List Char) : Prop :=
  text ∉ [['\\'], ['\\', '\r']] ∧
    ∀ behind ∈ openBrackets text,
      substitution? [.bracket] (behind ++ '\n' :: later) = none

instance (later text : List Char) : Decidable (Finished later text) :=
  inferInstanceAs (Decidable (_ ∧ _))

/-! ## Lengths -/

section Lengths

variable (text : List Char)

theorem nameLength_le_length : nameLength text ≤ text.length := by
  fun_induction nameLength text <;> simp <;> omega

theorem wordLength_le_length : wordLength text ≤ text.length := by
  fun_induction wordLength text <;> simp <;> omega

theorem numeralLength_le_length : numeralLength text ≤ text.length := by
  fun_induction numeralLength text <;> simp <;> omega

theorem referenceLength_le_length : referenceLength text ≤ text.length := by
  fun_cases referenceLength text with
  | case1 | case3 => simp
  | case2 rest name _ closed =>
    have within : name.length < rest.length := by
      by_contra beyond
      rw [List.drop_eq_nil_of_le (by omega)] at closed
      simp at closed
    simp
    omega
  | case4 => exact nameLength_le_length text

theorem numeral_length_le : (numeral text).length ≤ text.length := by
  have digits := numeralLength_le_length (text.drop (if text.head? == some '-' then 1 else 0))
  rw [numeral_length]
  cases text with
  | nil => simp [numeralLength]
  | cons char rest =>
    rw [List.length_drop] at digits
    split at digits
    · simp_all
      omega
    · simp_all

theorem Trivia.scan_length_le (inComment : Bool) :
    (Trivia.scan inComment text).length ≤ text.length := by
  fun_induction Trivia.scan inComment text <;>
    simp_all [Trivia.empty, Trivia.afterNewline, Trivia.afterComment, Trivia.afterSpace,
      Trivia.afterHiddenLine]

/-- A lexeme lies within the text that it is read from. -/
theorem scan_length_le (braceDepth bracketDepth : Nat) :
    (scan braceDepth bracketDepth text).length ≤ text.length := by
  cases text with
  | nil => simp [scan]
  | cons char rest =>
    refine scan_cases braceDepth bracketDepth char rest ?_ ?_ ?_ ?_ ?_ ?_ ?_ ?_ ?_ ?_ ?_
    · simp
    · intro _
      unfold closer illegal
      split <;> simp
    · simp
    · intro _
      unfold closer illegal
      split <;> simp
    · intro _
      have := referenceLength_le_length rest
      unfold reference
      split <;> simp_all
    · intro _
      unfold quotedString illegal
      split <;> simpa using quotation_length_le 0 rest
    · exact fun _ => numeral_length_le _
    · exact fun _ => wordLength_le_length _
    · intro _
      simp
      omega
    · exact fun spelling kind _ starts => starts.length_le
    · simp [illegal]

end Lengths

/-! ## What ends with its line -/

section Runs

variable (text later : List Char)

theorem nameLength_line : nameLength (text ++ '\n' :: later) = nameLength text := by
  fun_induction nameLength text with
  | case1 rest ih => simp [nameLength, ih]
  | case2 char rest notJoined isName ih =>
    rw [List.cons_append, nameLength.eq_2]
    · simp [isName, ih]
    · rintro text rfl
      simp [isNameChar] at isName
  | case3 char rest notJoined notName =>
    rw [List.cons_append, nameLength.eq_2]
    · simp [notName]
    · rintro text rfl same
      cases rest with
      | nil => simp at same
      | cons next rest => simp_all
  | case4 => simp [nameLength, isNameChar]

theorem wordLength_line : wordLength (text ++ '\n' :: later) = wordLength text := by
  fun_induction wordLength text with
  | case1 next rest joined ih => simp [wordLength, joined, ih]
  | case2 next rest apart => simp [wordLength, apart]
  | case3 char rest notJoined isWord ih =>
    rw [List.cons_append, wordLength.eq_2]
    · simp [isWord, ih]
    · rintro next text rfl
      simp [isWordChar, isNameChar] at isWord
  | case4 char rest notJoined notWord =>
    cases rest with
    | nil =>
      by_cases colon : char = ':'
      · simp [colon, wordLength, isNameChar]
      · rw [List.singleton_append, wordLength.eq_2]
        · simp [notWord]
        · exact fun _ _ same => absurd same colon
    | cons next rest =>
      rw [List.cons_append, wordLength.eq_2]
      · simp [notWord]
      · exact fun _ _ same _ => notJoined next rest same rfl
  | case5 => simp [wordLength, isWordChar, isNameChar]

theorem numeralLength_line : numeralLength (text ++ '\n' :: later) = numeralLength text := by
  fun_induction numeralLength text with
  | case1 next rest digit ih => simp [numeralLength, digit, ih]
  | case2 next rest notDigit => simp [numeralLength, notDigit]
  | case3 char rest notJoined digit ih =>
    rw [List.cons_append, numeralLength.eq_2]
    · simp [digit, ih]
    · rintro next text rfl
      simp at digit
  | case4 char rest notJoined notDigit =>
    cases rest with
    | nil =>
      by_cases dot : char = '.'
      · simp [dot, numeralLength]
      · rw [List.singleton_append, numeralLength.eq_2]
        · simp [notDigit]
        · exact fun _ _ same => absurd same dot
    | cons next rest =>
      rw [List.cons_append, numeralLength.eq_2]
      · simp [notDigit]
      · exact fun _ _ same _ => notJoined next rest same rfl
  | case5 => simp [numeralLength]

/-- A braced name ends with its line too. -/
theorem referenceLength_line :
    referenceLength (text ++ '\n' :: later) = referenceLength text := by
  cases text with
  | nil => simp [referenceLength, nameLength, isNameChar]
  | cons char rest =>
    by_cases braced : char = '\x7b'
    · subst braced
      have name : (rest ++ '\n' :: later).takeWhile (fun char => char != '\x7d' && char != '\n') =
          rest.takeWhile fun char => char != '\x7d' && char != '\n' := by
        induction rest with
        | nil => simp
        | cons char rest ih => simp [List.takeWhile_cons, ih]
      have within := (List.takeWhile_prefix
        (fun char => char != '\x7d' && char != '\n') (l := rest)).length_le
      have closing : ((rest ++ '\n' :: later).drop
            (rest.takeWhile fun char => char != '\x7d' && char != '\n').length).head? =
            some '\x7d' ↔
          (rest.drop (rest.takeWhile fun char => char != '\x7d' && char != '\n').length).head? =
            some '\x7d' := by
        rw [List.drop_append_of_le_length within]
        cases rest.drop _ <;> simp
      simp only [List.cons_append, referenceLength, name, beq_iff_eq, closing]
    · have unbraced : ∀ text, char :: rest ≠ '\x7b' :: text :=
        fun _ same => braced (List.cons.inj same).1
      rw [referenceLength.eq_2 _ unbraced, ← nameLength_line _ later, List.cons_append,
        referenceLength.eq_2 _ fun _ same => braced (List.cons.inj same).1]

/-- No symbol reaches over the end of a line. -/
theorem symbol?_line : symbol? (text ++ '\n' :: later) = symbol? text := by
  have oneLine : ∀ entry ∈ symbols, '\n' ∉ entry.1 := by decide
  unfold symbol?
  refine List.find?_congr fun entry known => ?_
  rw [Bool.eq_iff_iff, List.isPrefixOf_iff_prefix, List.isPrefixOf_iff_prefix]
  constructor
  · intro starts
    rcases List.prefix_or_prefix_of_prefix starts (List.prefix_append text ('\n' :: later)) with
      inside | ⟨more, spelled⟩
    · exact inside
    · rw [← spelled, List.prefix_append_right_inj] at starts
      cases more with
      | nil => simp [← spelled]
      | cons char more =>
        obtain ⟨rfl, -⟩ := List.cons_prefix_cons.1 starts
        exact absurd (spelled ▸ by simp) (oneLine entry known)
  · exact fun starts => starts.trans (List.prefix_append _ _)

theorem startsNumeral_line {text : List Char} (nonempty : text ≠ []) :
    startsNumeral (text ++ '\n' :: later) = startsNumeral text := by
  obtain ⟨char, rest, rfl⟩ := List.exists_cons_of_ne_nil nonempty
  by_cases minus : char = '-'
  · subst minus
    cases rest <;> simp [startsNumeral]
  · rw [List.cons_append, startsNumeral_cons minus, startsNumeral_cons minus]

theorem numeral_line {text : List Char} (nonempty : text ≠ []) :
    numeral (text ++ '\n' :: later) = numeral text := by
  have head : (text ++ '\n' :: later).head? = text.head? := by
    cases text <;> simp_all
  simp only [numeral, head]
  generalize size : (if text.head? == some '-' then 1 else 0) = sign
  have within : sign ≤ text.length := by
    have := List.length_pos_iff.2 nonempty
    split at size <;> omega
  have length : numeralLength ((text ++ '\n' :: later).drop sign) =
      numeralLength (text.drop sign) := by
    rw [List.drop_append_of_le_length within, numeralLength_line]
  have inside : sign + numeralLength (text.drop sign) ≤ text.length := by
    have := numeralLength_le_length (text.drop sign)
    rw [List.length_drop] at this
    omega
  rw [length, List.take_append_of_le_length inside]

theorem bareWord_line : bareWord (text ++ '\n' :: later) = bareWord text := by
  simp only [bareWord, wordLength_line, List.take_append_of_le_length (wordLength_le_length text)]

end Runs

/-! ## Strings -/

section Strings

variable {text : List Char}

theorem substitution?_pos {pending : List Pending} {passage : Passage}
    (closes : substitution? pending text = some passage) : 0 < passage.length := by
  fun_induction substitution? pending text generalizing passage with
  | case1 | case2 | case4 => simp at closes
  | case9 =>
    obtain rfl : ⟨1, 0⟩ = passage := by simp_all
    exact Nat.one_pos
  | case3 | case5 | case6 | case7 | case8 | case10 | case11 =>
    obtain ⟨inner, -, rfl⟩ := Option.map_eq_some_iff.1 closes
    simp

/-- What closes a bracket within the text closes it without what follows the text. -/
theorem substitution?_of_append {pending : List Pending} {rest : List Char} {passage : Passage}
    (closes : substitution? pending (text ++ rest) = some passage)
    (within : passage.length ≤ text.length) : substitution? pending text = some passage := by
  fun_induction substitution? pending text generalizing passage with
  | case1 =>
    have := substitution?_pos closes
    simp_all
  | case2 =>
    cases rest with
    | nil => simp [substitution?] at closes
    | cons char rest =>
      simp only [List.singleton_append, substitution?] at closes
      obtain ⟨inner, -, rfl⟩ := Option.map_eq_some_iff.1 closes
      simp at within
  | case4 => simp_all [substitution?]
  | case9 => simp_all [substitution?]
  | case3 | case5 | case6 | case7 | case8 | case10 | case11 =>
    rename_i ih
    simp_all only [List.cons_append, substitution?, List.length_cons]
    obtain ⟨inner, known, rfl⟩ := Option.map_eq_some_iff.1 closes
    simp [ih known (by simpa using within)]

/-- A closed string stays as it is exactly when its lone brackets stay open. -/
theorem quotation_append_iff {skip : Nat} (rest : List Char)
    (closed : (quotation skip text).closed) :
    quotation skip (text ++ rest) = quotation skip text ↔
      ∀ behind ∈ loneBrackets skip text, substitution? [.bracket] (behind ++ rest) = none := by
  have extended {first second : Quotation} {count lines : Nat} :
      first.extend count lines = second.extend count lines ↔ first = second := by
    cases first
    cases second
    simp [Quotation.extend]
  fun_induction quotation skip text with
  | case1 => simp at closed
  | case3 char later quote => simp_all [quotation, loneBrackets]
  | case2 char later more ih => simp [quotation, loneBrackets, extended, ih closed]
  | case4 char later notQuote hides ih =>
    have same : ((later ++ rest).head?.map lineFeed).getD 0 =
        (later.head?.map lineFeed).getD 0 := by
      cases later with
      | nil => simp [quotation] at closed
      | cons => rfl
    simp_all [quotation, loneBrackets]
  | case5 char later notQuote notHiding opens inner closes ih =>
    have closing := substitution?_append closes rest
    simp [quotation, loneBrackets, notQuote, notHiding, opens, closes, closing, extended, ih closed]
  | case6 char later notQuote notHiding opens lone ih =>
    simp only [quotation, loneBrackets, List.cons_append, notQuote, notHiding, opens, lone,
      Bool.false_eq_true, if_false, if_true, List.forall_mem_cons]
    cases closing : substitution? [.bracket] (later ++ rest) with
    | none => simp [extended, ih closed]
    | some passage =>
      -- A bracket that `rest` closes takes the string along past the end of the text.
      simp only [reduceCtorEq, false_and, iff_false]
      intro stays
      have length := congrArg Quotation.length stays
      have still := congrArg Quotation.closed stays
      simp only [Quotation.extend_length, Quotation.extend_closed] at length still
      have := skip_lt_quotation (still.trans closed)
      have := quotation_length_le 0 later
      rw [substitution?_of_append closing (by omega)] at lone
      exact absurd lone (by simp)
  | case7 char later notQuote notHiding notOpening ih =>
    simp_all [quotation, loneBrackets]

/-- Two strings that take the same characters count the same lines. -/
theorem quotation_append_eq {rest : List Char}
    (length : (quotation 0 (text ++ rest)).length = (quotation 0 text).length)
    (closed : (quotation 0 (text ++ rest)).closed = (quotation 0 text).closed) :
    quotation 0 (text ++ rest) = quotation 0 text := by
  have lines := quotation_lines 0 (text ++ rest)
  rw [length, List.take_append_of_le_length (quotation_length_le 0 text),
    ← quotation_lines] at lines
  have same : (quotation 0 (text ++ rest)).lines = (quotation 0 text).lines := by simpa using lines
  generalize quotation 0 (text ++ rest) = longer at *
  cases longer
  simp_all

theorem quotedString_line_iff (later : List Char) (legal : (quotedString text).kind ≠ .illegal) :
    quotedString (text ++ '\n' :: later) = quotedString text ↔
      ∀ behind ∈ loneBrackets 0 text,
        substitution? [.bracket] (behind ++ '\n' :: later) = none := by
  have closed : (quotation 0 text).closed := by
    by_contra unclosed
    simp [quotedString, unclosed, illegal] at legal
  rw [← quotation_append_iff _ closed]
  refine ⟨fun same => ?_, fun same => by rw [quotedString, same, quotedString]⟩
  have still : (quotation 0 (text ++ '\n' :: later)).closed := by
    by_contra unclosed
    simp [quotedString, closed, unclosed, illegal] at same
  refine quotation_append_eq ?_ (still.trans closed.symm)
  simpa [quotedString, closed, still] using same

end Strings

/-! ## Gaps -/

section Gaps

variable {text : List Char} {inComment : Bool} (later : List Char)

/-- The gap in front of a token stays as it is, unless the line end makes the token a
part of it. -/
theorem Trivia.scan_before_line (more : (Trivia.scan inComment text).length < text.length) :
    if text.drop (Trivia.scan inComment text).length ∈ [['\\'], ['\\', '\r']] then
      text.length < (Trivia.scan inComment (text ++ '\n' :: later)).length
    else
      Trivia.scan inComment (text ++ '\n' :: later) = Trivia.scan inComment text := by
  fun_induction Trivia.scan inComment text with
  | case1 => simp at more
  | case2 | case3 | case4 | case5 | case6 | case7 =>
    rename_i ih
    have further := ih (by
      simpa [afterNewline, afterComment, afterSpace, afterHiddenLine] using more)
    clear ih
    rw [List.cons_append, scan.eq_def _ (_ :: (_ ++ _))]
    split at further <;> simp_all [afterNewline, afterComment, afterSpace, afterHiddenLine]
  | case8 inComment char rest _ _ _ _ slash notLine notCarriage =>
    obtain rfl : char = '\\' := eq_of_beq slash
    rw [List.cons_append, scan.eq_def _ (_ :: (_ ++ _))]
    rcases rest with _ | ⟨first, _ | ⟨second, rest⟩⟩
    · simp_all [empty, afterHiddenLine]
    · simp_all [empty, afterHiddenLine]
    · simp_all [empty]
  | case9 =>
    rw [List.cons_append, scan.eq_def _ (_ :: (_ ++ _))]
    simp_all [empty]

end Gaps

/-! ## One lexeme -/

/-- A finished lexeme is read as before when another line follows. -/
theorem scan_line_iff {braceDepth bracketDepth : Nat} {text : List Char} (later : List Char)
    (nonempty : text ≠ []) (legal : (scan braceDepth bracketDepth text).kind ≠ .illegal)
    (shown : text ∉ [['\\'], ['\\', '\r']]) :
    scan braceDepth bracketDepth (text ++ '\n' :: later) = scan braceDepth bracketDepth text ↔
      Finished later text := by
  obtain ⟨char, rest, rfl⟩ := List.exists_cons_of_ne_nil nonempty
  by_cases quote : char = '"'
  · subst quote
    simp [scan] at legal
    simp [scan, Finished, openBrackets, quotedString_line_iff later legal]
  · have plain : openBrackets (char :: rest) = [] := by
      unfold openBrackets
      split <;> simp_all
    have finished : Finished later (char :: rest) := ⟨shown, by simp [plain]⟩
    refine iff_of_true ?_ finished
    have starts := startsNumeral_line later nonempty
    have numeral := numeral_line later nonempty
    have bare := bareWord_line (char :: rest) later
    have symbol := symbol?_line (char :: rest) later
    have hides :
        char = '\\' → 1 + min 1 (rest ++ '\n' :: later).length = 1 + min 1 rest.length := by
      rintro rfl
      cases rest <;> simp_all
    rw [List.cons_append] at starts numeral bare symbol ⊢
    have notQuote : (char == '"') = false := beq_false_of_ne quote
    simp only [scan, reference, referenceLength_line, notQuote, Bool.false_eq_true, if_false,
      starts, numeral, bare, symbol]
    by_cases slash : char = '\\'
    · rw [hides slash]
    · simp [slash]

end Lexeme

/-! ## One token -/

attribute [ext] Lexeme

/-- Texts in front of the same rest that are as long in bytes are the same. -/
theorem Text.eq_of_byteLength_eq {first second whole : List Char} (left : first <+: whole)
    (right : second <+: whole) (same : byteLength first = byteLength second) : first = second := by
  have empty (more : List Char) (none : byteLength more = 0) : more = [] := by
    have := length_le_byteLength more
    exact List.eq_nil_of_length_eq_zero (by omega)
  rcases List.prefix_or_prefix_of_prefix left right with ⟨more, rfl⟩ | ⟨more, rfl⟩
  · simp [empty more (by simpa using same)]
  · simp [empty more (by simpa using same)]

/-- The same place in a text that goes on. -/
def Scanner.followedBy (scanner : Scanner) (more : List Char) : Scanner :=
  { scanner with rest := scanner.rest ++ more }

theorem Scanner.followedBy_advance {scanner : Scanner} {count : Nat} (lines : Nat)
    (more : List Char) (within : count ≤ scanner.rest.length) :
    (scanner.followedBy more).advance count lines =
      (scanner.advance count lines).followedBy more := by
  simp [followedBy, advance, List.take_append_of_le_length within,
    List.drop_append_of_le_length within]

theorem Scanner.followedBy_delimit (scanner : Scanner) (more : List Char) (kind : TokenKind) :
    (scanner.followedBy more).delimit kind = (scanner.delimit kind).followedBy more := by
  unfold delimit
  split <;> rfl

namespace Lexer

/-- The same lexer in a text that goes on. -/
def followedBy (lexer : Lexer) (more : List Char) : Lexer :=
  ⟨lexer.scanner.followedBy more, lexer.before.followedBy more⟩

section Next

variable {lexer : Lexer} {later : List Char}

theorem lexeme_length_le (lexer : Lexer) :
    lexer.lexeme.length ≤ lexer.tokenStart.rest.length :=
  Lexeme.scan_length_le _ _ _

theorem tokenText_length (lexer : Lexer) : lexer.tokenText.length = lexer.lexeme.length :=
  List.length_take_of_le lexer.lexeme_length_le

theorem lexeme_faultless (legal : lexer.next.1.kind ≠ .illegal) : lexer.lexeme.fault = none :=
  Lexeme.scan_faultless legal

/-- The gap in front of a token is the same, unless the token hides the line end. -/
theorem followedBy_trivia (later : List Char) (more : lexer.tokenStart.rest ≠ []) :
    if lexer.tokenStart.rest ∈ [['\\'], ['\\', '\r']] then
      lexer.scanner.rest.length < (lexer.followedBy ('\n' :: later)).trivia.length
    else
      (lexer.followedBy ('\n' :: later)).trivia = lexer.trivia := by
  refine Lexeme.Trivia.scan_before_line later ?_
  by_contra beyond
  exact more (List.drop_eq_nil_of_le (Nat.le_of_not_lt beyond))

/-- In front of a token that does not hide the line end, the lexer comes to the same
place. -/
theorem followedBy_tokenStart (later : List Char) (more : lexer.tokenStart.rest ≠ [])
    (shown : lexer.tokenStart.rest ∉ [['\\'], ['\\', '\r']]) :
    (lexer.followedBy ('\n' :: later)).tokenStart =
      lexer.tokenStart.followedBy ('\n' :: later) := by
  have trivia := followedBy_trivia later more
  rw [if_neg shown] at trivia
  rw [tokenStart, trivia]
  exact Scanner.followedBy_advance _ _ (Lexeme.Trivia.scan_length_le _ _)

/-- A finished token is read as before, and leaves the lexer at the same place. -/
theorem followedBy_next (legal : lexer.next.1.kind ≠ .illegal)
    (more : lexer.next.1.kind ≠ .endOfInput)
    (finished : Lexeme.Finished later lexer.tokenStart.rest) :
    (lexer.followedBy ('\n' :: later)).next =
      (lexer.next.1, lexer.next.2.followedBy ('\n' :: later)) := by
  have nonempty : lexer.tokenStart.rest ≠ [] := mt Lexeme.scan_endOfInput_iff.2 more
  have trivia := followedBy_trivia later nonempty
  rw [if_neg finished.1] at trivia
  have start := followedBy_tokenStart later nonempty finished.1
  have lexeme : (lexer.followedBy ('\n' :: later)).lexeme = lexer.lexeme := by
    rw [Lexer.lexeme, start]
    exact (Lexeme.scan_line_iff later nonempty legal finished.1).2 finished
  have text : (lexer.followedBy ('\n' :: later)).tokenText = lexer.tokenText := by
    rw [tokenText, start, lexeme]
    exact List.take_append_of_le_length lexer.lexeme_length_le
  have stop : (lexer.followedBy ('\n' :: later)).tokenStop =
      lexer.tokenStop.followedBy ('\n' :: later) := by
    rw [tokenStop, countedLines_tokenStart, text, start, lexeme,
      Scanner.followedBy_advance _ _ lexer.lexeme_length_le, Scanner.followedBy_delimit,
      ← countedLines_tokenStart, tokenStop]
  rw [next_eq, next_eq, trivia, start, lexeme, text, stop, lexeme_faultless legal]
  rfl

/-- An unfinished token is not read again. -/
theorem followedBy_next_ne (legal : lexer.next.1.kind ≠ .illegal)
    (more : lexer.next.1.kind ≠ .endOfInput)
    (unfinished : ¬ Lexeme.Finished later lexer.tokenStart.rest) :
    (lexer.followedBy ('\n' :: later)).next.1 ≠ lexer.next.1 := by
  have nonempty : lexer.tokenStart.rest ≠ [] := mt Lexeme.scan_endOfInput_iff.2 more
  have reading := lexer.next_reading_text
  have again := (lexer.followedBy ('\n' :: later)).next_reading_text
  intro same
  rw [same] at again
  by_cases hidden : lexer.tokenStart.rest ∈ [['\\'], ['\\', '\r']]
  · -- The gap now takes more than all that the text had.
    have trivia := followedBy_trivia later nonempty
    rw [if_pos hidden] at trivia
    obtain ⟨beyond, gap⟩ : lexer.scanner.rest <+: (lexer.followedBy ('\n' :: later)).tokenGap := by
      rw [tokenGap]
      exact List.prefix_take_iff.2 ⟨List.prefix_append _ _, trivia.le⟩
    have starts := again.start.symm.trans reading.start
    have goesOn := reading.start_lt_stop more
    have stop := reading.stop
    rw [← gap, reading.input] at starts
    simp [followedBy, Scanner.followedBy] at starts
    omega
  · have start := followedBy_tokenStart later nonempty hidden
    have differs : (lexer.followedBy ('\n' :: later)).lexeme ≠ lexer.lexeme := by
      rw [lexeme, start]
      exact mt (Lexeme.scan_line_iff later nonempty legal hidden).1 unfinished
    have kind : (lexer.followedBy ('\n' :: later)).lexeme.kind = lexer.lexeme.kind :=
      congrArg Token.kind same
    have text : (lexer.followedBy ('\n' :: later)).tokenText = lexer.tokenText := by
      refine eq_of_byteLength_eq (List.take_prefix _ _) ?_
        (Nat.add_left_cancel (again.stop.symm.trans reading.stop))
      rw [start]
      exact (List.take_prefix _ _).trans (List.prefix_append _ _)
    have length : (lexer.followedBy ('\n' :: later)).lexeme.length = lexer.lexeme.length := by
      rw [← tokenText_length, text, tokenText_length]
    have fault : (lexer.followedBy ('\n' :: later)).lexeme.fault = lexer.lexeme.fault := by
      rw [lexeme_faultless (kind.trans_ne legal), lexeme_faultless legal]
    exact differs (Lexeme.ext kind length fault)

end Next

end Lexer

/-! ## All tokens -/

/-- The end of a text from a byte offset on. -/
def Text.fromOffset (source : List Char) (offset : Nat) : List Char :=
  ((splitBytes? offset source).map Prod.snd).getD []

theorem Scanner.StandsIn.fromOffset_eq {scanner : Scanner} {source : List Char}
    (stands : scanner.StandsIn source) : fromOffset source scanner.offset = scanner.rest := by
  obtain ⟨passed, rfl, offset⟩ := stands
  simp [fromOffset, offset]

namespace Lexer

theorem take_succ (count : Nat) (lexer : Lexer) :
    (lexer.take (count + 1)).1 = lexer.next.1 ::
      if lexer.next.1.kind = .endOfInput then [] else (lexer.next.2.take count).1 := by
  by_cases ended : lexer.next.1.kind = .endOfInput <;> simp [take, ended]

theorem take_ne_nil {count : Nat} (lexer : Lexer) (positive : 0 < count) :
    (lexer.take count).1 ≠ [] := by
  obtain ⟨count, rfl⟩ := Nat.exists_eq_add_of_lt positive
  simp [take_succ]

/-- Along a run: the tokens of a text without faults come again, up to the end of the
text, exactly when all of them are finished. -/
theorem take_followedBy_iff {count enough : Nat} {lexer : Lexer} {source later : List Char}
    (counted : lexer.scanner.rest.length < count) (room : count ≤ enough)
    (stands : lexer.scanner.StandsIn source)
    (legal : ∀ token ∈ (lexer.take count).1, token.kind ≠ .illegal) :
    (lexer.take count).1.dropLast <+: ((lexer.followedBy ('\n' :: later)).take enough).1 ↔
      ∀ token ∈ (lexer.take count).1,
        Lexeme.Finished later (fromOffset source token.span.start) := by
  induction count generalizing lexer enough with
  | zero => simp at counted
  | succ count ih =>
    obtain ⟨enough, rfl⟩ := Nat.exists_eq_add_of_le' (Nat.one_le_of_lt room)
    have here : fromOffset source lexer.next.1.span.start = lexer.tokenStart.rest :=
      (tokenStart_standsIn stands).fromOffset_eq
    by_cases ended : lexer.next.1.kind = .endOfInput
    · have none : lexer.tokenStart.rest = [] := Lexeme.scan_endOfInput_iff.1 ended
      simp [take_succ, ended, here, none, Lexeme.Finished, Lexeme.openBrackets]
    · have reading := lexer.next_reading_text
      have less : lexer.next.2.scanner.rest.length < count :=
        (reading.length_lt ended).trans_le (Nat.le_of_lt_succ counted)
      rw [take_succ, if_neg ended] at legal ⊢
      obtain ⟨first, others⟩ := List.forall_mem_cons.1 legal
      rw [List.dropLast_cons_of_ne_nil (take_ne_nil _ (Nat.zero_lt_of_lt less)),
        List.forall_mem_cons, here, take_succ enough, List.cons_prefix_cons]
      by_cases finished : Lexeme.Finished later lexer.tokenStart.rest
      · rw [followedBy_next first ended finished, if_neg ended,
          ih less (Nat.le_of_succ_le_succ room) (reading.standsIn stands) others]
        simp [finished]
      · simp [finished, (followedBy_next_ne first ended finished).symm]

end Lexer

/-- A text without faults is followed by another line. Its tokens, up to the end of the
text, are the first tokens of the whole exactly when all of them are finished: at the
end of the text no backslash hides the line end, alone or in front of a carriage
return, and no lone bracket in a string is closed by what follows. -/
theorem tokenize_line_iff (source later : String)
    (legal : ∀ token ∈ tokenize source, token.kind ≠ .illegal) :
    (tokenize source).dropLast <+: tokenize (source ++ "\n" ++ later) ↔
      ∀ token ∈ tokenize source,
        Lexeme.Finished later.toList (fromOffset source.toList token.span.start) := by
  have whole : Lexer.start (source ++ "\n" ++ later).toList 1 =
      (Lexer.start source.toList 1).followedBy ('\n' :: later.toList) := by
    simp [Lexer.start, Lexer.followedBy, Scanner.followedBy]
  rw [tokenize, tokenize, whole]
  have room : source.toList.length + 1 ≤ (source.toList ++ '\n' :: later.toList).length + 1 := by
    simp
  exact Lexer.take_followedBy_iff (Nat.lt_succ_self _) room ⟨[], rfl, rfl⟩ legal

/-- A lone bracket that nothing closes, and a hidden line end inside the text. -/
theorem tokenize_line_iff_lone :
    (tokenize "set x \"a [ b\" ; \\\nset z 1").dropLast <+:
      tokenize "set x \"a [ b\" ; \\\nset z 1\nset y \"c\"" :=
  (tokenize_line_iff "set x \"a [ b\" ; \\\nset z 1" "set y \"c\"" (by decide +kernel)).2
    (by decide +kernel)

/-- Text far below can reach into a string that was closed. -/
theorem tokenize_line_reopened :
    ¬ ∀ source later : String, (∀ token ∈ tokenize source, token.kind ≠ .illegal) →
      source.toList.getLast? ≠ some '\\' →
      (tokenize source).dropLast <+: tokenize (source ++ "\n" ++ later) := by
  intro all
  have wrong := all "set x \"a [ b\"" "set y \"]\"" (by decide +kernel) (by decide)
  exact absurd wrong (by decide +kernel)

end IRule
