import IRule.Proofs.Lexer.Locality
import Mathlib.Data.List.Find

/-!
# Texts that are cut into tokens

A text of words, numbers and signs is cut into the same tokens wherever it stands, as long
as nothing behind it goes on with its last token.
-/

namespace IRule

namespace Lexeme

/-- The token at the head of the text stands in a word as it is written: nothing is embedded
by it, and a backslash hides no line end. -/
def startsToken : List Char → Bool
  | [] => false
  | '\\' :: rest => rest.head?.any fun hidden => hidden != '\n' && hidden != '\r'
  | '$' :: rest =>
    rest.head?.all fun next => !isNameChar next && next != ':' && next != '\x7b'
  | char :: _ =>
    !startsTrivia char &&
      !(['\x7b', '\x7d', '[', ']', '"', ';'] : List Char).contains char

variable {char : Char} {text rest : List Char}

/-! ## Lengths -/

/-- A word does not go on where nothing continues it. -/
theorem wordLength_severed (severs : Severs rest) :
    wordLength (text ++ rest) = wordLength text := by
  fun_induction wordLength text with
  | case1 next later joined ih => simp [wordLength, joined, ih]
  | case2 next later apart => simp [wordLength, apart]
  | case3 char later notColon isWord ih =>
    rw [List.cons_append, wordLength.eq_2]
    · simp [isWord, ih]
    · rintro next text rfl
      simp [isWordChar, isNameChar] at isWord
  | case4 char later notColon notWord =>
    by_cases colon : char = ':'
    · subst colon
      cases later with
      | cons next text => exact absurd rfl (notColon next text rfl)
      | nil =>
        -- A colon at the end of the text would need a name behind it.
        cases rest with
        | nil => simp [wordLength, notWord]
        | cons next text =>
          obtain ⟨notWord, other⟩ := severs next rfl
          simp only [List.mem_cons, not_or] at other
          simp only [isWordChar, Bool.or_eq_false_iff] at notWord
          simp [wordLength, notWord.1.1, other.1]
    · rw [List.cons_append, wordLength.eq_2]
      · simp [notWord]
      · exact fun _ _ same => absurd same colon
  | case5 => exact wordLength_append rfl severs.breaks

/-- A numeral does not go on where nothing continues it. -/
theorem numeralLength_severed (ends : EndsDigits rest) :
    numeralLength (text ++ rest) = numeralLength text := by
  fun_induction numeralLength text with
  | case1 next later digit ih => simp [numeralLength, digit, ih]
  | case2 next later notDigit => simp [numeralLength, notDigit]
  | case3 char later notDot digit ih =>
    rw [List.cons_append, numeralLength.eq_2]
    · simp [digit, ih]
    · rintro next text rfl
      simp at digit
  | case4 char later notDot notDigit =>
    by_cases dot : char = '.'
    · subst dot
      cases later with
      | cons next text => exact absurd rfl (notDot next text rfl)
      | nil =>
        -- A dot at the end of the text would need a digit behind it.
        cases rest with
        | nil => simp [numeralLength, notDigit]
        | cons next text =>
          have notNext := (ends next rfl).1
          simp [numeralLength, notNext]
    · rw [List.cons_append, numeralLength.eq_2]
      · simp [notDigit]
      · exact fun _ _ same => absurd same dot
  | case5 =>
    cases rest with
    | nil => rfl
    | cons char later =>
      obtain ⟨notDigit, notDot⟩ := ends char rfl
      rw [List.nil_append, numeralLength.eq_2]
      · simp [notDigit]
      · rintro next text rfl
        exact absurd rfl notDot

/-! ## Lexemes -/

theorem numeral_append (ends : EndsDigits rest) :
    numeral (char :: (text ++ rest)) = numeral (char :: text) := by
  have unsigned : numeralLength (char :: text ++ rest) = numeralLength (char :: text) :=
    numeralLength_severed ends
  rw [List.cons_append] at unsigned
  have signed : numeralLength (text ++ rest) = numeralLength text := numeralLength_severed ends
  by_cases minus : char = '-'
  · have taken : (text ++ rest).take (numeralLength text) = text.take (numeralLength text) :=
      List.take_append_of_le_length (numeralLength_le_length text)
    simp [numeral, minus, signed, Nat.add_comm 1, taken]
  · have taken : (char :: text ++ rest).take (numeralLength (char :: text)) =
        (char :: text).take (numeralLength (char :: text)) :=
      List.take_append_of_le_length (numeralLength_le_length (char :: text))
    rw [List.cons_append] at taken
    simp [numeral, minus, unsigned, taken]

theorem bareWord_severed (severs : Severs rest) :
    bareWord (text ++ rest) = bareWord text := by
  have length : wordLength (text ++ rest) = wordLength text := wordLength_severed severs
  have taken : (text ++ rest).take (wordLength text) = text.take (wordLength text) :=
    List.take_append_of_le_length (wordLength_le_length text)
  simp only [bareWord, length, taken]

theorem startsNumeral_severed (severs : Severs rest) :
    startsNumeral (char :: (text ++ rest)) = startsNumeral (char :: text) := by
  by_cases minus : char = '-'
  · subst minus
    cases text with
    | cons next later => rfl
    | nil =>
      cases rest with
      | nil => rfl
      | cons next later =>
        have notDigit := (severs.breaks.endsDigits next rfl).1
        simpa [startsNumeral] using notDigit
  · rw [startsNumeral_cons minus, startsNumeral_cons minus]

/-- No sign of two characters is made up of the last one of a text and the next one. -/
theorem symbol?_severed (severs : Severs rest) :
    symbol? (char :: (text ++ rest)) = symbol? (char :: text) := by
  cases text with
  | cons next later => rfl
  | nil =>
    cases rest with
    | nil => rfl
    | cons next later =>
      have other := (severs next rfl).2
      simp only [List.mem_cons, List.not_mem_nil, or_false, not_or] at other
      have alike : ∀ entry ∈ symbols,
          entry.1.isPrefixOf (char :: next :: later) = entry.1.isPrefixOf [char] := by
        simp [symbols, List.isPrefixOf, Ne.symm other.1, Ne.symm other.2.1, Ne.symm other.2.2.1,
          Ne.symm other.2.2.2.1]
      exact List.find?_congr alike

/-- A `$` that no name follows stands alone. -/
theorem reference_severed (alone : text.head?.all fun next =>
    !isNameChar next && next != ':' && next != '\x7b') (severs : Severs rest) :
    reference (text ++ rest) = ⟨.dollar, 1, none⟩ := by
  have apart : ∀ next ∈ (text ++ rest).head?,
      isNameChar next = false ∧ next ≠ ':' ∧ next ≠ '\x7b' := by
    intro next first
    cases text with
    | cons char later =>
      obtain rfl : char = next := by simpa using first
      simpa [and_assoc] using alone
    | nil =>
      obtain ⟨notWord, other⟩ := severs next first
      simp only [isWordChar, Bool.or_eq_false_iff] at notWord
      simp only [List.mem_cons, not_or] at other
      exact ⟨notWord.1.1, other.1, other.2.2.2.2.1⟩
  cases whole : text ++ rest with
  | nil => rfl
  | cons next later =>
    obtain ⟨notName, notColon, notBrace⟩ := apart next (by simp [whole])
    have unbraced : ∀ behind, next :: later ≠ '\x7b' :: behind := by simp [notBrace]
    have unjoined : ∀ behind, next = ':' → later = ':' :: behind → False :=
      fun _ same => absurd same notColon
    simp [reference, referenceLength.eq_2 _ unbraced, nameLength.eq_2 _ _ unjoined, notName]

theorem reference_unnamed (alone : text.head?.all fun next =>
    !isNameChar next && next != ':' && next != '\x7b') : reference text = ⟨.dollar, 1, none⟩ := by
  have behindNothing : reference (text ++ []) = ⟨.dollar, 1, none⟩ :=
    reference_severed alone (by simp [Severs])
  rwa [List.append_nil] at behindNothing

/-- The token at the head of a text is the same whatever stands behind the text, and whatever
is open in front of it. -/
theorem scan_severed {braces brackets : Nat} (starts : startsToken (char :: text))
    (severs : Severs rest) :
    scan braces brackets (char :: (text ++ rest)) = scan 0 0 (char :: text) := by
  have word : bareWord (char :: text ++ rest) = bareWord (char :: text) := bareWord_severed severs
  rw [List.cons_append] at word
  unfold startsToken at starts
  split at starts
  · simp at starts
  · rename_i hidden same
    obtain ⟨rfl, rfl⟩ := List.cons.inj same
    cases text <;> simp_all [scan, startsNumeral, isNameStart]
  · rename_i later same
    obtain ⟨rfl, rfl⟩ := List.cons.inj same
    simp [scan, reference_severed starts severs, reference_unnamed starts]
  · rename_i notHiding notDollar same
    obtain ⟨rfl, rfl⟩ := List.cons.inj same
    simp only [Bool.and_eq_true, Bool.not_eq_true', List.contains_eq_mem, List.mem_cons,
      List.not_mem_nil, or_false, decide_eq_false_iff_not, not_or] at starts
    have notHiding : char ≠ '\\' := notHiding
    have notDollar : char ≠ '$' := notDollar
    simp [scan, starts.2, notHiding, notDollar, startsNumeral_severed severs,
      numeral_append severs.breaks.endsDigits, word, symbol?_severed severs]

theorem scan_of_startsToken {braces brackets : Nat} (starts : startsToken text) :
    scan braces brackets text = scan 0 0 text := by
  cases text with
  | nil => simp [startsToken] at starts
  | cons char text =>
    have alone : scan braces brackets (char :: (text ++ [])) = scan 0 0 (char :: text) :=
      scan_severed starts (by simp [Severs])
    rwa [List.append_nil] at alone

/-! ## Runs of tokens -/

/-- Kinds of tokens that embed, or that end what stands in front of them. -/
def delimiters : List TokenKind :=
  [.openBrace, .closeBrace, .openBracket, .closeBracket, .string, .reference, .semicolon,
    .endOfInput]

/-- Whether the text, behind its first `skip` characters, is cut into tokens that stand in a
word as they are written. -/
def isLiteralRun (skip : Nat) : List Char → Bool
  | [] => true
  | char :: rest =>
    match skip with
    | more + 1 => isLiteralRun more rest
    | 0 =>
      let lexeme := scan 0 0 (char :: rest)
      startsToken (char :: rest) && lexeme.kind != .illegal &&
        isLiteralRun (lexeme.length - 1) rest

/-- Tokens that are numbers, as they are written, behind the first `skip` characters. -/
def numbers (skip : Nat) : List Char → List (List Char)
  | [] => []
  | char :: rest =>
    match skip with
    | more + 1 => numbers more rest
    | 0 =>
      let lexeme := scan 0 0 (char :: rest)
      let later := numbers (lexeme.length - 1) rest
      if lexeme.kind == .number then (char :: rest).take lexeme.length :: later else later

theorem numbers_append (word rest : List Char) :
    numbers word.length (word ++ rest) = numbers 0 rest := by
  induction word with
  | nil => rfl
  | cons char later ih => simpa [numbers] using ih

theorem isLiteralRun_append (word rest : List Char) :
    isLiteralRun word.length (word ++ rest) = isLiteralRun 0 rest := by
  induction word with
  | nil => rfl
  | cons char later ih => simpa [isLiteralRun] using ih

theorem scan_kind_of_startsToken {braces brackets : Nat} (starts : startsToken (char :: text)) :
    (scan braces brackets (char :: text)).kind ∉ delimiters := by
  have other : char ∉ ['\x7b', '\x7d', '[', ']', '"', ';'] := by
    unfold startsToken at starts
    split at starts <;> simp_all
  simp only [List.mem_cons, List.not_mem_nil, or_false, not_or] at other
  refine scan_cases braces brackets char text ?_ ?_ ?_ ?_ ?_ ?_ ?_ ?_ ?_ ?_ ?_
  · exact fun wrong => absurd wrong other.1
  · exact fun wrong => absurd wrong other.2.1
  · exact fun wrong => absurd wrong other.2.2.1
  · exact fun wrong => absurd wrong other.2.2.2.1
  · rintro rfl
    simp [reference_unnamed starts, delimiters]
  · exact fun wrong => absurd wrong other.2.2.2.2.1
  · intro _
    rcases numeral_kind (char :: text) with kind | kind | kind <;> simp [kind, delimiters]
  · intro _ listed
    have isWord := bareWord_isWord (char :: text)
    simp only [delimiters, List.mem_cons, List.not_mem_nil, or_false] at listed
    rcases listed with kind | kind | kind | kind | kind | kind | kind | kind <;>
      simp [kind, TokenKind.isWord] at isWord
  · exact fun _ => by simp [delimiters]
  · intro spelling kind known found listed
    have marked : ∀ entry ∈ symbols, entry.2 ∈ delimiters →
        entry.1.head? = some ';' := by
      simp [symbols, delimiters]
    have first := marked _ known listed
    obtain ⟨behind, same⟩ := found
    cases spelling with
    | nil => simp at first
    | cons head later =>
      obtain ⟨rfl, -⟩ := List.cons.inj same
      simp_all
  · exact fun _ _ => by simp [illegal, delimiters]

theorem trivia_of_startsToken (starts : startsToken (char :: text)) :
    Trivia.scan false (char :: (text ++ rest)) = .empty := by
  unfold startsToken at starts
  split at starts
  · simp at starts
  · rename_i hidden same
    obtain ⟨rfl, rfl⟩ := List.cons.inj same
    cases text with
    | nil => simp at starts
    | cons next later =>
      simp only [List.head?_cons, Option.any_some, Bool.and_eq_true, bne_iff_ne] at starts
      unfold Trivia.scan
      split <;> simp_all [isSpace]
  · rename_i later same
    obtain ⟨rfl, rfl⟩ := List.cons.inj same
    exact Trivia.scan_tight _ rfl
  · rename_i same
    obtain ⟨rfl, rfl⟩ := List.cons.inj same
    simp only [Bool.and_eq_true, Bool.not_eq_true'] at starts
    exact Trivia.scan_tight _ starts.1

theorem trivia_of_isLiteralRun (nonempty : text ≠ []) (run : isLiteralRun 0 text) :
    Trivia.scan false (text ++ rest) = .empty := by
  obtain ⟨char, behind, rfl⟩ := List.exists_cons_of_ne_nil nonempty
  simp only [isLiteralRun, Bool.and_eq_true] at run
  exact trivia_of_startsToken run.1.1

/-- A text that is an address. -/
def isAddress (text : List Char) : Bool :=
  text.head?.any Char.isDigit && scan 0 0 text == ⟨.address, text.length, none⟩

theorem scan_of_isDigit {braces brackets : Nat} (digit : char.isDigit) :
    scan braces brackets (char :: text) = numeral (char :: text) ∧ startsTrivia char = false := by
  have other : ∀ wrong : Char, wrong.isDigit = false → char ≠ wrong := by
    rintro wrong notDigit rfl
    simp [digit] at notDigit
  refine ⟨?_, startsTrivia_of_startsPiece (by simp [startsPiece, startsLiteral, digit])⟩
  simp [scan, other '\x7b' (by decide), other '\x7d' (by decide), other '[' (by decide),
    other ']' (by decide), other '$' (by decide), other '"' (by decide),
    startsNumeral_cons (other '-' (by decide)), digit]

/-- An address ends where nothing continues it. -/
theorem Spells.address {braces brackets : Nat} (dotted : isAddress text) (ends : EndsDigits rest) :
    Spells braces brackets text rest .address := by
  simp only [isAddress, Bool.and_eq_true, beq_iff_eq] at dotted
  obtain ⟨digit, scanned⟩ := dotted
  cases text with
  | nil => simp at digit
  | cons char text =>
    have digit : char.isDigit := by simpa using digit
    obtain ⟨numeral, tight⟩ : Lexeme.scan 0 0 (char :: text) = numeral (char :: text) ∧
        startsTrivia char = false := scan_of_isDigit digit
    refine ⟨?_, Trivia.scan_tight _ tight⟩
    rw [List.cons_append, (scan_of_isDigit digit).1, numeral_append ends, ← numeral, scanned]

/-- The token at the head of a run, which is the same whatever stands behind the run, and
the numbers behind it. -/
theorem exists_literal (nonempty : text ≠ []) (run : isLiteralRun 0 text) :
    ∃ first later kind, text = first ++ later ∧ first.length = (scan 0 0 text).length ∧
      kind = (scan 0 0 text).kind ∧ first ≠ [] ∧ isLiteralRun 0 later ∧
      numbers 0 text = (if kind = .number then [first] else []) ++ numbers 0 later ∧
      kind ≠ .illegal ∧ kind ∉ delimiters ∧
      ∀ {braces brackets : Nat} {rest : List Char}, Severs rest →
        Spells braces brackets first (later ++ rest) kind := by
  obtain ⟨char, text, rfl⟩ := List.exists_cons_of_ne_nil nonempty
  simp only [isLiteralRun, Bool.and_eq_true, bne_iff_ne] at run
  obtain ⟨⟨starts, legal⟩, run⟩ := run
  have fits := scan_fits 0 0 char text
  have within := scan_length_le (char :: text) 0 0
  obtain ⟨more, length⟩ := Nat.exists_eq_add_of_lt fits.length_pos
  have lexeme : scan 0 0 (char :: text) = ⟨(scan 0 0 (char :: text)).kind, more + 1, none⟩ := by
    rw [Lexeme.mk.injEq]
    exact ⟨rfl, by omega, fits.faultless legal⟩
  have short : more ≤ text.length := by
    rw [lexeme] at within
    simpa using within
  have cut : text.take more ++ text.drop more = text := List.take_append_drop ..
  have size : (text.take more).length = more := by simp [short]
  rw [lexeme] at run
  refine ⟨char :: text.take more, text.drop more, _, by simp, by rw [lexeme]; simp [short], rfl,
    by simp, ?_, ?_, legal, scan_kind_of_startsToken starts,
    fun {braces brackets rest} severs => ⟨?_, ?_⟩⟩
  · have skipped := isLiteralRun_append (text.take more) (text.drop more)
    rw [cut, size] at skipped
    exact skipped.symm.trans run
  · have skipped := numbers_append (text.take more) (text.drop more)
    rw [cut, size] at skipped
    rw [numbers, lexeme]
    simp only [Nat.add_sub_cancel, skipped, List.take_succ_cons, beq_iff_eq]
    split <;> rfl
  · rw [List.cons_append, ← List.append_assoc, cut, scan_severed starts severs]
    simpa [short] using lexeme
  · rw [List.cons_append, ← List.append_assoc, cut]
    exact trivia_of_startsToken starts

end Lexeme

end IRule
