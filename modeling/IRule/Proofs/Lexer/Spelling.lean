import IRule.Operator
import IRule.Proofs.Lexer.Braces
import IRule.Proofs.Text.Integer

/-!
# Tokens of known spelling

Which token a given spelling makes in front of a given rest of the input. A
word, a number or a plain reference ends where nothing can continue it; quoted
strings and braced references end where they say so themselves.
-/

namespace IRule

/-- Kind of the token of an operator. -/
def Operator.tokenKind : Operator → TokenKind
  | add => .word
  | subtract => .minus
  | multiply => .asterisk
  | divide => .slash
  | modulo => .percent
  | less => .less
  | greater => .greater
  | lessEqual => .lessEqual
  | greaterEqual => .greaterEqual
  | equal => .equal
  | notEqual => .notEqual
  | textEqual => .reserved .eq
  | textNotEqual => .reserved .ne
  | within => .reserved .inWord
  | both => .both
  | either => .either
  | contains => .reserved .contains
  | startsWith => .reserved .startsWith
  | endsWith => .reserved .endsWith
  | equals => .reserved .equals
  | matching => .reserved .matching
  | matchesGlob => .reserved .matchesGlob
  | matchesRegex => .reserved .matchesRegex

namespace Lexeme

/-- Nothing at the head of the text continues a word, a number or a name: a colon does with
another colon or a name behind it. -/
def Breaks (rest : List Char) : Prop :=
  ∀ char ∈ rest.head?, isWordChar char = false ∧
    (char = ':' → ∀ next ∈ rest.tail.head?, isNameChar next = false ∧ next ≠ ':')

/-- Nothing at the head of the text continues a word, a number, a reference or a sign. -/
def Severs (rest : List Char) : Prop :=
  ∀ char ∈ rest.head?, isWordChar char = false ∧ char ∉ [':', '=', '&', '|', '\x7b']

theorem Severs.breaks {rest : List Char} (severs : Severs rest) : Breaks rest := by
  intro char first
  obtain ⟨notWord, other⟩ := severs char first
  simp only [List.mem_cons, not_or] at other
  exact ⟨notWord, fun colon => absurd colon other.1⟩

/-- Nothing at the head of the text continues a run of digits. -/
def EndsDigits (rest : List Char) : Prop :=
  ∀ char ∈ rest.head?, char.isDigit = false ∧ char ≠ '.'

theorem Breaks.endsDigits {rest : List Char} (breaks : Breaks rest) : EndsDigits rest := by
  intro char first
  obtain ⟨notWord, -⟩ := breaks char first
  simp only [isWordChar, isNameChar, Char.isAlphanum, Bool.or_eq_false_iff, beq_eq_false_iff_ne]
    at notWord
  exact ⟨notWord.1.1.1.2, notWord.1.2⟩

/-- Blanks, line ends, comments and hidden line ends start with these. -/
def startsTrivia (char : Char) : Bool :=
  isSpace char || char == '\n' || char == '#' || char == '\\'

/-- The text `word` is a token of the given kind in front of `rest`. -/
structure Spells (braces brackets : Nat) (word rest : List Char) (kind : TokenKind) : Prop where
  scan : scan braces brackets (word ++ rest) = ⟨kind, word.length, none⟩
  tight : Trivia.scan false (word ++ rest) = .empty

/-- The literal of a token of the given kind and text. -/
def literalOf (kind : TokenKind) (word : List Char) : String :=
  String.ofList (if kind == .string then unquote word else word)

section Runs

variable {rest : List Char}

theorem Trivia.scan_tight {char : Char} (text : List Char) (tight : startsTrivia char = false) :
    Trivia.scan false (char :: text) = .empty := by
  simp only [startsTrivia, Bool.or_eq_false_iff, beq_eq_false_iff_ne] at tight
  obtain ⟨⟨⟨notSpace, notLine⟩, notComment⟩, notHidden⟩ := tight
  unfold Trivia.scan
  simp [notSpace, notLine, notComment, notHidden]

/-- Tokens with nothing noted between them have nothing between them. -/
theorem Trivia.scan_adjacent {text : List Char}
    (adjacent : (scan false text).spacing.isAdjacent) : scan false text = empty := by
  unfold Trivia.scan at adjacent ⊢
  split
  · rfl
  · repeat' split
    all_goals
      simp_all [afterNewline, afterComment, afterSpace, afterHiddenLine, Spacing.isAdjacent]

/-- The run that takes all of `gap`. -/
def Trivia.ofGap (gap : List Char) (spacing : Spacing) : Trivia :=
  ⟨gap.length, gap.count '\n', spacing⟩

@[simp]
theorem Trivia.ofGap_length (gap : List Char) (spacing : Spacing) :
    (Trivia.ofGap gap spacing).length = gap.length := rfl

@[simp]
theorem Trivia.ofGap_spacing (gap : List Char) (spacing : Spacing) :
    (Trivia.ofGap gap spacing).spacing = spacing := rfl

theorem Trivia.scan_space (text : List Char) :
    Trivia.scan false (' ' :: text) = (Trivia.scan false text).afterSpace := by
  conv_lhs => unfold Trivia.scan
  simp [isSpace]

theorem Trivia.scan_line (text : List Char) :
    Trivia.scan false ('\n' :: text) = (Trivia.scan false text).afterNewline := by
  conv_lhs => unfold Trivia.scan
  simp

/-- A word that is one token goes no further where nothing continues it. -/
theorem wordLength_append {word : List Char} (whole : wordLength word = word.length)
    (breaks : Breaks rest) : wordLength (word ++ rest) = word.length := by
  fun_induction wordLength word with
  | case1 next later joined ih =>
    simp only [List.length_cons, Nat.add_right_cancel_iff] at whole
    simp [wordLength, joined, ih whole]
  | case2 => simp at whole
  | case3 char later notColon isWord ih =>
    simp only [List.length_cons, Nat.add_right_cancel_iff] at whole
    rw [List.cons_append, wordLength.eq_2]
    · simp [isWord, ih whole]
    · rintro next text rfl
      simp [isWordChar, isNameChar] at isWord
  | case4 => simp at whole
  | case5 =>
    cases rest with
    | nil => rfl
    | cons char later =>
      obtain ⟨notWord, apart⟩ := breaks char rfl
      cases later with
      | nil => rw [List.nil_append, wordLength.eq_2] <;> simp [notWord]
      | cons next text =>
        by_cases colon : char = ':'
        · subst colon
          obtain ⟨notName, notColon⟩ := apart rfl next rfl
          simp [wordLength, notName, notColon]
        · rw [List.nil_append, wordLength.eq_2]
          · simp [notWord]
          · exact fun _ _ same => absurd same colon

/-- A name ends where nothing continues it. -/
theorem nameLength_append {name : List Char} (whole : nameLength name = name.length)
    (breaks : Breaks rest) : nameLength (name ++ rest) = name.length := by
  fun_induction nameLength name with
  | case1 later ih =>
    simp only [List.length_cons, Nat.add_right_cancel_iff] at whole
    simp [nameLength, ih whole]
  | case2 char later notColon isName ih =>
    simp only [List.length_cons, Nat.add_right_cancel_iff] at whole
    rw [List.cons_append, nameLength.eq_2]
    · simp [isName, ih whole]
    · rintro text rfl
      simp [isNameChar] at isName
  | case3 => simp at whole
  | case4 =>
    cases rest with
    | nil => rfl
    | cons char later =>
      obtain ⟨notWord, apart⟩ := breaks char rfl
      have notName : isNameChar char = false := by
        simp only [isWordChar, Bool.or_eq_false_iff] at notWord
        exact notWord.1.1
      rw [List.nil_append, nameLength.eq_2]
      · simp [notName]
      · rintro text rfl rfl
        exact (apart rfl ':' rfl).2 rfl

/-- A run of digits ends where nothing continues it. -/
theorem numeralLength_append {digits : List Char} (digit : ∀ char ∈ digits, char.isDigit)
    (ends : EndsDigits rest) : numeralLength (digits ++ rest) = digits.length := by
  induction digits with
  | nil =>
    cases rest with
    | nil => rfl
    | cons char later =>
      obtain ⟨notDigit, notDot⟩ := ends char rfl
      rw [List.nil_append, numeralLength.eq_2]
      · simp [notDigit]
      · rintro next text rfl
        exact absurd rfl notDot
  | cons char later ih =>
    have here : char.isDigit := digit char (List.mem_cons_self ..)
    rw [List.cons_append, numeralLength.eq_2]
    · simp [here, ih fun next inside => digit next (List.mem_cons_of_mem _ inside)]
    · rintro next text rfl
      simp at here

end Runs

/-! ## Words and literals -/

/-- A text that is one bare word. -/
def isBareWord : List Char → Bool
  | [] => false
  | char :: rest => isNameStart char && wordLength (char :: rest) == rest.length + 1

theorem wordLength_of_alphanum {word : List Char} (plain : ∀ char ∈ word, char.isAlphanum) :
    wordLength word = word.length := by
  induction word with
  | nil => rfl
  | cons char rest ih =>
    have here := plain char (List.mem_cons_self ..)
    have later := ih fun next inside => plain next (List.mem_cons_of_mem _ inside)
    rw [wordLength.eq_2]
    · simp [isWordChar, isNameChar, here, later]
    · rintro next text rfl
      simp at here

/-- Letters and digits that start with a letter are a bare word. -/
theorem isBareWord_of_alphanum {letter : Char} {rest : List Char}
    (plain : ∀ char ∈ letter :: rest, char.isAlphanum) (other : letter.isDigit = false) :
    isBareWord (letter :: rest) := by
  have here := plain letter (List.mem_cons_self ..)
  have alpha : letter.isAlpha := by simpa [Char.isAlphanum, other] using here
  simp [isBareWord, isNameStart, alpha, wordLength_of_alphanum plain]

/-- Kind of a bare word. -/
def wordKind (word : List Char) : TokenKind :=
  (TokenKind.ofText? (String.ofList word)).getD .word

/-- No digit starts a word. -/
theorem not_isDigit_of_isNameStart {char : Char} (start : isNameStart char) :
    char.isDigit = false := by
  by_contra digit
  unfold isNameStart Char.isAlpha Char.isUpper Char.isLower at start
  simp only [Char.isDigit, Bool.or_eq_true, Bool.and_eq_true, decide_eq_true_eq, beq_iff_eq,
    Bool.not_eq_false, UInt32.le_iff_toNat_le, ge_iff_le] at start digit
  rcases start with (⟨low, -⟩ | ⟨low, -⟩) | rfl
  · simp at low digit
    omega
  · simp at low digit
    omega
  · simp at digit

theorem startsNumeral_cons {char : Char} {rest : List Char} (notMinus : char ≠ '-') :
    startsNumeral (char :: rest) = char.isDigit := by
  unfold startsNumeral
  split
  · simp_all
  · simp_all
  · simp_all

/-- No dot stands among digits. -/
theorem numeral_of_digits {digits rest : List Char} (digit : ∀ char ∈ digits, char.isDigit)
    (nonempty : digits ≠ []) (ends : EndsDigits rest) :
    numeral (digits ++ rest) = ⟨.number, digits.length, none⟩ ∧
      numeral ('-' :: (digits ++ rest)) = ⟨.number, digits.length + 1, none⟩ := by
  have noDot : '.' ∉ digits := fun inside => by simpa using digit _ inside
  have unsigned : ((digits ++ rest).head? == some '-') = false := by
    obtain ⟨first, later, rfl⟩ := List.exists_cons_of_ne_nil nonempty
    have here := digit first (List.mem_cons_self ..)
    rw [beq_eq_false_iff_ne]
    rintro same
    simp_all
  have length := numeralLength_append digit ends
  constructor
  · unfold numeral
    rw [unsigned]
    simp [length, noDot]
  · simp [numeral, length, Nat.add_comm 1, noDot]

namespace Spells

variable {braces brackets : Nat} {rest : List Char}

/-- A name at the head of a text is a word as far as it goes. -/
theorem name {first : List Char} (start : first.head?.any isNameStart)
    (whole : wordLength (first ++ rest) = first.length) :
    Spells braces brackets first rest (wordKind first) := by
  cases first with
  | nil => simp at start
  | cons char word =>
    have start : isNameStart char := by simpa using start
    have other : ∀ wrong, isNameStart wrong = false → char ≠ wrong := by
      rintro wrong notStart rfl
      simp [start] at notStart
    have notNumeral : startsNumeral (char :: (word ++ rest)) = false := by
      rw [startsNumeral_cons (other '-' (by decide)), not_isDigit_of_isNameStart start]
    constructor
    · have length : wordLength (char :: (word ++ rest)) = word.length + 1 := whole
      simp [Lexeme.scan, other '\x7b' (by decide), other '\x7d' (by decide), other '[' (by decide),
        other ']' (by decide), other '$' (by decide), other '"' (by decide), notNumeral, start,
        Lexeme.bareWord, length, wordKind]
    · refine Trivia.scan_tight _ ?_
      simp [startsTrivia, isSpace, other ' ' (by decide), other '\t' (by decide),
        other '\r' (by decide), other '\x0c' (by decide), other '\n' (by decide),
        other '#' (by decide), other '\\' (by decide)]

/-- A bare word ends where nothing continues it. -/
theorem bareWord {word : List Char} (bare : isBareWord word) (breaks : Breaks rest) :
    Spells braces brackets word rest (wordKind word) := by
  cases word with
  | nil => simp [isBareWord] at bare
  | cons char text =>
    simp only [isBareWord, Bool.and_eq_true, beq_iff_eq] at bare
    exact name (by simpa using bare.1) (wordLength_append bare.2 breaks)

/-- The digits of a number end where nothing continues them. -/
theorem digits {digits : List Char} (digit : ∀ char ∈ digits, char.isDigit)
    (nonempty : digits ≠ []) (ends : EndsDigits rest) :
    Spells braces brackets digits rest .number ∧
      Spells braces brackets ('-' :: digits) rest .number := by
  obtain ⟨plain, signed⟩ := numeral_of_digits digit nonempty ends
  obtain ⟨first, later, rfl⟩ := List.exists_cons_of_ne_nil nonempty
  have here : first.isDigit := digit first (List.mem_cons_self ..)
  have other : ∀ wrong : Char, wrong.isDigit = false → first ≠ wrong := by
    rintro wrong notDigit rfl
    simp [here] at notDigit
  rw [List.cons_append] at plain signed
  refine ⟨⟨?_, ?_⟩, ⟨?_, ?_⟩⟩
  · simp [Lexeme.scan, other '\x7b' (by decide), other '\x7d' (by decide), other '[' (by decide),
      other ']' (by decide), other '$' (by decide), other '"' (by decide),
      startsNumeral_cons (other '-' (by decide)), here, plain]
  · refine Trivia.scan_tight _ ?_
    simp [startsTrivia, isSpace, other ' ' (by decide), other '\t' (by decide),
      other '\r' (by decide), other '\x0c' (by decide), other '\n' (by decide),
      other '#' (by decide), other '\\' (by decide)]
  · simp [Lexeme.scan, startsNumeral, here, signed]
  · exact Trivia.scan_tight _ rfl

/-- A number ends where nothing continues it. -/
theorem number (value : Int64) (breaks : Breaks rest) :
    Spells braces brackets (Text.int64Text value).toList rest .number := by
  rw [Text.int64Text, Text.toList_toString]
  split
  · exact (digits (fun _ => Text.isDigit_of_mem_toDigits) Nat.toDigits_ne_nil breaks.endsDigits).1
  · exact (digits (fun _ => Text.isDigit_of_mem_toDigits) Nat.toDigits_ne_nil breaks.endsDigits).2

/-- A plain reference ends where nothing continues its name. -/
theorem reference {name : List Char} (whole : nameLength name = name.length) (nonempty : name ≠ [])
    (breaks : Breaks rest) : Spells braces brackets ('$' :: name) rest .reference := by
  have length := nameLength_append whole breaks
  have unbraced : ∀ text, name ++ rest ≠ '\x7b' :: text := by
    rintro text same
    rw [same] at length
    cases name <;> simp_all [nameLength, isNameChar]
  constructor
  · have known : referenceLength (name ++ rest) = name.length := by
      rw [referenceLength.eq_2 _ unbraced, length]
    have positive := List.length_pos_iff.2 nonempty
    simp only [List.cons_append, Lexeme.scan, Lexeme.reference, known]
    cases size : name.length <;> simp_all
  · exact Trivia.scan_tight _ rfl

/-- A braced reference ends with its brace. -/
theorem bracedReference {name : List Char} (nonempty : name ≠ [])
    (plain : ∀ char ∈ name, char ≠ '\x7d' ∧ char ≠ '\n') :
    Spells braces brackets ('$' :: '\x7b' :: name ++ ['\x7d']) rest .reference := by
  constructor
  · have taken : (name ++ '\x7d' :: rest).takeWhile (fun char => char != '\x7d' && char != '\n') =
        name := by
      rw [List.takeWhile_append_of_pos]
      · simp
      · intro char inside
        simpa using plain char inside
    have known : referenceLength ('\x7b' :: (name ++ '\x7d' :: rest)) = name.length + 2 := by
      simp [referenceLength, taken, nonempty]
    simp [Lexeme.scan, Lexeme.reference, known]
  · exact Trivia.scan_tight _ rfl

/-! ### Symbols -/

theorem openBrace : Spells braces brackets ['\x7b'] rest .openBrace :=
  ⟨by simp [Lexeme.scan], Trivia.scan_tight _ rfl⟩

theorem closeBrace (opened : 0 < braces) : Spells braces brackets ['\x7d'] rest .closeBrace :=
  ⟨by simp [Lexeme.scan, closer, opened.ne'], Trivia.scan_tight _ rfl⟩

theorem openBracket : Spells braces brackets ['['] rest .openBracket :=
  ⟨by simp [Lexeme.scan], Trivia.scan_tight _ rfl⟩

theorem closeBracket (opened : 0 < brackets) :
    Spells braces brackets [']'] rest .closeBracket :=
  ⟨by simp [Lexeme.scan, closer, opened.ne'], Trivia.scan_tight _ rfl⟩

theorem openParen : Spells braces brackets ['('] rest .openParen :=
  ⟨by simp [Lexeme.scan, startsNumeral, isNameStart, symbol?, symbols], Trivia.scan_tight _ rfl⟩

theorem closeParen : Spells braces brackets [')'] rest .closeParen :=
  ⟨by simp [Lexeme.scan, startsNumeral, isNameStart, symbol?, symbols], Trivia.scan_tight _ rfl⟩

theorem comma : Spells braces brackets [','] rest .comma :=
  ⟨by simp [Lexeme.scan, startsNumeral, isNameStart, symbol?, symbols], Trivia.scan_tight _ rfl⟩

theorem semicolon : Spells braces brackets [';'] rest .semicolon :=
  ⟨by simp [Lexeme.scan, startsNumeral, isNameStart, symbol?, symbols], Trivia.scan_tight _ rfl⟩

theorem colon (single : rest.head? ≠ some ':') : Spells braces brackets [':'] rest .colon := by
  refine ⟨?_, Trivia.scan_tight _ rfl⟩
  cases rest with
  | nil => simp [Lexeme.scan, startsNumeral, isNameStart, symbol?, symbols]
  | cons next later =>
    have other : ':' ≠ next := by simpa [eq_comm] using single
    simp [Lexeme.scan, startsNumeral, isNameStart, symbol?, symbols, other]

theorem minus (unsigned : rest.head?.any Char.isDigit = false) :
    Spells braces brackets ['-'] rest .minus := by
  refine ⟨?_, Trivia.scan_tight _ rfl⟩
  cases rest with
  | nil => simp [Lexeme.scan, startsNumeral, isNameStart, symbol?, symbols]
  | cons next later =>
    have noDigit : next.isDigit = false := by simpa using unsigned
    simp [Lexeme.scan, startsNumeral, isNameStart, symbol?, symbols, noDigit]

/-- An operator in front of a blank. -/
theorem operator (operator : Operator) :
    Spells braces brackets operator.text.toList (' ' :: rest) operator.tokenKind := by
  have breaks : Breaks (' ' :: rest) := by simp [Breaks, isWordChar, isNameChar]
  cases operator with
  | textEqual | textNotEqual | within | contains | startsWith | endsWith | equals | matching
  | matchesGlob | matchesRegex => exact bareWord (by decide) breaks
  | _ =>
    refine ⟨?_, Trivia.scan_tight _ rfl⟩
    simp [Operator.text, Operator.tokenKind, Lexeme.scan, startsNumeral, isNameStart, symbol?,
      symbols, List.isPrefixOf]

end Spells

/-! ## Quoted strings -/

/-- Text that stays inside the quotes around it, whatever follows. -/
def Enclosed (text : List Char) : Prop :=
  ∀ rest, quotation 0 (text ++ rest) = (quotation 0 rest).extend text.length (text.count '\n')

/-- Whether the text, behind its first `skip` characters, stays inside the quotes around it:
no quote ends it, no backslash at its end hides the one behind it, and every bracket that is
opened in it is closed in it. -/
def isEnclosed (skip : Nat) : List Char → Bool
  | [] => skip == 0
  | char :: rest =>
    match skip with
    | more + 1 => isEnclosed more rest
    | 0 =>
      if char == '\\' then isEnclosed 1 rest
      else if char == '[' then
        (substitution? [.bracket] rest).any fun inner => isEnclosed inner.length rest
      else char != '"' && isEnclosed 0 rest

/-- Text of a string in which nothing is embedded. -/
def isPlainText : List Char → Bool
  | [] => true
  | '\\' :: _ :: rest => isPlainText rest
  | char :: rest =>
    char != '\\' && char != '"' && char != '[' && char != '$' && isPlainText rest

/-- A closed substitution is closed whatever follows. -/
theorem substitution?_append {pending : List Pending} {text : List Char} {passage : Passage}
    (closes : substitution? pending text = some passage) (rest : List Char) :
    substitution? pending (text ++ rest) = some passage := by
  fun_induction substitution? pending text generalizing passage with
  | case1 | case2 | case4 => simp at closes
  | case9 => simp_all [substitution?]
  | case3 | case5 | case6 | case7 | case8 | case10 | case11 =>
    rename_i ih
    obtain ⟨inner, known, rfl⟩ := Option.map_eq_some_iff.1 closes
    simp_all [substitution?]

/-- Every line feed of a substitution is counted, and none twice. -/
theorem substitution?_lines {pending : List Pending} {text : List Char} {passage : Passage}
    (closes : substitution? pending text = some passage) :
    passage.lines = (text.take passage.length).count '\n' := by
  fun_induction substitution? pending text generalizing passage with
  | case1 | case2 | case4 => simp at closes
  | case9 =>
    obtain rfl : ⟨1, 0⟩ = passage := by simp_all
    simp_all
  | case3 | case5 | case6 | case7 | case8 | case10 | case11 =>
    rename_i ih
    obtain ⟨inner, known, rfl⟩ := Option.map_eq_some_iff.1 closes
    simp_all [lineFeed, List.count_cons]

/-- Characters known to belong to the body are passed over without counting them again. -/
theorem quotation_skip (word rest : List Char) :
    quotation word.length (word ++ rest) = (quotation 0 rest).extend word.length 0 := by
  induction word with
  | nil => rfl
  | cons char later ih =>
    simp only [List.length_cons, List.cons_append, quotation, ih]
    rfl

namespace Enclosed

theorem nil : Enclosed [] := by
  intro rest
  rfl

theorem append {first second : List Char} (left : Enclosed first) (right : Enclosed second) :
    Enclosed (first ++ second) := by
  intro rest
  rw [List.append_assoc, left, right, List.length_append, List.count_append]
  simp only [Quotation.extend, Quotation.mk.injEq, and_true]
  omega

theorem char {char : Char} (notQuote : char ≠ '"') (notHiding : char ≠ '\\')
    (notOpening : char ≠ '[') : Enclosed [char] := by
  intro rest
  simp [quotation, notQuote, notHiding, notOpening, lineFeed, List.count_cons]

theorem hidden (char : Char) : Enclosed ['\\', char] := by
  intro rest
  simp [quotation, Quotation.extend, lineFeed, List.count_cons]

/-- A substitution that is closed takes its brackets along. -/
theorem substitution {text : List Char} {passage : Passage}
    (closes : substitution? [.bracket] text = some passage) (within : passage.length ≤ text.length)
    (behind : Enclosed (text.drop passage.length)) : Enclosed ('[' :: text) := by
  intro rest
  have counted := substitution?_lines closes
  have closed := substitution?_append closes rest
  have skipped := quotation_skip (text.take passage.length) (text.drop passage.length ++ rest)
  rw [← List.append_assoc, List.take_append_drop, List.length_take_of_le within, behind] at skipped
  have lines : (text.take passage.length).count '\n' + (text.drop passage.length).count '\n' =
      text.count '\n' := by
    rw [← List.count_append, List.take_append_drop]
  rw [List.cons_append, quotation]
  simp only [closed, skipped, Quotation.extend, counted, List.length_drop]
  simp
  omega

theorem of_isEnclosed {skip : Nat} {text : List Char} (enclosed : isEnclosed skip text) :
    skip ≤ text.length ∧ Enclosed (text.drop skip) := by
  fun_induction isEnclosed skip text with
  | case1 skip =>
    obtain rfl : skip = 0 := by simpa using enclosed
    exact ⟨le_rfl, nil⟩
  | case2 char rest more ih => simpa using ih enclosed
  | case3 char rest hides ih =>
    obtain ⟨within, behind⟩ := ih enclosed
    obtain rfl : char = '\\' := by simpa using hides
    cases rest with
    | nil => simp at within
    | cons next later => exact ⟨Nat.zero_le _, (hidden next).append behind⟩
  | case4 char rest _ opens ih =>
    obtain ⟨passage, closes, enclosed⟩ := Option.any_eq_true _ _ |>.1 enclosed
    obtain ⟨within, behind⟩ := ih passage enclosed
    obtain rfl : char = '[' := by simpa using opens
    exact ⟨Nat.zero_le _, substitution closes within behind⟩
  | case5 letter rest notHiding notOpening ih =>
    simp only [Bool.and_eq_true, bne_iff_ne] at enclosed
    have behind : Enclosed rest := by simpa using (ih enclosed.2).2
    exact ⟨Nat.zero_le _,
      (char enclosed.1 (by simpa using notHiding) (by simpa using notOpening)).append behind⟩

theorem of_isPlainText {text : List Char} (plain : isPlainText text) : Enclosed text := by
  fun_induction isPlainText text with
  | case1 => exact nil
  | case2 char rest ih => exact (hidden char).append (ih plain)
  | case3 letter rest _ ih =>
    simp only [Bool.and_eq_true, bne_iff_ne] at plain
    obtain ⟨⟨⟨⟨notHiding, notQuote⟩, notOpening⟩, -⟩, later⟩ := plain
    exact (char notQuote notHiding notOpening).append (ih later)

end Enclosed

/-- A quoted string ends with its quote. -/
theorem Spells.string {braces brackets : Nat} {body rest : List Char} (enclosed : Enclosed body) :
    Spells braces brackets ('"' :: body ++ ['"']) rest .string := by
  constructor
  · have quoted := enclosed ('"' :: rest)
    simp [quotation] at quoted
    simp [Lexeme.scan, quotedString, quoted]
    omega
  · exact Trivia.scan_tight _ rfl

/-! ## First characters -/

/-- Characters that start a number, a string, a reference or a bracket. -/
def startsLiteral (char : Char) : Bool :=
  char.isDigit || ['-', '"', '$', '['].contains char

/-- Characters that start a word or a literal. -/
def startsPiece (char : Char) : Bool :=
  isNameStart char || startsLiteral char

/-- The text starts with a piece of a word. -/
def Starts (text : List Char) : Prop :=
  ∃ char rest, text = char :: rest ∧ startsPiece char

/-- Kinds of tokens that stand around words. -/
def boundaries : List TokenKind :=
  [.closeBrace, .closeBracket, .closeParen, .semicolon, .comma, .endOfInput, .openBrace, .openParen]

theorem startsTrivia_of_startsPiece {char : Char} (starts : startsPiece char) :
    startsTrivia char = false := by
  by_contra trivia
  simp only [startsTrivia, isSpace, Bool.not_eq_false, Bool.or_eq_true, beq_iff_eq] at trivia
  rcases trivia with (((((rfl | rfl) | rfl) | rfl) | rfl) | rfl) | rfl <;>
    simp [startsPiece, startsLiteral, isNameStart] at starts

/-- Separators and parentheses start no piece of a word. -/
theorem symbols_startsPiece : ∀ entry ∈ symbols,
    entry.2 ∈ boundaries → entry.1.head?.any startsPiece = false := by
  simp [symbols, boundaries, startsPiece, startsLiteral, isNameStart]

/-- What starts a piece of a word ends nothing. -/
theorem scan_kind_of_startsPiece {braces brackets : Nat} {char : Char} {rest : List Char}
    (starts : startsPiece char) :
    (scan braces brackets (char :: rest)).kind ∉ boundaries := by
  have other : ∀ wrong, startsPiece wrong = false → char ≠ wrong := by
    rintro wrong notStart rfl
    simp [starts] at notStart
  refine scan_cases braces brackets char rest ?_ ?_ ?_ ?_ ?_ ?_ ?_ ?_ ?_ ?_ ?_
  · exact fun wrong => absurd wrong (other _ (by decide))
  · exact fun wrong => absurd wrong (other _ (by decide))
  · exact fun _ => by simp [boundaries]
  · exact fun wrong => absurd wrong (other _ (by decide))
  · intro _
    rcases reference_kind rest with kind | kind <;> simp [kind, boundaries]
  · intro _
    unfold quotedString illegal
    split <;> simp [boundaries]
  · intro _
    rcases numeral_kind (char :: rest) with kind | kind | kind <;> simp [kind, boundaries]
  · intro _ listed
    have isWord := bareWord_isWord (char :: rest)
    simp only [boundaries, List.mem_cons, List.not_mem_nil, or_false] at listed
    rcases listed with kind | kind | kind | kind | kind | kind | kind | kind <;>
      simp [kind, TokenKind.isWord] at isWord
  · exact fun wrong => absurd wrong (other _ (by decide))
  · intro spelling kind known found listed
    obtain ⟨text, same⟩ := found
    have none := symbols_startsPiece _ known listed
    cases spelling with
    | nil => exact absurd (symbols_kind _ known).2 (by simp)
    | cons first later =>
      obtain ⟨rfl, -⟩ := List.cons.inj same
      simp [starts] at none
  · exact fun _ _ => by simp [illegal, boundaries]

/-- Characters that start an operand. -/
def startsOperand (char : Char) : Bool :=
  startsPiece char || ['(', '!', '*', '\x7b'].contains char

/-- Kinds of tokens that no operand starts with. -/
def closers : List TokenKind :=
  [.closeBrace, .closeBracket, .closeParen, .semicolon, .comma, .endOfInput]

theorem startsTrivia_of_startsOperand {char : Char} (starts : startsOperand char) :
    startsTrivia char = false := by
  simp only [startsOperand, Bool.or_eq_true, List.contains_iff_mem, List.mem_cons,
    List.not_mem_nil, or_false] at starts
  rcases starts with piece | rfl | rfl | rfl | rfl
  · exact startsTrivia_of_startsPiece piece
  all_goals decide

/-- What starts an operand ends nothing. -/
theorem scan_kind_of_startsOperand {braces brackets : Nat} {char : Char} {rest : List Char}
    (starts : startsOperand char) : (scan braces brackets (char :: rest)).kind ∉ closers := by
  simp only [startsOperand, Bool.or_eq_true, List.contains_iff_mem, List.mem_cons,
    List.not_mem_nil, or_false] at starts
  rcases starts with piece | rfl | rfl | rfl | rfl
  · have inner : (scan braces brackets (char :: rest)).kind ∉ boundaries :=
      scan_kind_of_startsPiece piece
    simp only [boundaries, closers, List.mem_cons, List.not_mem_nil, or_false, not_or] at inner ⊢
    tauto
  · simp [scan, startsNumeral, isNameStart, symbol?, symbols, closers]
  · simp only [scan, startsNumeral, isNameStart, symbol?, symbols, closers]
    cases rest with
    | nil => simp [List.isPrefixOf]
    | cons next later =>
      rcases eq_or_ne next '=' with rfl | other
      · simp [List.isPrefixOf]
      · simp [List.isPrefixOf, other.symm]
  · simp [scan, startsNumeral, isNameStart, symbol?, symbols, closers]
  · simp [scan, closers]

/-- What starts a word continues one. -/
theorem isWordChar_of_isNameStart {char : Char} (start : isNameStart char) : isWordChar char := by
  simp only [isNameStart, isWordChar, isNameChar, Char.isAlphanum, Bool.or_eq_true] at start ⊢
  tauto

theorem startsOperand_of_starts {text : List Char} (starts : Starts text) :
    text.head?.any startsOperand := by
  obtain ⟨char, later, rfl, piece⟩ := starts
  simp [startsOperand, piece]

end Lexeme

end IRule
