import IRule.Lexer.Basic
import Mathlib.Tactic

/-!
# What a lexeme is

`scan_cases` says once how the head of the input decides the lexeme; every
other fact about lexemes is read off it. A lexeme of a non-empty input takes at
least one character and is never the end of the input, a closing brace needs an
open one, and a string takes both of its quotes.
-/

namespace IRule

/-- Words with a kind of their own are words. -/
theorem TokenKind.ofText?_isWord {text : String} {kind : TokenKind}
    (found : TokenKind.ofText? text = some kind) : kind.isWord := by
  unfold TokenKind.ofText? TokenKind.ofPlainWord? at found
  repeat' split at found
  all_goals simp_all
  · subst found; rfl
  · obtain ⟨known, -, rfl⟩ := found; rfl
  · obtain ⟨-, rfl⟩ := found; rfl

namespace Lexeme

/-- The lexeme of a non-empty input is decided by its first character. -/
@[elab_as_elim]
theorem scan_cases {motive : Lexeme → Prop} (braceDepth bracketDepth : Nat) (char : Char)
    (rest : List Char)
    (openBrace : char = '\x7b' → motive ⟨.openBrace, 1, none⟩)
    (closeBrace : char = '\x7d' → motive (closer .closeBrace char braceDepth))
    (openBracket : char = '[' → motive ⟨.openBracket, 1, none⟩)
    (closeBracket : char = ']' → motive (closer .closeBracket char bracketDepth))
    (reference : char = '$' → motive (reference rest))
    (quoted : char = '"' → motive (quotedString rest))
    (numeral : startsNumeral (char :: rest) → motive (numeral (char :: rest)))
    (bareWord : isNameStart char → motive (bareWord (char :: rest)))
    (hidden : char = '\\' → motive ⟨.word, 1 + min 1 rest.length, none⟩)
    (symbol : ∀ spelling kind, (spelling, kind) ∈ symbols → spelling <+: char :: rest →
      motive ⟨kind, spelling.length, none⟩)
    (illegal : char ≠ '\x7b' → char ≠ '\x7d' → motive (illegal (.illegalCharacter char) 1)) :
    motive (scan braceDepth bracketDepth (char :: rest)) := by
  rw [scan]
  split
  · exact openBrace (eq_of_beq ‹_›)
  split
  · exact closeBrace (eq_of_beq ‹_›)
  split
  · exact openBracket (eq_of_beq ‹_›)
  split
  · exact closeBracket (eq_of_beq ‹_›)
  split
  · exact reference (eq_of_beq ‹_›)
  split
  · exact quoted (eq_of_beq ‹_›)
  split
  · exact numeral ‹_›
  split
  · exact bareWord ‹_›
  split
  · exact hidden (eq_of_beq ‹_›)
  split
  · rename_i spelling kind found
    exact symbol spelling kind (List.mem_of_find?_eq_some found)
      (by simpa using List.find?_some found)
  · exact illegal (by simp_all) (by simp_all)

/-! ## Kinds -/

/-- A bare word has the kind of a word. -/
theorem bareWord_isWord (text : List Char) : (bareWord text).kind.isWord := by
  simp only [bareWord]
  cases found : TokenKind.ofText? (String.ofList (text.take (wordLength text))) with
  | none => rfl
  | some kind => exact TokenKind.ofText?_isWord found

/-- Digits make a number, an address or a fault. -/
theorem numeral_kind (text : List Char) :
    (numeral text).kind = .number ∨ (numeral text).kind = .address ∨
      (numeral text).kind = .illegal := by
  unfold numeral illegal
  grind

/-- A `$` makes a reference or stands alone. -/
theorem reference_kind (afterDollar : List Char) :
    (reference afterDollar).kind = .dollar ∨ (reference afterDollar).kind = .reference := by
  unfold reference
  split <;> simp

/-- Symbols are operators and separators: none of them is a closing brace, a
literal or the end of the input. -/
theorem symbols_kind : ∀ entry ∈ symbols,
    entry.2 ∉ [.closeBrace, .string, .number, .endOfInput] ∧ 0 < entry.1.length := by
  decide

/-! ## Lengths -/

/-- A name takes at least its first character. -/
theorem wordLength_pos {char : Char} (rest : List Char) (start : isNameStart char) :
    0 < wordLength (char :: rest) := by
  have notColon : char ≠ ':' := by rintro rfl; simp [isNameStart] at start
  have isName : isWordChar char := by
    simp only [isNameStart, isWordChar, isNameChar, Char.isAlphanum, Bool.or_eq_true] at start ⊢
    tauto
  unfold wordLength
  split <;> simp_all

/-- A numeral takes at least its first digit. -/
theorem numeralLength_pos {char : Char} (rest : List Char) (digit : char.isDigit) :
    0 < numeralLength (char :: rest) := by
  have notDot : char ≠ '.' := by rintro rfl; simp at digit
  unfold numeralLength
  split <;> simp_all

/-- Whatever a numeral turns out to be, it takes its sign and its digits. -/
theorem numeral_length (text : List Char) :
    (numeral text).length = (if text.head? == some '-' then 1 else 0) +
      numeralLength (text.drop (if text.head? == some '-' then 1 else 0)) := by
  simp only [numeral, illegal]
  generalize (if text.head? == some '-' then 1 else 0) = sign
  split
  · rfl
  · split <;> rfl

theorem numeral_length_pos {text : List Char} (starts : startsNumeral text) :
    0 < (numeral text).length := by
  rw [numeral_length]
  fun_cases startsNumeral text with
  | case1 next rest => simp
  | case2 char rest notSigned =>
    have digit : char.isDigit := by simpa [startsNumeral] using starts
    have notMinus : char ≠ '-' := by rintro rfl; simp at digit
    simpa [notMinus] using numeralLength_pos rest digit
  | case3 => simp [startsNumeral] at starts

/-- A negative numeral has a digit after its sign. -/
theorem numeral_length_of_negative {rest : List Char} (starts : startsNumeral ('-' :: rest)) :
    2 ≤ (numeral ('-' :: rest)).length := by
  rw [numeral_length]
  cases rest with
  | nil => simp [startsNumeral] at starts
  | cons next rest =>
    have digit : next.isDigit := by simpa [startsNumeral] using starts
    have := numeralLength_pos rest digit
    simp
    omega

/-- What stands in front adds to the length. -/
theorem Passage.map_extend_length (found : Option Passage) (count lines : Nat) :
    (found.map (·.extend count lines)).map (·.length) = (found.map (·.length)).map (· + count) := by
  simp [Option.map_map, Function.comp_def]

/-- No more of the input is passed over than there is. -/
theorem quotation_length_le (skip : Nat) (text : List Char) :
    (quotation skip text).length ≤ text.length := by
  fun_induction quotation skip text <;> simp_all

/-- The closing quote of a string is behind what is known to belong to the body. -/
theorem skip_lt_quotation {skip : Nat} {text : List Char}
    (closed : (quotation skip text).closed) : skip < (quotation skip text).length := by
  fun_induction quotation skip text with
  | case1 => simp at closed
  | case3 => simp
  | case2 char rest more ih => simpa using ih closed
  | case4 | case5 | case6 | case7 => simp

/-! ## Lexemes of a non-empty input -/

/-- What every lexeme at the head of a non-empty text satisfies. -/
structure Fits (braceDepth : Nat) (text : List Char) (lexeme : Lexeme) : Prop where
  length_pos : 0 < lexeme.length
  goesOn : lexeme.kind ≠ .endOfInput
  faultless : lexeme.kind ≠ .illegal → lexeme.fault = none
  /-- A closing brace stands only where a brace is open. -/
  closes : lexeme.kind = .closeBrace → 0 < braceDepth
  /-- A string takes both of its quotes. -/
  quotes : lexeme.kind = .string → 2 ≤ (text.take lexeme.length).length
  /-- A number with a sign has a digit too. -/
  signed : lexeme.kind = .number → text.head? = some '-' →
    2 ≤ (text.take lexeme.length).length

/-- Most kinds have nothing to satisfy but their length. -/
theorem Fits.of_kind {braceDepth : Nat} {text : List Char} {lexeme : Lexeme}
    (length_pos : 0 < lexeme.length)
    (faultless : lexeme.kind ≠ .illegal → lexeme.fault = none)
    (kind : lexeme.kind ∉ [.closeBrace, .string, .number, .endOfInput]) :
    Fits braceDepth text lexeme := by
  simp only [List.mem_cons, List.not_mem_nil, or_false, not_or] at kind
  obtain ⟨notCloser, notString, notNumber, notEnd⟩ := kind
  exact ⟨length_pos, notEnd, faultless, fun closes => absurd closes notCloser,
    fun quoted => absurd quoted notString, fun number => absurd number notNumber⟩

theorem closer_fits (kind : TokenKind) (char : Char) (depth braceDepth : Nat) (text : List Char)
    (counted : kind = .closeBrace ∧ depth = braceDepth ∨ kind = .closeBracket) :
    Fits braceDepth text (closer kind char depth) := by
  unfold closer illegal
  split
  · exact .of_kind (by simp) (by simp) (by simp)
  · rcases counted with ⟨rfl, rfl⟩ | rfl
    · exact ⟨by simp, by simp, by simp, fun _ => by omega, by simp, by simp⟩
    · exact .of_kind (by simp) (by simp) (by simp)

theorem quotedString_fits (braceDepth : Nat) (afterQuote : List Char) :
    Fits braceDepth ('"' :: afterQuote) (quotedString afterQuote) := by
  unfold quotedString illegal
  split
  · rename_i closed
    have reached := skip_lt_quotation closed
    have inside := quotation_length_le 0 afterQuote
    refine ⟨by simp, by simp, by simp, by simp, fun _ => ?_, by simp⟩
    simp
    omega
  · exact .of_kind (by simp) (by simp) (by simp)

theorem numeral_fits (braceDepth : Nat) {text : List Char} (starts : startsNumeral text) :
    Fits braceDepth text (numeral text) := by
  have kind := numeral_kind text
  refine ⟨numeral_length_pos starts, ?_, ?_, ?_, ?_, ?_⟩
  · rintro ends; simp [ends] at kind
  · unfold numeral illegal
    grind
  · rintro closes; simp [closes] at kind
  · rintro quoted; simp [quoted] at kind
  · intro _ negative
    obtain ⟨rest, rfl⟩ : ∃ rest, text = '-' :: rest := by
      cases text <;> simp_all
    have digits := numeral_length_of_negative starts
    have nonempty : rest ≠ [] := by rintro rfl; simp [startsNumeral] at starts
    have := List.length_pos_iff.2 nonempty
    simp
    omega

theorem bareWord_fits (braceDepth : Nat) {char : Char} {rest : List Char}
    (start : isNameStart char) : Fits braceDepth (char :: rest) (bareWord (char :: rest)) := by
  refine .of_kind (wordLength_pos rest start) (fun _ => rfl) fun listed => ?_
  have isWord := bareWord_isWord (char :: rest)
  simp only [List.mem_cons, List.not_mem_nil, or_false] at listed
  rcases listed with kind | kind | kind | kind <;> simp [kind, TokenKind.isWord] at isWord

/-- Every lexeme fits the input it was found in. -/
theorem scan_fits (braceDepth bracketDepth : Nat) (char : Char) (rest : List Char) :
    Fits braceDepth (char :: rest) (scan braceDepth bracketDepth (char :: rest)) := by
  refine scan_cases braceDepth bracketDepth char rest ?_ ?_ ?_ ?_ ?_ ?_ ?_ ?_ ?_ ?_ ?_
  · exact fun _ => .of_kind (by simp) (by simp) (by simp)
  · exact fun _ => closer_fits _ _ _ _ _ (.inl ⟨rfl, rfl⟩)
  · exact fun _ => .of_kind (by simp) (by simp) (by simp)
  · exact fun _ => closer_fits _ _ _ _ _ (.inr rfl)
  · intro _
    refine .of_kind ?_ ?_ ?_
    · unfold reference
      split <;> simp
    · unfold reference
      split <;> simp
    · rcases reference_kind rest with kind | kind <;> simp [kind]
  · rintro rfl
    exact quotedString_fits braceDepth rest
  · exact numeral_fits braceDepth
  · exact bareWord_fits braceDepth
  · exact fun _ => .of_kind (by simp) (by simp) (by simp)
  · exact fun spelling kind known _ => .of_kind (symbols_kind _ known).2 (fun _ => rfl)
      (symbols_kind _ known).1
  · exact fun _ _ => .of_kind (by simp [illegal]) (by simp [illegal]) (by simp [illegal])

/-- Signs of one spelling start with their character. -/
theorem scan_sign {braces brackets : Nat} {char sign : Char} {rest : List Char} {kind : TokenKind}
    (listed : kind ∈ [.minus, .colon, .comma, .openParen, .closeParen])
    (only : ∀ entry ∈ symbols, entry.2 = kind → entry.1 = [sign])
    (found : (scan braces brackets (char :: rest)).kind = kind) : char = sign := by
  have other : kind.isWord = false ∧ kind ∉ [.number, .address, .illegal, .reference, .dollar,
      .string, .openBrace, .closeBrace, .openBracket, .closeBracket] := by
    simp only [List.mem_cons, List.not_mem_nil, or_false] at listed
    rcases listed with rfl | rfl | rfl | rfl | rfl <;> simp [TokenKind.isWord]
  simp only [List.mem_cons, List.not_mem_nil, or_false, not_or] at other
  revert found
  refine scan_cases braces brackets char rest ?_ ?_ ?_ ?_ ?_ ?_ ?_ ?_ ?_ ?_ ?_
  · rintro - rfl
    simp at other
  · simp only [closer, illegal]
    split <;> rintro - rfl <;> simp at other
  · rintro - rfl
    simp at other
  · simp only [closer, illegal]
    split <;> rintro - rfl <;> simp at other
  · rintro - rfl
    rcases reference_kind rest with kind | kind <;> simp [kind] at other
  · simp only [quotedString, illegal]
    split <;> rintro - rfl <;> simp at other
  · rintro - rfl
    rcases numeral_kind (char :: rest) with kind | kind | kind <;> simp [kind] at other
  · rintro - rfl
    simp [bareWord_isWord] at other
  · rintro - rfl
    simp [TokenKind.isWord] at other
  · rintro spelling _ known starts rfl
    have single : spelling = [sign] := only _ known rfl
    exact (List.cons_prefix_cons.1 (single ▸ starts)).1.symm
  · rintro - - rfl
    simp [illegal] at other

/-- Only a dash is a minus sign. -/
theorem scan_minus {braces brackets : Nat} {char : Char} {rest : List Char}
    (minus : (scan braces brackets (char :: rest)).kind = .minus) : char = '-' :=
  scan_sign (by simp) (by simp [symbols]) minus

/-- Only a colon is a colon. -/
theorem scan_colon {braces brackets : Nat} {char : Char} {rest : List Char}
    (colon : (scan braces brackets (char :: rest)).kind = .colon) : char = ':' :=
  scan_sign (by simp) (by simp [symbols]) colon

/-- Only a comma is a comma. -/
theorem scan_comma {braces brackets : Nat} {char : Char} {rest : List Char}
    (comma : (scan braces brackets (char :: rest)).kind = .comma) : char = ',' :=
  scan_sign (by simp) (by simp [symbols]) comma

/-- Only an opening parenthesis is one. -/
theorem scan_openParen {braces brackets : Nat} {char : Char} {rest : List Char}
    (paren : (scan braces brackets (char :: rest)).kind = .openParen) : char = '(' :=
  scan_sign (by simp) (by simp [symbols]) paren

/-- Only a closing parenthesis is one. -/
theorem scan_closeParen {braces brackets : Nat} {char : Char} {rest : List Char}
    (paren : (scan braces brackets (char :: rest)).kind = .closeParen) : char = ')' :=
  scan_sign (by simp) (by simp [symbols]) paren

/-! ## Lexemes of any input -/

section AnyInput

variable {braceDepth bracketDepth : Nat} {text : List Char}

/-- Only the empty input has ended. -/
theorem scan_endOfInput_iff :
    (scan braceDepth bracketDepth text).kind = .endOfInput ↔ text = [] := by
  cases text with
  | nil => simp [scan]
  | cons char rest => simpa using (scan_fits braceDepth bracketDepth char rest).goesOn

/-- A lexeme has no text only at the end of the input. -/
theorem take_scan_length_eq_nil_iff :
    text.take (scan braceDepth bracketDepth text).length = [] ↔ text = [] := by
  cases text with
  | nil => simp
  | cons char rest =>
    have := (scan_fits braceDepth bracketDepth char rest).length_pos
    simp
    omega

/-- A closing brace stands only where a brace is open. -/
theorem scan_closeBrace (closes : (scan braceDepth bracketDepth text).kind = .closeBrace) :
    0 < braceDepth := by
  cases text with
  | nil => simp [scan] at closes
  | cons char rest => exact (scan_fits braceDepth bracketDepth char rest).closes closes

/-- A string has no fault and takes both of its quotes. -/
theorem scan_string (string : (scan braceDepth bracketDepth text).kind = .string) :
    (scan braceDepth bracketDepth text).fault = none ∧
      2 ≤ (text.take (scan braceDepth bracketDepth text).length).length := by
  cases text with
  | nil => simp [scan] at string
  | cons char rest =>
    have fits := scan_fits braceDepth bracketDepth char rest
    exact ⟨fits.faultless (by simp [string]), fits.quotes string⟩

/-- A number has no fault, and takes a digit besides its sign. -/
theorem scan_number (number : (scan braceDepth bracketDepth text).kind = .number) :
    (scan braceDepth bracketDepth text).fault = none ∧
      (text.head? = some '-' →
        2 ≤ (text.take (scan braceDepth bracketDepth text).length).length) := by
  cases text with
  | nil => simp [scan] at number
  | cons char rest =>
    have fits := scan_fits braceDepth bracketDepth char rest
    exact ⟨fits.faultless (by simp [number]), fits.signed number⟩

end AnyInput

end Lexeme

end IRule
