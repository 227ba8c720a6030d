import IRule.Proofs.Lexer.Reading

/-!
# Braces of plain text

In a text without quotes, comments, backslashes and references every brace is a
token, or stands in a braced word that is taken verbatim. The depth of the
lexer is then the number of braces left open when those passed so far are
matched from left to right.
-/

namespace IRule

/-- Braces open behind a text that starts `depth` braces deep. A closing brace with
none open matches nothing. -/
def openBraces (depth : Nat) (text : List Char) : Nat :=
  text.foldl (fun depth char =>
    if char = '\x7b' then depth + 1 else if char = '\x7d' then depth - 1 else depth) depth

/-- Text without the characters that hide braces. -/
def PlainText (text : List Char) : Prop :=
  ∀ char ∈ text, char ∉ ['"', '#', '\\', '$']

/-- Text without braces. -/
def Braceless (text : List Char) : Prop :=
  ∀ char ∈ text, char ≠ '\x7b' ∧ char ≠ '\x7d'

theorem openBraces_append (depth : Nat) (first second : List Char) :
    openBraces depth (first ++ second) = openBraces (openBraces depth first) second :=
  List.foldl_append

theorem Braceless.openBraces_eq {text : List Char} (braceless : Braceless text) (depth : Nat) :
    openBraces depth text = depth := by
  induction text generalizing depth with
  | nil => rfl
  | cons char rest ih =>
    obtain ⟨notOpening, notClosing⟩ := braceless char (by simp)
    have rest : Braceless rest := fun later mem => braceless later (by simp [mem])
    simpa [openBraces, notOpening, notClosing] using ih rest depth

theorem Braceless.cons {char : Char} {rest : List Char}
    (head : char ≠ '\x7b' ∧ char ≠ '\x7d') (tail : Braceless rest) : Braceless (char :: rest) := by
  intro later mem
  rcases List.mem_cons.1 mem with rfl | mem
  · exact head
  · exact tail later mem

theorem Braceless.nil : Braceless [] := by
  simp [Braceless]

/-- Characters of some class without braces. -/
theorem brace_of_class (accepts : Char → Bool) {char : Char} (accepted : accepts char = true)
    (opening : accepts '\x7b' = false) (closing : accepts '\x7d' = false) :
    char ≠ '\x7b' ∧ char ≠ '\x7d' := by
  constructor <;> rintro rfl <;> simp_all

namespace PlainText

variable {first second : List Char}

theorem right (plain : PlainText (first ++ second)) : PlainText second :=
  fun char mem => plain char (by simp [mem])

theorem tail {char : Char} (plain : PlainText (char :: second)) : PlainText second :=
  fun later mem => plain later (by simp [mem])

end PlainText

namespace Lexeme

theorem take_wordLength_braceless (text : List Char) :
    Braceless (text.take (wordLength text)) := by
  fun_induction wordLength text with
  | case1 next rest joins ih =>
    have named : next ≠ '\x7b' ∧ next ≠ '\x7d' :=
      brace_of_class (fun char => char == ':' || isNameChar char) joins (by decide) (by decide)
    simpa using .cons (by decide) (.cons named ih)
  | case3 char rest _ accepted ih =>
    simpa using .cons (brace_of_class isWordChar accepted (by decide) (by decide)) ih
  | case2 | case4 | case5 => simpa using Braceless.nil

theorem take_numeralLength_braceless (text : List Char) :
    Braceless (text.take (numeralLength text)) := by
  fun_induction numeralLength text with
  | case1 next rest digit ih =>
    simpa using .cons (by decide) (.cons
      (brace_of_class Char.isDigit digit (by decide) (by decide)) ih)
  | case3 char rest _ digit ih =>
    simpa using .cons (brace_of_class Char.isDigit digit (by decide) (by decide)) ih
  | case2 | case4 | case5 => simpa using Braceless.nil

/-- Blanks and line ends are all that separates the tokens of plain text. -/
theorem take_trivia_braceless {text : List Char} (plain : PlainText text) :
    Braceless (text.take (Trivia.scan false text).length) := by
  induction text with
  | nil => simpa using Braceless.nil
  | cons char rest ih =>
    have later := ih plain.tail
    have visible := plain char (by simp)
    simp only [List.mem_cons, List.not_mem_nil, or_false, not_or] at visible
    unfold Trivia.scan
    split
    · rename_i newline
      simpa [Trivia.afterNewline] using
        .cons (brace_of_class (· == '\n') newline (by decide) (by decide)) later
    · rw [if_neg Bool.false_ne_true]
      split
      · rename_i space
        simpa [Trivia.afterSpace] using
          .cons (brace_of_class isSpace space (by decide) (by decide)) later
      · simpa [visible, Trivia.empty] using Braceless.nil

/-- The symbols are neither braces nor contain any. -/
theorem symbols_braceless : ∀ entry ∈ symbols,
    entry.2 ∉ [.openBrace, .closeBrace] ∧ ∀ char ∈ entry.1, char ≠ '\x7b' ∧ char ≠ '\x7d' := by
  simp [symbols]

theorem braceChange_eq_zero {kind : TokenKind} (other : kind ∉ [.openBrace, .closeBrace]) :
    Parser.State.braceChange kind = 0 := by
  simp only [List.mem_cons, List.not_mem_nil, or_false, not_or] at other
  unfold Parser.State.braceChange
  split <;> simp_all

/-- A token without braces changes nothing. -/
theorem braces_of_braceless {text : List Char} {kind : TokenKind} (braceDepth : Nat)
    (braceless : Braceless text) (other : kind ∉ [.openBrace, .closeBrace]) :
    (openBraces braceDepth text : Int) = braceDepth + Parser.State.braceChange kind := by
  rw [braceless.openBraces_eq, braceChange_eq_zero other]
  simp

theorem take_numeral_braceless (text : List Char) :
    Braceless (text.take (numeral text).length) := by
  rw [numeral_length]
  split
  · rename_i negative
    obtain ⟨rest, rfl⟩ : ∃ rest, text = '-' :: rest := by
      cases text <;> simp_all
    rw [Nat.add_comm]
    exact .cons (by decide) (take_numeralLength_braceless rest)
  · simpa using take_numeralLength_braceless text

/-- The text of a token of plain text opens and closes as many braces as its kind
says. -/
theorem scan_braces {braceDepth bracketDepth : Nat} {text : List Char} (plain : PlainText text) :
    (openBraces braceDepth (text.take (scan braceDepth bracketDepth text).length) : Int) =
      braceDepth + Parser.State.braceChange (scan braceDepth bracketDepth text).kind := by
  cases text with
  | nil => simp [scan, openBraces, Parser.State.braceChange]
  | cons char rest =>
    have visible := plain char (by simp)
    simp only [List.mem_cons, List.not_mem_nil, or_false, not_or] at visible
    obtain ⟨notQuote, -, notBackslash, notDollar⟩ := visible
    refine scan_cases (motive := fun lexeme =>
      (openBraces braceDepth ((char :: rest).take lexeme.length) : Int) =
        braceDepth + Parser.State.braceChange lexeme.kind) braceDepth bracketDepth char rest
      ?_ ?_ ?_ ?_ ?_ ?_ ?_ ?_ ?_ ?_ ?_
    · rintro rfl
      simp [openBraces, Parser.State.braceChange]
    · rintro rfl
      unfold closer illegal
      split
      · simp_all [openBraces, Parser.State.braceChange]
      · simp [openBraces, Parser.State.braceChange]
        omega
    · rintro rfl
      exact braces_of_braceless _ (.cons (by decide) (by simpa using .nil)) (by decide)
    · rintro rfl
      unfold closer illegal
      split
      · exact braces_of_braceless _ (.cons (by decide) (by simpa using .nil)) (by decide)
      · exact braces_of_braceless _ (.cons (by decide) (by simpa using .nil)) (by decide)
    · exact fun dollar => absurd dollar notDollar
    · exact fun quote => absurd quote notQuote
    · intro _
      refine braces_of_braceless _ (take_numeral_braceless _) ?_
      rcases numeral_kind (char :: rest) with kind | kind | kind <;> simp [kind]
    · intro _
      refine braces_of_braceless _ (take_wordLength_braceless _) fun listed => ?_
      have isWord := bareWord_isWord (char :: rest)
      simp only [List.mem_cons, List.not_mem_nil, or_false] at listed
      rcases listed with kind | kind <;> simp [kind, TokenKind.isWord] at isWord
    · exact fun backslash => absurd backslash notBackslash
    · intro spelling kind known starts
      obtain ⟨other, braceless⟩ := symbols_braceless _ known
      rw [← List.prefix_iff_eq_take.1 starts]
      exact braces_of_braceless _ braceless other
    · intro notOpening notClosing
      exact braces_of_braceless _ (.cons ⟨notOpening, notClosing⟩ (by simpa using .nil))
        (by simp [illegal])

end Lexeme

/-! ## Braced words -/

/-- The body of a braced word closes whatever it opens, and no more. -/
theorem Lexer.bracedBody?_braces {depth : Nat} {text : List Char} {body : Lexeme.Passage}
    (plain : PlainText text) (found : bracedBody? depth text = some body) (outer : Nat) :
    openBraces (depth + outer) (text.take body.length) = outer := by
  fun_induction bracedBody? depth text generalizing body with
  | case1 | case2 => simp at found
  | case3 depth char hidden later backslash =>
    have visible := plain char (by simp)
    simp_all
  | case4 depth char rest _ opening ih =>
    obtain ⟨inner, known, rfl⟩ := Option.map_eq_some_iff.1 found
    obtain rfl := beq_iff_eq.1 opening
    have closed := ih plain.tail known
    simpa [openBraces, Nat.add_right_comm] using closed
  | case5 =>
    obtain rfl : ⟨0, 0⟩ = body := by simpa using found
    simp [openBraces]
  | case6 char rest _ _ closing inside ih =>
    obtain ⟨inner, known, rfl⟩ := Option.map_eq_some_iff.1 found
    obtain rfl := beq_iff_eq.1 closing
    have closed := ih plain.tail known
    simpa [openBraces, Nat.add_right_comm] using closed
  | case7 depth char rest _ notOpening notClosing ih =>
    obtain ⟨inner, known, rfl⟩ := Option.map_eq_some_iff.1 found
    have closed := ih plain.tail known
    simp only [beq_iff_eq] at notOpening notClosing
    simpa [openBraces, notOpening, notClosing] using closed

/-! ## The depth of the lexer -/

/-- A scanner that stands in a text as deep as the braces before it say. -/
def Scanner.Counts (scanner : Scanner) (source : List Char) : Prop :=
  ∃ passed, source = passed ++ scanner.rest ∧ scanner.braceDepth = openBraces 0 passed

namespace Lexer

/-- Reading a token keeps count. -/
theorem next_counts (lexer : Lexer) {source : List Char} (plain : PlainText source)
    (counts : lexer.scanner.Counts source) : lexer.next.2.scanner.Counts source := by
  obtain ⟨passed, rfl, depth⟩ := counts
  have gapPlain : PlainText lexer.scanner.rest := plain.right
  have tokenPlain : PlainText lexer.tokenStart.rest :=
    fun char mem => gapPlain char (List.mem_of_mem_drop mem)
  refine ⟨passed ++ (lexer.tokenGap ++ lexer.tokenText), ?_, ?_⟩
  · rw [next_rest]
    simp [tokenGap, tokenStop, tokenText, tokenStart, Scanner.advance]
  · have start : lexer.tokenStart.braceDepth = lexer.scanner.braceDepth := rfl
    have stop : (lexer.next.2.scanner.braceDepth : Int) =
        lexer.tokenStart.braceDepth + Parser.State.braceChange lexer.lexeme.kind := by
      rw [next_braceDepth]
      exact Scanner.delimit_braceDepth _ _ Lexeme.scan_closeBrace
    have token : (openBraces lexer.tokenStart.braceDepth lexer.tokenText : Int) =
        lexer.tokenStart.braceDepth + Parser.State.braceChange lexer.lexeme.kind :=
      Lexeme.scan_braces tokenPlain
    have gapless : openBraces lexer.scanner.braceDepth lexer.tokenGap = lexer.scanner.braceDepth :=
      (Lexeme.take_trivia_braceless gapPlain).openBraces_eq _
    rw [openBraces_append, ← depth, openBraces_append, gapless, ← start]
    omega

/-- Taking a braced word verbatim keeps count. -/
theorem capture?_counts {lexer later : Lexer} {opening : Token} {word : RawBraced}
    {source : List Char} (plain : PlainText source) (counts : lexer.before.Counts source)
    (captured : lexer.capture? opening = some (word, later)) : later.scanner.Counts source := by
  obtain ⟨-, -, -, capturing⟩ := capture?_capturing captured
  obtain ⟨passed, rfl, depth⟩ := counts
  have balanced : openBraces lexer.before.braceDepth word.body = lexer.before.braceDepth := by
    unfold capture? at captured
    split at captured
    · split at captured
      · simp at captured
      · rename_i body found
        simp only [Option.some.injEq, Prod.mk.injEq] at captured
        rw [← captured.1]
        simpa using bracedBody?_braces plain.right found lexer.before.braceDepth
    · simp at captured
  refine ⟨passed ++ (word.body ++ ['\x7d']), by simp [capturing.input], ?_⟩
  rw [openBraces_append, ← depth, openBraces_append, balanced, capturing.depth]
  simp [openBraces]

end Lexer

end IRule
