import IRule.Proofs.Lexer.Spelling
import IRule.Proofs.Lexer.Tiling

/-!
# Counting line feeds

Lines are counted in several places, each on its own way over the input: in the run in
front of a token, in plain text between quotes, at a backslash there, in a substitution
that closes, and in a braced word taken verbatim. A substitution that never closes is
given up, and its characters are passed over, and counted, once more. Each of these
counts is the number of line feeds that were passed over, and whatever counts none lies
on one line.
-/

namespace IRule

open Text

/-- A fault that is about one character says so on one line. -/
theorem LexicalFault.message_oneLine {char : Char} (visible : char ≠ '\n') :
    '\n' ∉ (illegalCharacter char).message.toList ∧ '\n' ∉ (strayCloser char).message.toList := by
  have illegal : (illegalCharacter char).message =
      "illegal character '" ++ String.singleton char ++ "'" := rfl
  have stray : (strayCloser char).message =
      "Closing '" ++ String.singleton char ++ "' without opening one" := rfl
  rw [illegal, stray]
  simpa using visible.symm

namespace Lexeme

/-! ## Gaps and strings -/

/-- Every line feed in front of a token is counted, hidden or not. -/
theorem Trivia.scan_lines (inComment : Bool) (text : List Char) :
    (scan inComment text).lines = (text.take (scan inComment text).length).count '\n' := by
  fun_induction scan inComment text with
  | case1 | case8 | case9 => simp [empty]
  | case2 => simp_all [afterNewline]
  | case3 | case5 => simp_all [afterComment]
  | case4 => simp_all [afterSpace]
  | case6 | case7 => simp_all [afterHiddenLine]

/-- Every line feed of a string is counted, but for those of its first `skip`
characters, which were counted by what passed over them. -/
theorem quotation_lines (skip : Nat) (text : List Char) :
    (quotation skip text).lines + (text.take skip).count '\n' =
      (text.take (quotation skip text).length).count '\n' := by
  fun_induction quotation skip text with
  | case1 => simp
  | case2 char rest more ih =>
    simp only [Quotation.extend_lines, Quotation.extend_length, List.take_succ_cons,
      List.count_cons]
    omega
  | case3 char rest quote => simp_all
  | case4 char rest notQuote hides ih =>
    have hidden : ((rest.head?.map lineFeed).getD 0) = (rest.take 1).count '\n' := by
      cases rest <;> simp [lineFeed, List.count_cons]
    simp_all
  | case5 char rest notQuote notHiding opens inner closes ih =>
    have counted := substitution?_lines closes
    simp_all
  | case6 | case7 => simp_all [lineFeed, List.count_cons]

/-! ## Lexemes of one line -/

/-- Neither a line end nor a hidden one comes next. -/
def OnText (text : List Char) : Prop :=
  text.head? ≠ some '\n' ∧ ∀ later, text ≠ '\\' :: '\n' :: later

/-- Line ends are passed over in front of a token. -/
theorem Trivia.onText_drop_scan (inComment : Bool) (text : List Char) :
    OnText (text.drop (scan inComment text).length) := by
  fun_induction scan inComment text with
  | case1 => simp [OnText]
  | case2 _ _ _ _ ih => simpa [afterNewline] using ih
  | case3 _ _ _ ih => simpa [afterComment] using ih
  | case4 _ _ _ _ _ _ ih => simpa [afterSpace] using ih
  | case5 _ _ _ _ _ _ _ ih => simpa [afterComment] using ih
  | case6 _ _ _ _ _ _ _ later ih => simpa [afterHiddenLine] using ih
  | case7 _ _ _ _ _ _ _ later ih => simpa [afterHiddenLine] using ih
  | case8 _ char rest notLine _ _ _ _ visible =>
    refine ⟨by simpa [empty] using notLine, fun later same => ?_⟩
    obtain ⟨-, rfl⟩ := List.cons.inj same
    exact visible later rfl
  | case9 _ char rest notLine _ _ _ notHidden =>
    refine ⟨by simpa [empty] using notLine, fun later same => ?_⟩
    obtain ⟨rfl, -⟩ := List.cons.inj same
    simp at notHidden

/-- Characters of some class without line feeds. -/
theorem lineFeed_of_class (accepts : Char → Bool) {char : Char} (accepted : accepts char = true)
    (excluded : accepts '\n' = false) : '\n' ≠ char := by
  rintro rfl
  simp [excluded] at accepted

theorem take_wordLength_oneLine (text : List Char) : '\n' ∉ text.take (wordLength text) := by
  fun_induction wordLength text with
  | case1 next rest joins ih =>
    have named := lineFeed_of_class (fun char => char == ':' || isNameChar char) joins (by decide)
    simp [named, ih]
  | case3 char rest _ accepted ih =>
    simp [lineFeed_of_class isWordChar accepted (by decide), ih]
  | case2 | case4 | case5 => simp

theorem take_nameLength_oneLine (text : List Char) : '\n' ∉ text.take (nameLength text) := by
  fun_induction nameLength text with
  | case1 rest ih => simp [ih]
  | case2 char rest _ accepted ih =>
    simp [lineFeed_of_class isNameChar accepted (by decide), ih]
  | case3 | case4 => simp

theorem mem_take_numeralLength {text : List Char} {char : Char}
    (mem : char ∈ text.take (numeralLength text)) : char = '.' ∨ char.isDigit = true := by
  fun_induction numeralLength text with
  | case1 next rest digit ih =>
    simp only [List.take_succ_cons, List.mem_cons] at mem
    rcases mem with rfl | rfl | mem
    · exact .inl rfl
    · exact .inr digit
    · exact ih mem
  | case3 first rest _ digit ih =>
    simp only [List.take_succ_cons, List.mem_cons] at mem
    rcases mem with rfl | mem
    · exact .inr digit
    · exact ih mem
  | case2 | case4 | case5 => simp at mem

/-- Characters of a number or an address. -/
theorem mem_take_numeral {text : List Char} {char : Char}
    (mem : char ∈ text.take (numeral text).length) :
    char = '-' ∨ char = '.' ∨ char.isDigit = true := by
  rw [numeral_length] at mem
  split at mem
  · rename_i negative
    obtain ⟨rest, rfl⟩ : ∃ rest, text = '-' :: rest := by
      cases text <;> simp_all
    rw [Nat.add_comm, List.take_succ_cons] at mem
    exact (List.mem_cons.1 mem).imp_right mem_take_numeralLength
  · simp only [Nat.zero_add, List.drop_zero] at mem
    exact .inr (mem_take_numeralLength mem)

theorem take_numeral_oneLine (text : List Char) : '\n' ∉ text.take (numeral text).length :=
  fun mem => absurd (mem_take_numeral mem) (by decide)

/-- The characters of a number are single bytes. -/
theorem take_numeral_narrow {text : List Char} {char : Char}
    (mem : char ∈ text.take (numeral text).length) : char.utf8Size = 1 := by
  rcases mem_take_numeral mem with rfl | rfl | digit
  · rfl
  · rfl
  · simp only [Char.isDigit, Bool.and_eq_true, decide_eq_true_eq] at digit
    have small : char.val ≤ 127 := UInt32.le_trans digit.2 (by decide)
    exact Char.utf8Size_eq_one_iff.2 small

/-- A braced name ends on its line. -/
theorem take_referenceLength_oneLine (text : List Char) :
    '\n' ∉ text.take (referenceLength text) := by
  fun_cases referenceLength text with
  | case1 | case3 => simp
  | case2 rest name _ closed =>
    have start : rest.take name.length = name :=
      (List.prefix_iff_eq_take.1 (List.takeWhile_prefix _)).symm
    have whole : rest.take (name.length + 1) = name ++ ['\x7d'] := by
      rw [List.take_add_one, ← List.head?_drop, beq_iff_eq.1 closed, start]
      rfl
    have oneLine : '\n' ∉ name := fun mem => by
      have accepted := List.all_eq_true.1 (List.all_takeWhile ..) _ mem
      simp at accepted
    simpa [whole] using oneLine
  | case4 => exact take_nameLength_oneLine text

theorem take_reference_oneLine (afterDollar : List Char) :
    '\n' ∉ ('$' :: afterDollar).take (reference afterDollar).length := by
  unfold reference
  split
  · simp
  · simpa using take_referenceLength_oneLine afterDollar

/-- What is on one line: the text of a lexeme that starts with no quote, and the message
of its fault. -/
structure OneLine (text : List Char) (lexeme : Lexeme) : Prop where
  text : text.head? ≠ some '"' → '\n' ∉ text.take lexeme.length
  message : ∀ fault ∈ lexeme.fault, '\n' ∉ fault.message.toList

namespace OneLine

variable {text : List Char}

theorem of_text {lexeme : Lexeme} (faultless : lexeme.fault = none)
    (oneLine : '\n' ∉ text.take lexeme.length) : OneLine text lexeme :=
  ⟨fun _ => oneLine, by simp [faultless]⟩

/-- A fault that is about one character. -/
theorem of_char {char : Char} {fault : LexicalFault} (rest : List Char) (visible : char ≠ '\n')
    (oneLine : '\n' ∉ fault.message.toList) : OneLine (char :: rest) (illegal fault 1) :=
  ⟨fun _ => by simpa [illegal] using visible.symm, by simpa [illegal] using oneLine⟩

theorem closer {kind : TokenKind} {char : Char} (rest : List Char) (depth : Nat)
    (visible : char ≠ '\n') : OneLine (char :: rest) (closer kind char depth) := by
  unfold Lexeme.closer
  split
  · exact of_char rest visible (LexicalFault.message_oneLine visible).2
  · exact of_text rfl (by simpa using visible.symm)

theorem quotedString (afterQuote : List Char) :
    OneLine ('"' :: afterQuote) (quotedString afterQuote) := by
  refine ⟨fun unquoted => absurd rfl unquoted, ?_⟩
  unfold Lexeme.quotedString
  split
  · simp
  · simpa [illegal] using (by decide : '\n' ∉ LexicalFault.unterminatedString.message.toList)

theorem numeral (text : List Char) : OneLine text (numeral text) := by
  refine ⟨fun _ => take_numeral_oneLine text, fun fault found => ?_⟩
  have digits := take_numeral_oneLine text
  obtain rfl : fault = .invalidNumber (String.ofList (text.take (Lexeme.numeral text).length)) := by
    unfold Lexeme.numeral illegal at found ⊢
    grind
  have message (literal : String) : (LexicalFault.invalidNumber literal).message =
      "invalid number literal '" ++ literal ++ "'" := rfl
  rw [message]
  simpa using digits

end OneLine

/-- The lexeme behind a gap is on one line. -/
theorem scan_oneLine {braceDepth bracketDepth : Nat} {text : List Char} (onText : OnText text) :
    OneLine text (scan braceDepth bracketDepth text) := by
  cases text with
  | nil => exact .of_text rfl (by simp)
  | cons char rest =>
    have visible : char ≠ '\n' := by simpa using onText.1
    refine scan_cases (motive := OneLine (char :: rest)) braceDepth bracketDepth char rest
      ?_ ?_ ?_ ?_ ?_ ?_ ?_ ?_ ?_ ?_ ?_
    · exact fun _ => .of_text rfl (by simpa using visible.symm)
    · exact fun _ => .closer rest _ visible
    · exact fun _ => .of_text rfl (by simpa using visible.symm)
    · exact fun _ => .closer rest _ visible
    · rintro rfl
      refine .of_text ?_ (take_reference_oneLine rest)
      unfold reference
      split <;> rfl
    · rintro rfl
      exact .quotedString rest
    · exact fun _ => .numeral _
    · exact fun _ => .of_text rfl (take_wordLength_oneLine _)
    · rintro rfl
      refine .of_text rfl ?_
      cases rest with
      | nil => simp
      | cons hidden later =>
        have shown : '\n' ≠ hidden := by
          rintro rfl
          exact onText.2 later rfl
        simpa using shown
    · intro spelling kind known starts
      have oneLine : ∀ entry ∈ symbols, '\n' ∉ entry.1 := by decide
      refine .of_text rfl ?_
      rw [← List.prefix_iff_eq_take.1 starts]
      exact oneLine _ known
    · exact fun _ _ => .of_char rest visible (LexicalFault.message_oneLine visible).1

/-! ## Lexemes -/

/-- What starts with a quote is a string or a fault. -/
theorem head?_ne_quote {braceDepth bracketDepth : Nat} {text : List Char}
    (unquoted : (scan braceDepth bracketDepth text).kind ≠ .string)
    (legal : (scan braceDepth bracketDepth text).kind ≠ .illegal) : text.head? ≠ some '"' := by
  rintro quoted
  obtain ⟨rest, rfl⟩ : ∃ rest, text = '"' :: rest := by
    cases text <;> simp_all
  by_cases closed : (quotation 0 rest).closed
  · simp [scan, quotedString, closed] at unquoted
  · simp [scan, quotedString, illegal, closed] at legal

/-- Behind a gap, the line feeds counted in a lexeme are those it has. -/
theorem countedLines_eq {braceDepth bracketDepth : Nat} {text : List Char}
    (onText : OnText text) :
    countedLines text = (text.take (scan braceDepth bracketDepth text).length).count '\n' := by
  by_cases quoted : text.head? = some '"'
  · obtain ⟨afterQuote, rfl⟩ : ∃ afterQuote, text = '"' :: afterQuote := by
      cases text <;> simp_all
    have length : (scan braceDepth bracketDepth ('"' :: afterQuote)).length =
        (quotation 0 afterQuote).length + 1 := by
      simp only [scan, quotedString, illegal]
      simp
      split <;> rfl
    have counted := quotation_lines 0 afterQuote
    simpa [countedLines, length] using counted
  · have oneLine : OneLine text (scan braceDepth bracketDepth text) := scan_oneLine onText
    rw [List.count_eq_zero.2 (oneLine.text quoted)]
    unfold countedLines
    split <;> simp_all

end Lexeme

namespace Lexer

variable (lexer : Lexer)

theorem trivia_lines : lexer.trivia.lines = lexer.tokenGap.count '\n' :=
  Lexeme.Trivia.scan_lines false lexer.scanner.rest

theorem countedLines_tokenStart :
    Lexeme.countedLines lexer.tokenStart.rest = lexer.tokenText.count '\n' :=
  Lexeme.countedLines_eq (Lexeme.Trivia.onText_drop_scan false lexer.scanner.rest)

end Lexer

end IRule
