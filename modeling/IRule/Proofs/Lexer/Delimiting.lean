import IRule.Proofs.Lexer.Locality
import IRule.Proofs.Lexer.Tiling

/-!
# Strings delimit themselves

Where a string ends is decided by escapes, by substitutions with quotes of their own,
and by whether a bracket is ever closed in the rest of the input. Every such decision
inside a string is one about the string's own text: a substitution that closes does so
before the closing quote, and a bracket that the whole rest of the input leaves open is
open in any part of it. So the body of a string, quoted on its own, is that string again.
-/

namespace IRule

open Text

namespace Lexeme

/-- A text quoted on its own is closed by the last quote and by no earlier one. -/
def SelfClosed (body : List Char) : Prop :=
  (quotation 0 (body ++ ['"'])).closed ∧ (quotation 0 (body ++ ['"'])).length = body.length + 1

instance (body : List Char) : Decidable (SelfClosed body) :=
  inferInstanceAs (Decidable (_ ∧ _))

section Cutting

variable {text : List Char}

/-- A cut behind everything that a substitution takes, if it closes at all, does not
change what it takes. -/
theorem substitution?_take {pending : List Pending} {count : Nat}
    (reached : ∀ passage, substitution? pending text = some passage →
      passage.length ≤ (text.take count).length) :
    substitution? pending (text.take count) = substitution? pending text := by
  cases closed : substitution? pending text with
  | some passage =>
    rw [← List.take_append_drop count text] at closed
    exact substitution?_of_append closed (reached passage (by simpa using closed))
  | none =>
    cases cut : substitution? pending (text.take count) with
    | none => rfl
    | some passage =>
      have whole := substitution?_append cut (text.drop count)
      rw [List.take_append_drop, closed] at whole
      simp at whole

/-- A string cut off behind its closing quote is the same as before. -/
theorem quotation_take {skip : Nat} (closed : (quotation skip text).closed) :
    quotation skip (text.take (quotation skip text).length) = quotation skip text := by
  fun_induction quotation skip text with
  | case1 => simp at closed
  | case3 char rest quote => simp [quotation, quote]
  | case2 char rest more ih => simp [quotation, ih closed]
  | case4 char rest notQuote hides ih =>
    -- The hidden character belongs to the string.
    have first : (rest.take (quotation 1 rest).length).head? = rest.head? := by
      rw [List.head?_take, if_neg]
      exact (Nat.one_pos.trans (skip_lt_quotation closed)).ne'
    simp [quotation, notQuote, hides, ih closed, first]
  | case5 char rest notQuote notHiding opens inner closes ih =>
    -- A substitution that closes is inside the body, which ends before the cut.
    have inside := quotation_length_le inner.length rest
    have reached : ∀ passage, substitution? [.bracket] rest = some passage →
        passage.length ≤ (rest.take (quotation inner.length rest).length).length := by
      rintro passage closed'
      obtain rfl : inner = passage := Option.some.inj (closes.symm.trans closed')
      have before := skip_lt_quotation closed
      simp at before ⊢
      omega
    simp [quotation, notQuote, notHiding, opens, substitution?_take reached, closes, ih closed]
  | case6 char rest notQuote notHiding opens lone ih =>
    have reached : ∀ passage, substitution? [.bracket] rest = some passage →
        passage.length ≤ (rest.take (quotation 0 rest).length).length := by
      simp [lone]
    simp [quotation, notQuote, notHiding, opens, substitution?_take reached, lone, ih closed]
  | case7 char rest notQuote notHiding notOpening ih =>
    simp [quotation, notQuote, notHiding, notOpening, ih closed]

/-- A string stands behind its opening quote and reaches up to its closing one. -/
theorem exists_quotation_of_scan {braceDepth bracketDepth : Nat}
    (string : (scan braceDepth bracketDepth text).kind = .string) :
    ∃ afterQuote, text = '"' :: afterQuote ∧ (quotation 0 afterQuote).closed ∧
      (scan braceDepth bracketDepth text).length = (quotation 0 afterQuote).length + 1 := by
  obtain ⟨body, taken⟩ := (scan_tells braceDepth bracketDepth text).quoted string
  have starts : '"' :: (body ++ ['"']) <+: text := taken ▸ List.take_prefix _ text
  obtain ⟨more, rfl⟩ := starts
  simp only [List.cons_append] at string ⊢
  generalize body ++ ['"'] ++ more = afterQuote at string ⊢
  by_cases closed : (quotation 0 afterQuote).closed
  · exact ⟨afterQuote, rfl, closed, by simp [scan, quotedString, closed]⟩
  · simp [scan, quotedString, closed, illegal] at string

/-- The body of a string at the head of any input closes with its own quote. -/
theorem selfClosed_of_scan {braceDepth bracketDepth : Nat}
    (string : (scan braceDepth bracketDepth text).kind = .string) :
    SelfClosed (unquote (text.take (scan braceDepth bracketDepth text).length)) := by
  obtain ⟨afterQuote, rfl, closed, size⟩ := exists_quotation_of_scan string
  obtain ⟨body, taken⟩ := take_quotation closed
  have inside := quotation_length_le 0 afterQuote
  have counted : (quotation 0 afterQuote).length = body.length + 1 := by
    have := congrArg List.length taken
    simp at this
    omega
  have cut := quotation_take closed
  rw [taken] at cut
  have inner : unquote ('"' :: (body ++ ['"'])) = body := by simp [unquote]
  rw [size, List.take_succ_cons, taken, inner, SelfClosed, cut]
  exact ⟨closed, counted⟩

/-- A text that closes with its own quote makes a string of its own. -/
theorem SelfClosed.scan {body : List Char} (closed : SelfClosed body)
    (braceDepth bracketDepth : Nat) :
    Lexeme.scan braceDepth bracketDepth ('"' :: (body ++ ['"'])) =
      ⟨.string, body.length + 2, none⟩ := by
  simp [Lexeme.scan, quotedString, closed.1, closed.2]

end Cutting

end Lexeme

namespace Lexer

/-- Every token read in a row was the next one somewhere. -/
theorem exists_next_of_mem_take {count : Nat} {lexer : Lexer} {token : Token}
    (mem : token ∈ (lexer.take count).1) : ∃ reader : Lexer, reader.next.1 = token := by
  induction count generalizing lexer with
  | zero => simp [take] at mem
  | succ count ih =>
    rw [take_succ] at mem
    obtain rfl | later := List.mem_cons.1 mem
    · exact ⟨lexer, rfl⟩
    · split at later
      · simp at later
      · exact ih later

/-- The literal of a string token closes with its own quote. -/
theorem selfClosed_of_next {lexer : Lexer} (string : lexer.next.1.kind = .string) :
    Lexeme.SelfClosed lexer.next.1.literal.toList := by
  rw [next_literal_of_string string]
  exact Lexeme.selfClosed_of_scan string

/-- The token at the end of the input. -/
theorem next_of_end {lexer : Lexer} (ended : lexer.scanner.rest = []) :
    lexer.next.1 = ⟨.endOfInput, "", lexer.scanner.line,
      ⟨lexer.scanner.offset, lexer.scanner.offset⟩, .none⟩ := by
  simp [next, ended, Lexeme.Trivia.scan, Lexeme.Trivia.empty, Lexeme.scan, Scanner.advance,
    Scanner.delimit, Lexeme.literal]

end Lexer

/-- A text that is one token, and then the input ends. -/
theorem tokenize_of_spells {text : List Char} {kind : TokenKind}
    (spells : Lexeme.Spells 0 0 text [] kind) (goesOn : kind ≠ .endOfInput) :
    tokenize (String.ofList text) =
      [⟨kind, Lexeme.literalOf kind text, 1, ⟨0, byteLength text⟩, .none⟩,
        ⟨.endOfInput, "", 1 + text.count '\n', ⟨byteLength text, byteLength text⟩, .none⟩] := by
  have scan : Lexeme.scan 0 0 text = ⟨kind, text.length, none⟩ := by simpa using spells.scan
  have tight : Lexeme.Trivia.scan false text = .empty := by simpa using spells.tight
  have some : text ≠ [] := by
    rintro rfl
    exact goesOn (congrArg Lexeme.kind scan).symm
  have lines : Lexeme.countedLines text = text.count '\n' := by
    have onText := Lexeme.Trivia.onText_drop_scan false text
    have counted : Lexeme.countedLines text =
        (text.take (Lexeme.scan 0 0 text).length).count '\n' :=
      Lexeme.countedLines_eq (by simpa [tight, Lexeme.Trivia.empty] using onText)
    simpa [scan] using counted
  -- The first token takes the whole text, so the second one finds the end of the input.
  have first : (Lexer.start text 1).next =
      (⟨kind, Lexeme.literalOf kind text, 1, ⟨0, byteLength text⟩, .none⟩,
        ⟨Scanner.delimit ⟨[], byteLength text, 1 + text.count '\n', 0, 0, []⟩ kind,
          (Lexer.start text 1).scanner⟩) := by
    simp [Lexer.next, Lexer.start, tight, Lexeme.Trivia.empty, Scanner.advance, scan, lines,
      Lexeme.literal, Lexeme.literalOf]
  have rest : 0 < (Lexer.start text 1).scanner.rest.length := by
    simpa [Lexer.start] using List.length_pos_iff.2 some
  obtain ⟨count, enough⟩ := Nat.exists_eq_add_of_lt rest
  rw [tokenize, String.toList_ofList, Lexer.takeAll, enough, Lexer.take_succ, first, if_neg goesOn,
    Lexer.take_succ, Lexer.next_of_end (by simp)]
  simp

/-- The tokens of a text that closes with its own quote, in quotes. -/
theorem tokenize_of_selfClosed {body : String} (closed : Lexeme.SelfClosed body.toList) :
    tokenize ("\"" ++ body ++ "\"") =
      [⟨.string, body, 1, ⟨0, byteLength body.toList + 2⟩, .none⟩,
        ⟨.endOfInput, "", 1 + body.toList.count '\n',
          ⟨byteLength body.toList + 2, byteLength body.toList + 2⟩, .none⟩] := by
  have spells : Lexeme.Spells 0 0 ('"' :: (body.toList ++ ['"'])) [] .string :=
    ⟨by simpa using closed.scan 0 0, Lexeme.Trivia.scan_tight _ rfl⟩
  have bytes : byteLength ('"' :: (body.toList ++ ['"'])) = byteLength body.toList + 2 := by
    simp [show '"'.utf8Size = 1 from rfl]
    omega
  have quoted : "\"" ++ body ++ "\"" = String.ofList ('"' :: (body.toList ++ ['"'])) := by
    simp [← String.toList_inj]
  rw [quoted, tokenize_of_spells spells (by simp), bytes]
  simp [Lexeme.literalOf, unquote]

/-- A string token delimits itself: its literal in quotes is read as the same string
and then the input ends. -/
theorem tokenize_requoted (source : String) {token : Token} (mem : token ∈ tokenize source)
    (string : token.kind = .string) :
    tokenize ("\"" ++ token.literal ++ "\"") =
      [⟨.string, token.literal, 1, ⟨0, byteLength token.literal.toList + 2⟩, .none⟩,
        ⟨.endOfInput, "", 1 + token.literal.toList.count '\n',
          ⟨byteLength token.literal.toList + 2, byteLength token.literal.toList + 2⟩,
          .none⟩] := by
  obtain ⟨reader, rfl⟩ := Lexer.exists_next_of_mem_take mem
  exact tokenize_of_selfClosed (Lexer.selfClosed_of_next string)

/-- A string with a substitution that has a string in it, an escaped quote and a lone
bracket. -/
theorem tokenize_requoted_lone :
    tokenize ("\"" ++ "[log \"]\"] \\\" [" ++ "\"") =
      [⟨.string, "[log \"]\"] \\\" [", 1, ⟨0, 16⟩, .none⟩,
        ⟨.endOfInput, "", 1, ⟨16, 16⟩, .none⟩] :=
  (tokenize_requoted "set x \"[log \"]\"] \\\" [\""
    (List.mem_of_getElem? (show (tokenize "set x \"[log \"]\"] \\\" [\"")[2]? =
      some ⟨.string, "[log \"]\"] \\\" [", 1, ⟨6, 22⟩, ⟨true, false, false⟩⟩ by decide +kernel))
    rfl).trans (by decide +kernel)

end IRule
