import IRule.Proofs.Climbing.Reading
import IRule.Proofs.Reading.Reports

/-!
# Numerals

A numeral is a run of digits, with or without a minus sign, of any length. Where it is read
as an integer, the integer it denotes is what the literal holds. A numeral of an integer
that does not fit 64 bits is kept as its text, and reported.
-/

namespace IRule

open Lexeme (Breaks EndsDigits Spells)

/-- A run of digits, with or without a minus sign. -/
structure Numeral where
  negative : Bool
  digits : List Char
  nonempty : digits ≠ []
  digit : ∀ char ∈ digits, char.isDigit

namespace Numeral

/-- What is written. -/
def text (numeral : Numeral) : List Char :=
  if numeral.negative then '-' :: numeral.digits else numeral.digits

/-- The integer that is denoted. -/
def value (numeral : Numeral) : Int :=
  if numeral.negative then -Int.ofNat (Nat.ofDigitChars 10 numeral.digits 0)
  else Int.ofNat (Nat.ofDigitChars 10 numeral.digits 0)

/-- The numeral of an integer, as it is printed. -/
def ofInt (value : Int) : Numeral where
  negative := decide (value < 0)
  digits := Nat.toDigits 10 value.natAbs
  nonempty := Nat.toDigits_ne_nil
  digit := fun _ => Text.isDigit_of_mem_toDigits

theorem text_ofInt (value : Int) : (ofInt value).text = (toString value).toList := by
  rw [Text.toList_toString, text, ofInt]
  rcases lt_or_ge value 0 with negative | positive
  · simp only [negative, decide_true, if_true, Int.not_le.2 negative, if_false]
    rw [show (-value).toNat = value.natAbs by omega]
  · simp only [Int.not_lt.2 positive, decide_false, Bool.false_eq_true, if_false, positive, if_true]
    rw [show value.toNat = value.natAbs by omega]

theorem value_ofInt (value : Int) : (ofInt value).value = value := by
  simp only [Numeral.value, ofInt, Nat.ofDigitChars_ten_toDigits, decide_eq_true_eq,
    Int.ofNat_eq_natCast]
  split <;> omega

/-- The text is read as the integer, if it fits. -/
theorem int64?_text (numeral : Numeral) :
    Text.int64? numeral.text = Text.int64OfInt? numeral.value := by
  obtain ⟨negative, digits, nonempty, digit⟩ := numeral
  obtain ⟨first, rest, rfl⟩ := List.exists_cons_of_ne_nil nonempty
  have reads : Text.natural? (first :: rest) = some (Nat.ofDigitChars 10 (first :: rest) 0) :=
    Text.digitsValue?_eq_ofDigitChars digit
  have here : first.isDigit := digit first (List.mem_cons_self ..)
  cases negative with
  | true => simp [Text.int64?, Text.integer?, text, value, reads]
  | false =>
    have notMinus : first ≠ '-' := by rintro rfl; simp at here
    have notPlus : first ≠ '+' := by rintro rfl; simp at here
    simp [Text.int64?, Text.integer?_unsigned notMinus notPlus, text, value, reads]

/-- A numeral is one token, in front of what does not continue it. -/
theorem spells (numeral : Numeral) {braces brackets : Nat} {rest : List Char}
    (ends : EndsDigits rest) : Spells braces brackets numeral.text rest .number := by
  obtain ⟨plain, signed⟩ : Spells braces brackets numeral.digits rest .number ∧
      Spells braces brackets ('-' :: numeral.digits) rest .number :=
    Spells.digits numeral.digit numeral.nonempty ends
  unfold text
  split
  · exact signed
  · exact plain

theorem starts (numeral : Numeral) : Lexeme.Starts numeral.text := by
  unfold text
  split
  · exact ⟨'-', _, rfl, by decide⟩
  · obtain ⟨first, rest, same⟩ := List.exists_cons_of_ne_nil numeral.nonempty
    have here : first.isDigit := numeral.digit first (by simp [same])
    exact ⟨first, rest, same, by simp [Lexeme.startsPiece, Lexeme.startsLiteral, here]⟩

/-- What is reported of the numeral: that its integer does not fit, if it does not. -/
def problems (numeral : Numeral) : List Problem :=
  if Text.Fits numeral.value then [] else [.numberRange (String.ofList numeral.text)]

/-- The expression is a literal with the integer of the numeral, or with its text where the
integer does not fit. -/
def Shows (numeral : Numeral) : Expression → Prop
  | .number token word =>
    token.literal = String.ofList numeral.text ∧ word.toInt = numeral.value
  | .invalid _ text => ¬ Text.Fits numeral.value ∧ text = String.ofList numeral.text
  | _ => False

end Numeral

namespace Parser

variable {setting : Setting} {state : State} {gap rest : List Char} {spacing : Spacing}
  {found : List Problem}

/-! ## Counting problems -/

/-- Diagnostics with the given problems among those of their code. -/
def RangeReports (problems : List Problem) (diagnostics : List Diagnostic) : Prop :=
  Reports problems (diagnostics.filter fun diagnostic => diagnostic.code == .invalidNumber)

/-- One way to count problems, in which integers that do not fit count. -/
def CountsRange (counted : List Problem → List Diagnostic → Prop) : Prop :=
  ∀ problems diagnostics text line, counted problems diagnostics →
    counted (problems ++ [.numberRange text])
      (diagnostics ++ [(Problem.numberRange text).diagnostic line])

theorem countsRange_reports : CountsRange Reports :=
  fun _ _ _ _ reports => reports.concat _ _

theorem countsRange_rangeReports : CountsRange RangeReports := by
  intro problems diagnostics text line reports
  rw [RangeReports] at reports ⊢
  simpa [List.filter_append, Problem.diagnostic, Problem.code] using
    reports.concat (.numberRange text) line

/-- Other problems do not count. -/
theorem RangeReports.other {diagnostics : List Diagnostic}
    (reports : RangeReports found diagnostics)
    {problem : Problem} (line : Nat) (other : problem.code ≠ .invalidNumber) :
    RangeReports found (diagnostics ++ [problem.diagnostic line]) := by
  rw [RangeReports] at reports ⊢
  simpa [List.filter_append, Problem.diagnostic, other] using reports

theorem lenient_rangeReports : Climbing.Lenient (RangeReports found) where
  undeclared := fun _ _ line reports => reports.other line (by simp [Problem.code])
  operandTypes := fun _ _ _ _ line reports => reports.other line (by simp [Problem.code])

/-! ## Numerals read -/

variable {counted : List Problem → List Diagnostic → Prop}

/-- A numeral on its own is a literal that shows its integer. -/
theorem yields_numeral (numeral : Numeral) (counts : CountsRange counted) (gapped : Gap gap spacing)
    (spells : Spells setting.braces setting.brackets numeral.text rest .number)
    (awaits : state.Awaits (counted found) setting (gap ++ (numeral.text ++ rest))) :
    Yields (piece language) state.advance fun result last =>
      ∃ value, result = some value ∧
        (value.words = [String.ofList numeral.text] ∧ numeral.Shows value) ∧
        last.Awaits (counted (found ++ numeral.problems)) setting rest := by
  obtain ⟨kind, literal, -, awaits⟩ := awaits.token gapped spells
  rw [Lexeme.literalOf_eq _ (by simp)] at literal
  have here : state.advance.current.kind = .number := kind
  have text : state.advance.current.literal = String.ofList numeral.text := literal
  have read : Yields numberLiteral state.advance fun value last =>
      (value.words = [String.ofList numeral.text] ∧ numeral.Shows value) ∧
        last.Awaits (counted (found ++ numeral.problems)) setting rest := by
    have single : [state.advance.current.literal] = [String.ofList numeral.text] := by rw [text]
    simp only [numberLiteral, Yields.current_bind, text, String.toList_ofList, numeral.int64?_text]
    cases known : Text.int64OfInt? numeral.value with
    | some word =>
      have same := Text.int64OfInt?_eq_some_iff.1 known
      have fits : Text.Fits numeral.value := Text.fits_iff.2 ⟨word, same⟩
      refine .pure ⟨⟨single, text, same⟩, ?_⟩
      simpa [Numeral.problems, fits, Setting.delimit] using awaits
    | none =>
      have unfit := Text.int64OfInt?_eq_none_iff.1 known
      refine ⟨_, _, rfl, ⟨single, unfit, rfl⟩, awaits.record ?_⟩
      rw [Numeral.problems, if_neg unfit]
      exact counts _ _ _ _ awaits.found
  simp only [piece, Yields.current_bind, here]
  refine read.bind ?_
  rintro value last ⟨shown, awaits⟩
  exact .pure ⟨value, rfl, shown, awaits⟩

/-- Numerals are words. -/
theorem readsWord_numeral (numeral : Numeral) :
    ReadsWord numeral.text numeral.Shows numeral.problems := by
  intro setting state gap rest spacing found gapped awaits stops
  have read := yields_numeral numeral countsRange_reports gapped
    (numeral.spells stops.breaks.endsDigits) awaits
  refine yields_word_of_piece awaits.coherent.advance stops (read.mono ?_)
  rintro _ last ⟨value, rfl, ⟨-, shown⟩, awaits⟩
  exact ⟨awaits.faces, value, rfl, shown, awaits⟩

/-- Numerals are operands. -/
theorem yields_operand_numeral (numeral : Numeral) (counts : CountsRange counted)
    (gapped : Gap gap spacing)
    (awaits : state.Awaits (counted found) setting (gap ++ (numeral.text ++ rest)))
    (breaks : Breaks rest) :
    Yields (operand language) state.advance fun result last =>
      ∃ value, result = some value ∧ value.words = [String.ofList numeral.text] ∧
        numeral.Shows value ∧ last.Awaits (counted (found ++ numeral.problems)) setting rest := by
  have spells : Spells setting.braces setting.brackets numeral.text rest .number :=
    numeral.spells breaks.endsDigits
  have kind : state.advance.current.kind = .number := (awaits.token gapped spells).1
  simp only [operand, Yields.current_bind, kind]
  refine (yields_numeral numeral counts gapped spells awaits).mono ?_
  rintro _ last ⟨value, rfl, ⟨single, shown⟩, awaits⟩
  exact ⟨value, rfl, single, shown, awaits⟩

end Parser

end IRule
