import IRule.Proofs.Climbing.Reading

/-!
# Literals in formulas

Numbers, booleans and references are operands. A tree of them says what its tokens do and
has every operator where its strength puts it, and nothing is reported about the structure
of the text.
-/

namespace IRule

namespace Climbing

open Lexeme (Breaks Spells)
open IRule.Parser

variable {setting : Setting} {rest : List Char}

/-- Literals, as they are written. -/
inductive Literal where
  /-- An integer of 64 bits, without a plus sign. -/
  | number (text : String) (value : Int64) (reads : Text.int64? text.toList = some value)
      (unsigned : text.toList.head? ≠ some '+')
  | boolean (value : Bool)
  /-- A reference that ends where its name does. -/
  | reference (name : String) (nonempty : name.toList ≠ [])
      (whole : Lexeme.nameLength name.toList = name.toList.length)

namespace Literal

/-- What is written. -/
def text : Literal → String
  | number text .. => text
  | boolean value => if value then "true" else "false"
  | reference name .. => "$" ++ name

/-- Kind of the token. -/
def tokenKind : Literal → TokenKind
  | number .. => .number
  | boolean true => .reserved .trueWord
  | boolean false => .reserved .falseWord
  | reference .. => .reference

/-- A literal is one token, in front of what does not continue it. -/
theorem spells (literal : Literal) {braces brackets : Nat} {rest : List Char}
    (breaks : Breaks rest) :
    Spells braces brackets literal.text.toList rest literal.tokenKind := by
  rcases literal with ⟨text, value, reads, unsigned⟩ | (_ | _) | ⟨name, nonempty, whole⟩
  case number =>
    obtain ⟨digits, nonempty, digit, same⟩ := Text.exists_digits_of_int64? reads unsigned
    obtain ⟨plain, signed⟩ : Spells braces brackets digits rest .number ∧
        Spells braces brackets ('-' :: digits) rest .number :=
      Spells.digits digit nonempty breaks.endsDigits
    simp only [Literal.text, tokenKind]
    rcases same with same | same
    · rwa [same]
    · rwa [same]
  case boolean.false => exact .bareWord (by decide) breaks
  case boolean.true => exact .bareWord (by decide) breaks
  case reference => simpa [Literal.text, tokenKind] using Spells.reference whole nonempty breaks

theorem startsOperand (literal : Literal) :
    literal.text.toList.head?.any Lexeme.startsOperand := by
  rcases literal with ⟨text, value, reads, unsigned⟩ | (_ | _) | _
  case number =>
    obtain ⟨digits, nonempty, digit, same⟩ := Text.exists_digits_of_int64? reads unsigned
    simp only [Literal.text]
    rcases same with same | same
    · obtain ⟨first, later, rfl⟩ := List.exists_cons_of_ne_nil nonempty
      have here : first.isDigit := digit first (List.mem_cons_self ..)
      simp [same, Lexeme.startsOperand, Lexeme.startsPiece, Lexeme.startsLiteral, here]
    · simp [same, Lexeme.startsOperand, Lexeme.startsPiece, Lexeme.startsLiteral]
  case boolean.false => decide
  case boolean.true => decide
  case reference =>
    simp [Literal.text, Lexeme.startsOperand, Lexeme.startsPiece, Lexeme.startsLiteral]

end Literal

instance : Operand Literal where
  text := Literal.text
  starts := Literal.startsOperand

/-! ## Problems -/

/-- None of the problems is about the structure of the text. -/
def Mild (diagnostics : List Diagnostic) : Prop :=
  ∀ diagnostic ∈ diagnostics, diagnostic.code.category ≠ .structural

theorem mild_append_singleton {diagnostics : List Diagnostic} {diagnostic : Diagnostic}
    (mild : Mild diagnostics) (other : diagnostic.code.category ≠ .structural) :
    Mild (diagnostics ++ [diagnostic]) := by
  intro found inside
  rcases List.mem_append.1 inside with inside | inside
  · exact mild found inside
  · obtain rfl := List.mem_singleton.1 inside
    exact other

theorem mild_problem {diagnostics : List Diagnostic} {problem : Problem} (mild : Mild diagnostics)
    (line : Nat) (other : problem.code.category ≠ .structural) :
    Mild (diagnostics ++ [problem.diagnostic line]) :=
  mild_append_singleton mild (by rwa [Problem.diagnostic, Diagnostic.error_code])

theorem lenient_mild : Lenient Mild where
  undeclared := fun _ _ line mild =>
    mild_problem mild line (by simp [Problem.code, Code.category])
  operandTypes := fun _ _ _ _ line mild =>
    mild_problem mild line (by simp [Problem.code, Code.category])

/-! ## Literals read -/

/-- A reference is read as it is, declared or not. -/
theorem yields_reference {reported : List Diagnostic → Prop} (lenient : Lenient reported)
    {state : State} (kind : state.current.kind = .reference)
    (awaits : state.Awaits reported setting rest) (stops : setting.Stops .operand rest) :
    Yields (language.word .operand) state fun result last =>
      result = some (.identifier state.current (referenceName state.current.literal) true false) ∧
        last.Awaits reported setting rest := by
  have referenceRead : Yields (variableReference language) state fun result last =>
      result = some (.identifier state.current (referenceName state.current.literal) true false) ∧
        last.Awaits reported setting rest := by
    simp only [variableReference, Yields.current_bind]
    refine (lenient.yields_checkDeclared awaits).bind fun _ next awaits => ?_
    have noParen : next.parenGlued = false := stops.noParen next.quiet awaits.stands.toFaces
    simp only [Yields.get_bind, noParen, Bool.false_eq_true, if_false]
    exact .pure ⟨rfl, awaits⟩
  have pieceRead : Yields (piece language) state fun result last =>
      result = some (.identifier state.current (referenceName state.current.literal) true false) ∧
        last.Awaits reported setting rest := by
    simp only [piece, Yields.current_bind, kind]
    exact referenceRead
  change Yields (language.parse (.word .operand)) _ _
  refine .rule awaits.coherent ?_
  change Yields (word language .operand) _ _
  simp only [word, Yields.current_bind]
  refine pieceRead.bind ?_
  rintro _ last ⟨rfl, awaits⟩
  have apart : Glue.operand.holds last = false := stops.apart last.quiet awaits.stands.toFaces
  simp only [Yields.get_bind, apart, Bool.false_eq_true, if_false]
  exact .pure ⟨rfl, awaits⟩

/-- Literals are read as what they say. -/
theorem yields_literal {reported : List Diagnostic → Prop} (lenient : Lenient reported)
    {literal : Literal} {state : State} {gap : List Char} {spacing : Spacing}
    (gapped : Gap gap spacing)
    (awaits : state.Awaits reported setting (gap ++ (literal.text.toList ++ rest)))
    (stops : setting.Stops .operand rest) :
    Yields (operand language) state.advance fun result last =>
      ∃ expression, result = some expression ∧ expression.words = [literal.text] ∧
        expression.Climbs ∧ last.Awaits reported setting rest := by
  obtain ⟨kind, spelled, -, behind⟩ := awaits.token gapped (literal.spells stops.breaks)
  have text : state.advance.current.literal = literal.text := by
    have notString : literal.tokenKind ≠ .string := by
      rcases literal with _ | (_ | _) | _ <;> simp [Literal.tokenKind]
    rw [Lexeme.literalOf_eq _ notString, String.ofList_toList] at spelled
    exact spelled
  have same : setting.delimit literal.tokenKind = setting := by
    rcases literal with _ | (_ | _) | _ <;> rfl
  rw [same] at behind
  have here : state.advance.current.kind = literal.tokenKind := kind
  unfold operand
  simp only [Yields.current_bind, here]
  rcases literal with ⟨_, value, reads, _⟩ | (_ | _) | _
  case number =>
    have known : Text.int64? state.advance.current.literal.toList = some value := by rwa [text]
    have numberRead : Yields numberLiteral state.advance fun result last =>
        result = .number state.advance.current value ∧ last = state.advance := by
      simp only [numberLiteral, Yields.current_bind]
      rw [known]
      exact .pure ⟨rfl, rfl⟩
    simp only [Literal.tokenKind, piece, Yields.current_bind, here]
    refine numberRead.bind ?_
    rintro _ _ ⟨rfl, rfl⟩
    exact .pure ⟨_, rfl, congrArg ([·]) text, known, behind⟩
  case boolean.false | boolean.true =>
    simp only [Literal.tokenKind, piece, Yields.current_bind, here, simplePiece]
    exact .pure ⟨_, rfl, congrArg ([·]) text, text, behind⟩
  case reference =>
    refine (yields_reference lenient here behind stops).mono ?_
    rintro _ last ⟨rfl, awaits⟩
    exact ⟨_, rfl, congrArg ([·]) text, ⟨rfl, rfl⟩, awaits⟩

/-- Trees of literals climb. -/
theorem tracks_climbs : Tracks (fun (_ : List Literal) => Expression.Climbs) fun _ => Mild where
  lenient := fun _ => lenient_mild
  operand := fun _ _ _ _ _ _ _ gapped awaits stops =>
    yields_literal lenient_mild gapped awaits stops
  unary := fun _ _ _ climbs fits => ⟨rfl, climbs, fits⟩
  group := fun _ _ _ climbs => climbs
  binary := fun _ _ _ _ _ left right fitsLeft fitsRight => ⟨rfl, left, right, fitsLeft, fitsRight⟩

end Climbing

end IRule
