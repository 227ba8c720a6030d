import IRule.Proofs.Climbing.Literal
import IRule.Proofs.Reading.Reports

/-!
# Conditions made of formulas

A formula between the braces of an `if` is read as a whole, whatever it is, and
every operator in it stands where its strength puts it.
-/

namespace IRule

/-- The problems with the structure of a rule are those whose codes start with `E1`. -/
theorem Code.isStructural_iff {code : Code} :
    code.category = .structural ↔ "E1".toList <+: code.text.toList := by
  cases code <;> decide

namespace Climbing

open IRule.Parser

variable {setting : Setting} {rest : List Char}

/-- An empty block is read as one. -/
theorem yields_emptyBlock {reported : List Diagnostic → Prop} {state : State} {head : BlockHead}
    (awaits : state.Awaits reported setting
      ([' '] ++ (['\x7b'] ++ ([' '] ++ (['\x7d'] ++ rest))))) :
    state.lookahead.kind ≠ .word ∧
      Yields (expectBlock language head) state fun result last =>
        ∃ body, result = some body ∧ (∃ opening, body = .mk opening []) ∧
          last.Awaits reported setting rest := by
  obtain ⟨kind, -, -, opened⟩ := awaits.token .space .openBrace
  refine ⟨by simp [kind], yields_expectBlock kind ?_⟩
  have bodyRead : ∀ inner : State,
      inner.Awaits reported setting.body ([' '] ++ (['\x7d'] ++ rest)) →
      Yields (language.blockBody state.advance.current.line) inner.advance fun result last =>
        result = [] ∧
          last.Awaits reported ((setting.body.after .empty []).delimit .closeBrace) rest := by
    intro inner awaits
    refine (yields_blockBody_nil reported .space (Nat.succ_pos _) awaits.stands.toFaces
      awaits.found).mono ?_
    rintro _ last ⟨rfl, closed⟩
    exact ⟨rfl, by simpa [Setting.after] using closed⟩
  refine (yields_block opened bodyRead).mono ?_
  rintro _ last ⟨⟨_, rfl, rfl⟩, closed⟩
  exact ⟨⟨_, rfl⟩, by simpa using closed⟩

/-- A condition in braces, and an empty block at the end of the text. -/
theorem yields_tested {before after : List Diagnostic → Prop} {accepts : Expression → Prop}
    {text : List Char} {state : State} (starts : text.head?.any Lexeme.startsOperand)
    (reads : ∀ inner : State,
      inner.Awaits before ((setting.delimit .openBrace).inside .expression)
        ([] ++ (text ++ '\x7d' :: ([' '] ++ (['\x7b'] ++ ([' '] ++ (['\x7d'] ++ [])))))) →
      Yields (language.expression .lowest) inner.advance fun result last =>
        ∃ tested, result = some tested ∧ accepts tested ∧
          last.Awaits after ((setting.delimit .openBrace).inside .expression)
            ('\x7d' :: ([' '] ++ (['\x7b'] ++ ([' '] ++ (['\x7d'] ++ []))))))
    (awaits : state.Awaits before setting ([' '] ++ (['\x7b'] ++ ([] ++ (text ++
      '\x7d' :: ([' '] ++ (['\x7b'] ++ ([' '] ++ (['\x7d'] ++ []))))))))) :
    Yields language.conditional state fun result last =>
      ∃ copy : Statement, result = some copy ∧
        ((∃ token condition opening, copy = .conditional token condition (.mk opening []) none ∧
          accepts condition) ∧ last.Awaits after setting []) := by
  have testedRead := yields_bracedCondition starts reads awaits
  have none : ∀ (body : Block) (next : State),
      (∃ opening, body = .mk opening []) ∧ next.Awaits after setting [] →
      Yields (alternative language) next fun result last =>
        result = Option.none ∧ last.Awaits after setting [] := by
    rintro body next ⟨-, ended⟩
    have kind : next.lookahead.kind = .endOfInput := ended.stands.toFaces.atEnd
    simp only [alternative, Yields.lookahead_bind, kind]
    exact .pure ⟨rfl, ended⟩
  refine (Yields.conditional awaits.coherent testedRead
    (fun _ next ⟨_, awaits⟩ => yields_emptyBlock awaits) none).mono ?_
  rintro _ last ⟨condition, _, _, rfl, ⟨_, accepted, -⟩, ⟨_, ⟨opening, rfl⟩, -⟩, rfl, ended⟩
  exact ⟨_, rfl, ⟨_, condition, opening, rfl, accepted⟩, ended⟩

/-- The rule that tests a condition and does nothing. -/
theorem yields_test {before after : List Diagnostic → Prop} {accepts : Expression → Prop}
    {text : List Char} {start : State} (clean : before [])
    (starts : text.head?.any Lexeme.startsOperand)
    (reads : ∀ inner : State,
      inner.Awaits before ((({} : Setting).delimit .openBrace).inside .expression)
        ([] ++ (text ++ '\x7d' :: ([' '] ++ (['\x7b'] ++ ([' '] ++ (['\x7d'] ++ [])))))) →
      Yields (language.expression .lowest) inner.advance fun result last =>
        ∃ tested, result = some tested ∧ accepts tested ∧
          last.Awaits after ((({} : Setting).delimit .openBrace).inside .expression)
            ('\x7d' :: ([' '] ++ (['\x7b'] ++ ([' '] ++ (['\x7d'] ++ []))))))
    (faces : start.Faces {} ([] ++ ("if".toList ++ ([' '] ++ (['\x7b'] ++ ([] ++ (text ++
      '\x7d' :: ([' '] ++ (['\x7b'] ++ ([' '] ++ (['\x7d'] ++ []))))))))))) :
    start.advance.current.kind ≠ .endOfInput ∧
      Yields language.statement start.advance fun result last =>
        ∃ copy : Statement, result = some copy ∧
          (∃ token condition opening, copy = .conditional token condition (.mk opening []) none ∧
            accepts condition) ∧ last.Awaits after {} [] := by
  obtain ⟨kind, -, -, stands⟩ := faces.name .none (by decide) breaks_space
  have here : start.advance.current.kind = .reserved .ifWord := kind.trans (by decide)
  have awaits : start.advance.Awaits before {} ([' '] ++ (['\x7b'] ++ ([] ++ (text ++
      '\x7d' :: ([' '] ++ (['\x7b'] ++ ([' '] ++ (['\x7d'] ++ [])))))))) :=
    ⟨(State.awaits_iff_stands.2 stands).stands, stands.clean ▸ clean⟩
  refine ⟨by simp [here], .finished awaits.coherent (by simp [here]) ?_⟩
  simp only [statementBody, Yields.current_bind, here]
  refine (yields_tested starts reads awaits).mono ?_
  rintro _ last ⟨copy, rfl, made, ended⟩
  exact ⟨copy, rfl, ⟨made, ended⟩, Setting.closes_nil.ends last.quiet ended.stands.toFaces⟩

section Programs

variable {α : Type} [Operand α] {holds : List α → Expression → Prop}
  {reported : List α → List Diagnostic → Prop}

/-- The rule that tests the formula and does nothing. -/
def Formula.program (formula : Formula α) : String :=
  "if \x7b" ++ separated " " formula.words ++ "\x7d \x7b \x7d"

/-- The rule that tests a formula is read to its end, and what is tracked holds of the tree of
its operands. -/
theorem Tracks.parse_program (tracks : Tracks holds reported) (clean : reported [] [])
    (declared : List String) (formula : Formula α) :
    let outcome := parseWith declared formula.program
    reported formula.leaves outcome.diagnostics ∧
      ∃ token condition opening,
        outcome.script.statements = [.conditional token condition (.mk opening []) none] ∧
          condition.words = formula.words ∧ holds formula.leaves condition := by
  obtain ⟨first, tail⟩ := formula
  have read : ∀ start : State, start.Faces {} (Formula.mk first tail).program.toList →
      start.advance.current.kind ≠ .endOfInput ∧
        Yields language.statement start.advance fun result last =>
          ∃ copy : Statement, result = some copy ∧
            (∃ token condition opening, copy = .conditional token condition (.mk opening []) none ∧
              condition.words = (Formula.mk first tail).words ∧
                holds (Formula.mk first tail).leaves condition) ∧
            last.Awaits (reported ([] ++ (Formula.mk first tail).leaves)) {} [] := by
    intro start faces
    have faced : start.Faces {} ([] ++ ("if".toList ++ ([' '] ++ (['\x7b'] ++ ([] ++
        ((Formula.mk first tail).text ++
          '\x7d' :: ([' '] ++ (['\x7b'] ++ ([' '] ++ (['\x7d'] ++ [])))))))))) := by
      simpa [Formula.program, Formula.text] using faces
    exact yields_test clean (Formula.startsOperand _) (fun _ awaits =>
      (tracks.readsTerm first tail).formula .none awaits fun _ =>
        Setting.follows_closeBrace (Nat.succ_pos _)) faced
  obtain ⟨found, _, single, token, condition, opening, rfl, words, held⟩ := parse_statement rfl read
  exact ⟨found, token, condition, opening, single, words, held⟩

end Programs

/-- The operators of formulas are all there are: whatever else binds two operands is the
parenthesis of a call. And any formula that is written with blanks between its tokens is a
condition: nothing is reported about its structure, the tokens of the tree are those of the
formula, and every operator in it stands where its strength puts it. -/
theorem parse_formula :
    (∀ token : Token, Precedence.lowest.rank < (Precedence.ofToken token).rank →
      token.kind ≠ .openParen →
      ∃ operator : Operator, token.kind = operator.tokenKind ∧
        (Precedence.ofToken token).rank = operator.rank) ∧
    ∀ (declared : List String) (formula : Formula Literal),
      let outcome := parseWith declared formula.program
      (∀ diagnostic ∈ outcome.diagnostics, ¬"E1".toList <+: diagnostic.code.text.toList) ∧
        ∃ token condition opening,
          outcome.script.statements = [.conditional token condition (.mk opening []) none] ∧
            condition.words = formula.words ∧ condition.Climbs := by
  refine ⟨fun token binds notParen => exists_operator_of_binds binds notParen, ?_⟩
  intro declared formula outcome
  obtain ⟨mild, made⟩ := tracks_climbs.parse_program (by simp [Mild]) declared formula
  refine ⟨fun diagnostic inside => ?_, made⟩
  rw [← Code.isStructural_iff]
  exact mild diagnostic inside

end Climbing

end IRule
