import IRule.Proofs.Climbing.Formula

/-!
# Reading formulas

An expression is read up to the first operator that is too weak for it, so what
is read of a term and the operators behind it is a tree of some of them, with
the rest left over. `Reaches` says so of one tree; it is shown of every term and
every run of operators, one constructor at a time, and then by recursion on
the number of tokens. What is known of a tree and what is reported meanwhile is
left open: `Tracks` says what both have to do with the operands.
-/

namespace IRule

namespace Climbing

open IRule.Parser

variable {setting : Setting} {rest : List Char}

/-! ## Problems -/

/-- Undeclared variables and operands that do not fit their operators are put up with. -/
structure Lenient (reported : List Diagnostic → Prop) : Prop where
  undeclared : ∀ diagnostics name line, reported diagnostics →
    reported (diagnostics ++ [(Problem.undeclaredVariable name).diagnostic line])
  operandTypes : ∀ diagnostics operator left right line, reported diagnostics →
    reported (diagnostics ++ [(Problem.operandTypes operator left right).diagnostic line])

namespace Lenient

variable {reported : List Diagnostic → Prop} (lenient : Lenient reported)

include lenient

/-- Whether the operands fit is reported, and the tree is made in any case. -/
theorem yields_joined {state : State} {token : Token} {left right : Expression}
    (awaits : state.Awaits reported setting rest) :
    Yields (joined token left right) state fun result last =>
      result = .binary token left token.literal right ∧ last.Awaits reported setting rest := by
  unfold joined
  by_cases accepts : acceptsOperands token.literal left right
  · simp only [accepts, if_true]
    exact .pure ⟨rfl, awaits⟩
  · simp only [accepts, Bool.false_eq_true, if_false, report, Yields.modify_bind]
    exact .pure ⟨rfl, awaits.record (lenient.operandTypes _ _ _ _ _ awaits.found)⟩

/-- A reference that was not declared is reported, and read in any case. -/
theorem yields_checkDeclared {state : State} {name : String} {line : Nat}
    (awaits : state.Awaits reported setting rest) :
    Yields (checkDeclared name line) state fun _ last =>
      last.Awaits reported setting rest := by
  simp only [checkDeclared, Yields.get_bind]
  split
  · exact ⟨(), _, rfl, awaits.record (lenient.undeclared _ _ _ awaits.found)⟩
  · exact .pure awaits

end Lenient

/-! ## Trees in front of operators -/

variable {α : Type} [Operand α] {holds : List α → Expression → Prop}
  {reported : List α → List Diagnostic → Prop}

/-- What holds of an operand holds of trees of operands, and what is reported once some
operands have been read is reported of the next one too. -/
structure Tracks (holds : List α → Expression → Prop)
    (reported : List α → List Diagnostic → Prop) : Prop where
  lenient : ∀ taken, Lenient (reported taken)
  operand : ∀ ⦃operand : α⦄ ⦃taken : List α⦄ ⦃setting : Setting⦄ ⦃state : State⦄
    ⦃gap rest : List Char⦄ ⦃spacing : Spacing⦄, Gap gap spacing →
    state.Awaits (reported taken) setting (gap ++ ((Operand.text operand).toList ++ rest)) →
    setting.Stops .operand rest →
    Yields (Parser.operand language) state.advance fun result last =>
      ∃ expression, result = some expression ∧ expression.words = [Operand.text operand] ∧
        holds [operand] expression ∧ last.Awaits (reported (taken ++ [operand])) setting rest
  unary : ∀ ⦃taken : List α⦄ ⦃token : Token⦄ ⦃inner : Expression⦄, holds taken inner →
    inner.FitsRight Precedence.unary.rank → holds taken (.unary token token.literal inner)
  group : ∀ ⦃taken : List α⦄ ⦃token : Token⦄ ⦃inner : Expression⦄, holds taken inner →
    holds taken (.group token inner)
  binary : ∀ ⦃first second : List α⦄ ⦃token : Token⦄ ⦃left right : Expression⦄,
    holds first left → holds second right → left.FitsLeft (Precedence.ofToken token).rank →
    right.FitsRight (Precedence.ofToken token).rank →
    holds (first ++ second) (.binary token left token.literal right)

section Trees

variable (holds) (reported)

/-- The tokens have been read up to `left` as a tree that can be the left operand of what
is left over. -/
structure Reaches (setting : Setting) (words : List String) (before leaves : List α)
    (rest : List Char) (expression : Expression) (left : Tail α) (last : State) : Prop where
  whole : expression.words ++ left.words = words
  fits : expression.FitsLeft left.rank
  read : ∃ taken, taken ++ left.leaves = leaves ∧ holds taken expression ∧
    last.Awaits (reported (before ++ taken)) setting (left.text ++ rest)

/-- A term is read with the given strength up to the first operator behind it that is too
weak. -/
def ReadsTerm (term : Term α) (tail : Tail α) : Prop :=
  ∀ ⦃setting : Setting⦄ ⦃state : State⦄ ⦃gap rest : List Char⦄ ⦃spacing : Spacing⦄
    ⦃precedence : Precedence⦄ ⦃before : List α⦄, Gap gap spacing →
    state.Awaits (reported before) setting (gap ++ (term.text ++ (tail.text ++ rest))) →
    (∀ rank, 0 < rank → setting.Follows rank rest) →
    Yields (language.expression precedence) state.advance fun result last =>
      ∃ expression left, result = some expression ∧ expression.FitsRight precedence.rank ∧
        left.rank ≤ precedence.rank ∧
        Reaches holds reported setting (term.words ++ tail.words) before
          (term.leaves ++ tail.leaves) rest expression left last

/-- A term is read as an operand, its signs with the operators that bind tighter. -/
def ReadsOperand (term : Term α) (tail : Tail α) : Prop :=
  ∀ ⦃setting : Setting⦄ ⦃state : State⦄ ⦃gap rest : List Char⦄ ⦃spacing : Spacing⦄
    ⦃before : List α⦄, Gap gap spacing →
    state.Awaits (reported before) setting (gap ++ (term.text ++ (tail.text ++ rest))) →
    (∀ rank, 0 < rank → setting.Follows rank rest) →
    Yields (operand language) state.advance fun result last =>
      ∃ expression left, result = some expression ∧ (∀ rank, expression.FitsRight rank) ∧
        Reaches holds reported setting (term.words ++ tail.words) before
          (term.leaves ++ tail.leaves) rest expression left last

/-- A tree in front of operators takes those that are strong enough. -/
def ReadsTail (tail : Tail α) : Prop :=
  ∀ ⦃setting : Setting⦄ ⦃state : State⦄ ⦃rest : List Char⦄ ⦃words : List String⦄
    ⦃before leaves : List α⦄ ⦃first : Expression⦄ ⦃precedence : Precedence⦄,
    Reaches holds reported setting words before leaves rest first tail state →
    first.FitsRight precedence.rank → (∀ rank, 0 < rank → setting.Follows rank rest) →
    Yields (language.operatorChain first precedence) state fun result last =>
      ∃ expression left, result = some expression ∧ expression.FitsRight precedence.rank ∧
        left.rank ≤ precedence.rank ∧
        Reaches holds reported setting words before leaves rest expression left last

end Trees

/-- Something was read, and less than all is left over. -/
theorem Reaches.length_lt {words : List String} {before leaves : List α} {expression : Expression}
    {left : Tail α} {last : State}
    (reaches : Reaches holds reported setting words before leaves rest expression left last) :
    left.words.length < words.length := by
  have read := expression.length_words_pos
  simp only [← reaches.whole, List.length_append]
  omega

/-- An operand is the first tree of an expression. -/
theorem ReadsOperand.term {term : Term α} {tail : Tail α}
    (reads : ReadsOperand holds reported term tail)
    (later : ∀ left : Tail α, left.words.length < (term.words ++ tail.words).length →
      ReadsTail holds reported left) : ReadsTerm holds reported term tail := by
  intro setting state gap rest spacing precedence before gapped awaits follows
  change Yields (language.parse (.expression precedence)) _ _
  refine .rule awaits.coherent.advance ?_
  change Yields (Parser.expression language precedence) _ _
  unfold Parser.expression
  refine (reads gapped awaits follows).bind ?_
  rintro _ next ⟨first, left, rfl, fits, reaches⟩
  exact later left reaches.length_lt reaches (fits _) follows

/-- A formula in front of what is no operator is read to its end. -/
theorem ReadsTerm.formula {first : Term α} {tail : Tail α}
    (reads : ReadsTerm holds reported first tail) {state : State} {gap : List Char}
    {spacing : Spacing} {before : List α} (gapped : Gap gap spacing)
    (awaits : state.Awaits (reported before) setting
      (gap ++ ((Formula.mk first tail).text ++ rest)))
    (follows : ∀ rank, 0 < rank → setting.Follows rank rest) :
    Yields (language.expression .lowest) state.advance fun result last =>
      ∃ expression, result = some expression ∧
        (expression.words = (Formula.mk first tail).words ∧
          holds (Formula.mk first tail).leaves expression) ∧
        last.Awaits (reported (before ++ (Formula.mk first tail).leaves)) setting rest := by
  rw [Formula.text_mk, List.append_assoc] at awaits
  refine (reads gapped awaits follows).mono ?_
  rintro _ last ⟨expression, left, rfl, -, weak, whole, -, taken, all, held, awaits⟩
  obtain rfl := Tail.eq_nil_of_rank_le weak
  obtain rfl : taken = (Formula.mk first tail).leaves := by
    simpa [Tail.leaves, Formula.leaves] using all
  exact ⟨expression, rfl, ⟨by simpa [Tail.words, Formula.words] using whole, held⟩,
    by simpa using awaits⟩

/-- No text of operators glues onto the operand in front of it. -/
theorem Tail.stops (tail : Tail α) (stops : setting.Stops .operand rest) :
    setting.Stops .operand (tail.text ++ rest) := by
  cases tail with
  | nil => simpa using stops
  | cons operator term later =>
    rw [Tail.text_cons]
    exact Setting.stops_space .operand

/-- A parenthesis behind a blank ends an expression. -/
theorem follows_space_closeParen {rank : Nat} (positive : 0 < rank) :
    setting.Follows rank (' ' :: ')' :: rest) where
  toStops := Setting.stops_space .operand
  weak := fun state faces => by
    have faced : state.Faces setting ([' '] ++ ([')'] ++ rest)) := faces
    obtain ⟨kind, -, apart, -⟩ := faced.token .space .closeParen
    refine .inr ⟨by simp [gluedNegative, kind], ?_⟩
    simp [Precedence.ofToken, Token.isPlus, kind, Precedence.rank]
    omega

/-! ## Operators -/

theorem readsTail_nil : ReadsTail holds reported .nil := by
  intro setting state rest words before leaves first precedence reaches fits follows
  have ⟨_, _, _, _, _, awaits⟩ := reaches
  have positive : 0 < precedence.rank := by cases precedence <;> decide
  exact yields_operatorChain_of_follows (follows _ positive) (by simpa using awaits)
    ⟨first, .nil, rfl, fits, Nat.zero_le _, reaches⟩

namespace Tracks

variable (tracks : Tracks holds reported) {term : Term α} {tail : Tail α}

include tracks

theorem readsTail_cons {operator : Operator} (reads : ReadsTerm holds reported term tail)
    (later : ∀ left : Tail α, left.words.length < (term.words ++ tail.words).length →
      ReadsTail holds reported left) : ReadsTail holds reported (.cons operator term tail) := by
  intro setting state rest words before leaves first precedence reaches fits follows
  have ⟨whole, fitsLeft, taken, all, held, awaits⟩ := reaches
  have faced : state.Awaits (reported (before ++ taken)) setting ([' '] ++
      (operator.text.toList ++ (' ' :: (term.text ++ (tail.text ++ rest))))) := by
    simpa using awaits
  by_cases weak : operator.rank ≤ precedence.rank
  · exact yields_operatorChain_of_follows (Setting.follows_operator weak) faced
      ⟨first, .cons operator term tail, rfl, fits, weak, reaches⟩
  · refine yields_operator faced term.startsOperand (Nat.not_le.1 weak) ?_
    intro next awaits text rank
    refine (reads .space awaits follows).mono ?_
    rintro _ last ⟨right, left, rfl, rightFits, leftWeak, reached⟩
    have shorter := reached.length_lt
    obtain ⟨rightWhole, -, more, rightAll, rightHeld, awaits⟩ := reached
    refine ⟨right, rfl, ((tracks.lenient _).yields_joined awaits).mono ?_⟩
    rintro _ final ⟨rfl, awaits⟩
    refine later left shorter ⟨?_, leftWeak, taken ++ more, ?_, ?_, ?_⟩ ?_ follows
    · simp [Expression.words, text, ← whole, Tail.words, ← rightWhole]
    · simp [← all, Tail.leaves, ← rightAll]
    · exact tracks.binary held rightHeld (rank ▸ fitsLeft) rightFits
    · simpa using awaits
    · exact (Nat.not_le.1 weak).trans_eq rank.symm

/-! ## Operands -/

theorem readsOperand_leaf {operand : α} : ReadsOperand holds reported (.leaf operand) tail := by
  intro setting state gap rest spacing before gapped awaits follows
  rw [Term.text_leaf] at awaits
  refine (tracks.operand gapped awaits (tail.stops (follows 1 one_pos).toStops)).mono ?_
  rintro _ last ⟨expression, rfl, single, held, awaits⟩
  have fits := (Expression.leaf_of_words single).2
  exact ⟨expression, tail, rfl, fun rank => (fits rank).2, by simp [single, Term.words],
    (fits _).1, [operand], rfl, held, awaits⟩

theorem readsOperand_signed {sign : Sign} (reads : ReadsTerm holds reported term tail) :
    ReadsOperand holds reported (.signed sign term) tail := by
  intro setting state gap rest spacing before gapped awaits follows
  simp only [Term.text_signed, List.append_assoc, List.singleton_append] at awaits
  obtain ⟨kind, spelled, -, signed⟩ := awaits.token gapped sign.spells
  have text : state.advance.current.literal = sign.text := by
    have notString : sign.tokenKind ≠ .string := by cases sign <;> decide
    rw [Lexeme.literalOf_eq _ notString, String.ofList_toList] at spelled
    exact spelled
  have same : setting.delimit sign.tokenKind = setting := by cases sign <;> rfl
  rw [same] at signed
  have here : state.advance.current.kind ∈ [.bang, .minus, .asterisk] := by
    have known : state.advance.current.kind = sign.tokenKind := kind
    rw [known]
    cases sign <;> decide
  have behind : state.advance.Awaits (reported before) setting
      ([' '] ++ (term.text ++ (tail.text ++ rest))) := signed
  refine yields_sign here (endsCommand_of_startsOperand behind .space rfl term.startsOperand) ?_
  refine (reads .space behind follows).mono ?_
  rintro _ last ⟨inner, left, rfl, fits, weak, whole, -, taken, all, held, awaits⟩
  refine ⟨inner, rfl, _, left, rfl, fun rank => trivial, ?_, weak, taken, all,
    tracks.unary held fits, awaits⟩
  simp [Expression.words, Term.words, text, whole]

theorem readsOperand_group {first : Term α} {inner : Tail α}
    (reads : ReadsTerm holds reported first inner) :
    ReadsOperand holds reported (.group (.mk first inner)) tail := by
  intro setting state gap rest spacing before gapped awaits follows
  have faced : state.Awaits (reported before) setting (gap ++ (['('] ++ ([' '] ++
      ((Formula.mk first inner).text ++ ([' '] ++ ([')'] ++ (tail.text ++ rest))))))) := by
    simpa using awaits
  obtain ⟨kind, spelled, -, opened⟩ := faced.token gapped .openParen
  have text : state.advance.current.literal = "(" := spelled
  refine (yields_group kind .space .space (Formula.startsOperand _) opened fun later awaits =>
    reads.formula .space awaits fun _ => follows_space_closeParen).mono ?_
  rintro _ last ⟨tree, rfl, ⟨words, held⟩, awaits⟩
  exact ⟨_, tail, rfl, fun rank => trivial, by simp [Expression.words, Term.words, text, words],
    trivial, _, rfl, tracks.group held, awaits⟩

/-! ## All terms -/

mutual

/-- Every term is read up to an operator that is too weak. -/
theorem readsTerm : (term : Term α) → (tail : Tail α) → ReadsTerm holds reported term tail
  | .leaf _, tail => tracks.readsOperand_leaf.term fun left _shorter => readsTail left
  | .group (.mk first inner), tail =>
    (tracks.readsOperand_group (readsTerm first inner)).term fun left _shorter => readsTail left
  | .signed sign operand, tail =>
    (tracks.readsOperand_signed (readsTerm operand tail)).term fun left _shorter => readsTail left
termination_by term tail => (term.words ++ tail.words).length
decreasing_by all_goals simp_all [Term.words, Formula.words]; try omega

/-- Every run of operators is taken up to one that is too weak. -/
theorem readsTail : (tail : Tail α) → ReadsTail holds reported tail
  | .nil => readsTail_nil
  | .cons _ term rest =>
    tracks.readsTail_cons (readsTerm term rest) fun left _shorter => readsTail left
termination_by tail => tail.words.length
decreasing_by all_goals simp_all [Tail.words]; try omega

end

end Tracks

end Climbing

end IRule
