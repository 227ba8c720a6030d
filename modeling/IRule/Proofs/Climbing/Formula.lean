import IRule.Proofs.RoundTrip.Expression

/-!
# Formulas

What can stand between the braces of a condition when it is made of operands, signs,
operators and parentheses. A formula says nothing about which operand belongs to which
operator: it is a term and a run of operators with terms behind them. `Expression.Climbs`
picks out the trees of literals in which every operator stands where its strength puts it.
-/

namespace IRule

open Lexeme (Breaks Spells)

/-! ## Operators -/

/-- Whatever binds two operands is an operator, apart from the parenthesis of a call. -/
theorem exists_operator_of_binds {token : Token}
    (binds : Precedence.lowest.rank < (Precedence.ofToken token).rank)
    (notParen : token.kind ≠ .openParen) :
    ∃ operator : Operator, token.kind = operator.tokenKind ∧
      (Precedence.ofToken token).rank = operator.rank := by
  suffices found : ∃ operator ∈ Operator.all, token.kind = operator.tokenKind ∧
      (Precedence.ofToken token).rank = operator.rank by
    obtain ⟨operator, -, same⟩ := found
    exact ⟨operator, same⟩
  by_cases plus : token.isPlus
  · have kind : token.kind = .word := by
      simp only [Token.isPlus, Bool.and_eq_true, beq_iff_eq] at plus
      exact plus.1
    simp only [kind, Precedence.ofToken, plus, if_true]
    decide
  · simp only [Precedence.ofToken, plus, Bool.false_eq_true, if_false] at binds ⊢
    split at binds <;> simp_all only [ne_eq, not_true_eq_false, lt_self_iff_false] <;> decide

theorem Operator.lowest_lt_rank (operator : Operator) :
    Precedence.lowest.rank < operator.rank := by
  cases operator <;> decide

/-! ## Trees -/

namespace Expression

/-- The tokens of a tree from left to right. A group ends with the parenthesis that its own
token opens. -/
def words : Expression → List String
  | .binary token left _ right => left.words ++ token.literal :: right.words
  | .unary token _ operand => token.literal :: operand.words
  | .group token inner => token.literal :: (inner.words ++ [")"])
  | other => [other.token.literal]

/-- Whether the tree can be the left operand of an operator of the given strength: its own
operator is at least as strong. -/
def FitsLeft (rank : Nat) : Expression → Prop
  | .binary token .. => rank ≤ (Precedence.ofToken token).rank
  | .unary .. => rank ≤ Precedence.unary.rank
  | _ => True

/-- Whether the tree can be the right operand of an operator of the given strength: its own
operator is stronger. -/
def FitsRight (rank : Nat) : Expression → Prop
  | .binary token .. => rank < (Precedence.ofToken token).rank
  | _ => True

/-- A tree of literals, signs, operators and groups that say what their tokens do, in which
every operator and every sign stands where its strength puts it. -/
def Climbs : Expression → Prop
  | .binary token left operator right =>
    token.literal = operator ∧ left.Climbs ∧ right.Climbs ∧
      left.FitsLeft (Precedence.ofToken token).rank ∧
      right.FitsRight (Precedence.ofToken token).rank
  | .unary token operator operand =>
    token.literal = operator ∧ operand.Climbs ∧ operand.FitsRight Precedence.unary.rank
  | .group _ inner => inner.Climbs
  | .number token value => Text.int64? token.literal.toList = some value
  | .boolean token value => token.literal = if value then "true" else "false"
  | .identifier token name isVariable _ => isVariable ∧ name = Parser.referenceName token.literal
  | _ => False

theorem length_words_pos (expression : Expression) : 0 < expression.words.length := by
  cases expression <;> simp [words]

/-- The operands in a tree of operators, signs and groups, from left to right. -/
def leaves : Expression → List Expression
  | .binary _ left _ right => left.leaves ++ right.leaves
  | .unary _ _ operand => operand.leaves
  | .group _ inner => inner.leaves
  | other => [other]

/-- A tree of one token is a leaf, which can be an operand of any operator. -/
theorem leaf_of_words {expression : Expression} {word : String}
    (single : expression.words = [word]) :
    expression.leaves = [expression] ∧
      ∀ rank, expression.FitsLeft rank ∧ expression.FitsRight rank := by
  have one : expression.words.length = 1 := by rw [single]; rfl
  cases expression with
  | binary token left operator right =>
    have read := left.length_words_pos
    simp only [words, List.length_append, List.length_cons] at one
    omega
  | unary token operator operand =>
    have read := operand.length_words_pos
    simp only [words, List.length_cons] at one
    omega
  | group token inner => simp [words] at one
  | _ => exact ⟨rfl, fun _ => ⟨trivial, trivial⟩⟩

end Expression

namespace Climbing

/-! ## Formulas -/

/-- Operands that are single tokens. -/
class Operand (α : Type) where
  /-- What is written. -/
  text : α → String
  starts : ∀ operand, (text operand).toList.head?.any Lexeme.startsOperand

/-- Signs in front of an operand. -/
inductive Sign where
  | bang
  | minus
  | asterisk

namespace Sign

/-- What is written. -/
def text : Sign → String
  | bang => "!"
  | minus => "-"
  | asterisk => "*"

/-- Kind of the token. -/
def tokenKind : Sign → TokenKind
  | bang => .bang
  | minus => .minus
  | asterisk => .asterisk

/-- A sign is one token in front of a blank. -/
theorem spells (sign : Sign) {braces brackets : Nat} {rest : List Char} :
    Spells braces brackets sign.text.toList (' ' :: rest) sign.tokenKind := by
  obtain ⟨bang, asterisk, minus⟩ : Spells braces brackets ['!'] (' ' :: rest) .bang ∧
      Spells braces brackets ['*'] (' ' :: rest) .asterisk ∧
      (' '.isDigit = false → Spells braces brackets ['-'] (' ' :: rest) .minus) :=
    Spells.sign (.inr rfl)
  cases sign with
  | bang => exact bang
  | minus => exact minus (by decide)
  | asterisk => exact asterisk

end Sign

mutual

/-- A term, and operators with terms behind it. -/
inductive Formula (α : Type) where
  | mk (first : Term α) (rest : Tail α)

/-- An operand and the signs in front of it. -/
inductive Term (α : Type) where
  | leaf (operand : α)
  | group (inner : Formula α)
  | signed (sign : Sign) (operand : Term α)

/-- Operators, each with the term behind it. -/
inductive Tail (α : Type) where
  | nil
  | cons (operator : Operator) (term : Term α) (rest : Tail α)

end

variable {α : Type}

mutual

/-- The operands of a formula, from left to right. -/
def Formula.leaves : Formula α → List α
  | .mk first rest => first.leaves ++ rest.leaves

/-- The operands of a term. -/
def Term.leaves : Term α → List α
  | .leaf operand => [operand]
  | .group inner => inner.leaves
  | .signed _ operand => operand.leaves

/-- The operands of the terms behind operators. -/
def Tail.leaves : Tail α → List α
  | .nil => []
  | .cons _ term rest => term.leaves ++ rest.leaves

end

/-! ## Strength -/

/-- Strength of the first operator, less than that of any operator if there is none. -/
def Tail.rank : Tail α → Nat
  | .nil => 0
  | .cons operator _ _ => operator.rank

theorem Tail.eq_nil_of_rank_le {tail : Tail α} (weak : tail.rank ≤ Precedence.lowest.rank) :
    tail = .nil := by
  cases tail with
  | nil => rfl
  | cons operator term rest => exact absurd weak (Nat.not_le.2 operator.lowest_lt_rank)

/-! ## Tokens -/

variable [Operand α]

mutual

/-- The tokens of a formula. -/
def Formula.words : Formula α → List String
  | .mk first rest => first.words ++ rest.words

/-- The tokens of a term. -/
def Term.words : Term α → List String
  | .leaf operand => [Operand.text operand]
  | .group inner => "(" :: (inner.words ++ [")"])
  | .signed sign operand => sign.text :: operand.words

/-- The tokens of operators and terms. -/
def Tail.words : Tail α → List String
  | .nil => []
  | .cons operator term rest => operator.text :: (term.words ++ rest.words)

end

theorem Term.words_ne_nil (term : Term α) : term.words ≠ [] := by
  cases term <;> simp [Term.words]

theorem Formula.words_ne_nil : (formula : Formula α) → formula.words ≠ []
  | .mk first rest => by simp [Formula.words, first.words_ne_nil]

/-! ## Texts -/

/-- A formula with a blank between any two tokens. -/
def Formula.text (formula : Formula α) : List Char :=
  (separated " " formula.words).toList

/-- A term with a blank between any two tokens. -/
def Term.text (term : Term α) : List Char :=
  (separated " " term.words).toList

/-- Operators and terms with a blank in front of every token. -/
def Tail.text (tail : Tail α) : List Char :=
  (followed " " tail.words).toList

@[simp]
theorem Formula.text_mk (first : Term α) (rest : Tail α) :
    (Formula.mk first rest).text = first.text ++ rest.text := by
  simp [Formula.text, Formula.words, Term.text, Tail.text, separated_append _ _ first.words_ne_nil]

@[simp]
theorem Term.text_leaf (operand : α) :
    (Term.leaf operand).text = (Operand.text operand).toList := by
  simp [Term.text, Term.words, separated]

@[simp]
theorem Term.text_group (inner : Formula α) :
    (Term.group inner).text = ['('] ++ ([' '] ++ (inner.text ++ [' ', ')'])) := by
  simp [Term.text, Term.words, Formula.text, separated_cons, followed_append,
    followed_eq_separated _ inner.words_ne_nil]

@[simp]
theorem Term.text_signed (sign : Sign) (operand : Term α) :
    (Term.signed sign operand).text = sign.text.toList ++ ([' '] ++ operand.text) := by
  simp [Term.text, Term.words, separated_cons, followed_eq_separated _ operand.words_ne_nil]

@[simp]
theorem Tail.text_nil : (Tail.nil : Tail α).text = [] := by
  simp [Tail.text, Tail.words]

@[simp]
theorem Tail.text_cons (operator : Operator) (term : Term α) (rest : Tail α) :
    (Tail.cons operator term rest).text =
      [' '] ++ (operator.text.toList ++ ([' '] ++ (term.text ++ rest.text))) := by
  simp [Tail.text, Tail.words, Term.text, followed_append,
    followed_eq_separated _ term.words_ne_nil]

theorem Term.startsOperand (term : Term α) : term.text.head?.any Lexeme.startsOperand := by
  cases term with
  | leaf operand => simpa using Operand.starts operand
  | group inner => simp [Lexeme.startsOperand]
  | signed sign operand =>
    cases sign <;>
      simp [Sign.text, Lexeme.startsOperand, Lexeme.startsPiece, Lexeme.startsLiteral]

theorem Formula.startsOperand : (formula : Formula α) →
    formula.text.head?.any Lexeme.startsOperand
  | .mk first rest => by
    rw [Formula.text_mk]
    exact Parser.startsOperand_append first.startsOperand

end Climbing

end IRule
