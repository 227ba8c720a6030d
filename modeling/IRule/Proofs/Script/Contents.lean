import IRule.Proofs.Text.Integer
import IRule.Script.Printer

/-!
# What a script is made of

The tokens of a script, and the texts of an expression that stand on the line on which
it is written. The canonical text of an expression has a line feed only where one of
its texts has one, or where it holds an event handler: the body of a handler is written
on lines of its own.
-/

namespace IRule

/-! ## Tokens -/

/-- The token of a pattern, and of those that fall through to the same body. -/
def CasePattern.tokens : CasePattern → List Token
  | .one pattern => [pattern.token]
  | .several token patterns => token :: patterns.map Pattern.token

mutual

/-- Tokens in an expression. -/
def Expression.tokens : Expression → List Token
  | .identifier token .. | .invalid token .. | .number token .. | .string token ..
  | .boolean token .. | .address token .. | .regex token .. => [token]
  | .unary token _ operand => token :: operand.tokens
  | .binary token left _ right => token :: (left.tokens ++ right.tokens)
  | .group token inner => token :: inner.tokens
  | .computed token inner => token :: inner.tokens
  | .element token array key => token :: (array.tokens ++ key.tokens)
  | .call token function arguments => token :: (function.tokens ++ tokensOf arguments)
  | .invocation token name arguments => token :: (name.tokens ++ tokensOf arguments)
  | .bracket token commands => token :: tokensOf commands
  | .list token elements => token :: tokensOf elements
  | .hash token pairs => token :: pairTokens pairs
  | .mapping token pairs => token :: pairTokens pairs
  | .handler token event _ body => token :: (event.tokens ++ body.tokens)
  | .namespaced token _ _ arguments => token :: tokensOf arguments
  | .stringOperation token _ arguments => token :: tokensOf arguments
  | .classCommand token _ _ arguments => token :: tokensOf arguments
  | .regsub token _ pattern input replacement result =>
    token :: (pattern.tokens ++ (input.tokens ++ (replacement.tokens ++ result.tokens)))
  | .substitution token commands => token :: tokensOf commands
  | .interpolated token _ parts => token :: tokensOf parts
  | .target token _ arguments => token :: tokensOf arguments

/-- Tokens in a list of expressions. -/
def tokensOf : List Expression → List Token
  | [] => []
  | expression :: rest => expression.tokens ++ tokensOf rest

/-- Tokens in pairs of expressions. -/
def pairTokens : List (Expression × Expression) → List Token
  | [] => []
  | (first, second) :: rest => first.tokens ++ (second.tokens ++ pairTokens rest)

/-- Tokens in a statement. -/
def Statement.tokens : Statement → List Token
  | .set token name value => token :: (name.tokens ++ value.tokens)
  | .returning token none => [token]
  | .returning token (some value) => token :: value.tokens
  | .expression token value => token :: value.tokens
  | .block body => body.tokens
  | .conditional token condition consequence none =>
    token :: (condition.tokens ++ consequence.tokens)
  | .conditional token condition consequence (some alternative) =>
    token :: (condition.tokens ++ (consequence.tokens ++ alternative.tokens))
  | .switch token _ value cases => token :: (value.tokens ++ caseTokens cases)
  | .foreach token targets items body =>
    token :: (targets.tokens ++ (items.tokens ++ body.tokens))
  | .rule token name body => token :: (name.tokens ++ body.tokens)

/-- Tokens in statements. -/
def statementTokens : List Statement → List Token
  | [] => []
  | statement :: rest => statement.tokens ++ statementTokens rest

/-- Tokens in a block. -/
def Block.tokens : Block → List Token
  | .mk token statements => token :: statementTokens statements

/-- Tokens in the arms of a `switch`. -/
def caseTokens : List Case → List Token
  | [] => []
  | .mk token none body :: rest => token :: (body.tokens ++ caseTokens rest)
  | .mk token (some pattern) body :: rest =>
    token :: (pattern.tokens ++ (body.tokens ++ caseTokens rest))

end

/-- Tokens in a script. -/
def Script.tokens (script : Script) : List Token :=
  statementTokens script.statements

section Lists

theorem mem_tokensOf {token : Token} {expressions : List Expression} :
    token ∈ tokensOf expressions ↔ ∃ expression ∈ expressions, token ∈ expression.tokens := by
  induction expressions with
  | nil => simp [tokensOf]
  | cons expression rest ih => simp [tokensOf, ih]

theorem mem_pairTokens {token : Token} {pairs : List (Expression × Expression)} :
    token ∈ pairTokens pairs ↔
      ∃ pair ∈ pairs, token ∈ pair.1.tokens ∨ token ∈ pair.2.tokens := by
  induction pairs with
  | nil => simp [pairTokens]
  | cons pair rest ih =>
    obtain ⟨first, second⟩ := pair
    simp [pairTokens, ih, or_assoc]

theorem mem_caseTokens_append {token : Token} {first second : List Case} :
    token ∈ caseTokens (first ++ second) ↔
      token ∈ caseTokens first ∨ token ∈ caseTokens second := by
  induction first with
  | nil => simp [caseTokens]
  | cons arm rest ih =>
    obtain ⟨own, pattern, body⟩ := arm
    cases pattern <;> simp [caseTokens, ih, or_assoc]

end Lists

/-- A node starts at one of its tokens. -/
theorem Expression.token_mem_tokens (expression : Expression) :
    expression.token ∈ expression.tokens := by
  cases expression <;> simp [token, tokens]

/-! ## Texts -/

mutual

/-- Texts in an expression, apart from what is in the body of a handler. -/
def Expression.texts : Expression → List String
  | .identifier _ text _ _ | .invalid _ text | .string _ text | .address _ text
  | .regex _ text => [text]
  | .number .. | .boolean .. => []
  | .unary _ operator operand => operator :: operand.texts
  | .binary _ left operator right => operator :: (left.texts ++ right.texts)
  | .group _ inner => inner.texts
  | .computed _ inner => inner.texts
  | .element _ array key => array.texts ++ key.texts
  | .call _ function arguments => function.texts ++ textsOf arguments
  | .invocation _ name arguments => name.texts ++ textsOf arguments
  | .bracket _ commands => textsOf commands
  | .list _ elements => textsOf elements
  | .hash _ pairs => pairTexts pairs
  | .mapping _ pairs => pairTexts pairs
  | .handler _ event _ _ => event.texts
  | .namespaced _ _ command arguments => command :: textsOf arguments
  | .stringOperation _ operation arguments => operation :: textsOf arguments
  | .classCommand _ subcommand options arguments =>
    subcommand :: (options ++ textsOf arguments)
  | .regsub _ flags pattern input replacement result =>
    flags ++ (pattern.texts ++ (input.texts ++ (replacement.texts ++ result.texts)))
  | .substitution _ commands => textsOf commands
  | .interpolated _ _ parts => textsOf parts
  | .target _ _ arguments => textsOf arguments

/-- Texts in a list of expressions. -/
def textsOf : List Expression → List String
  | [] => []
  | expression :: rest => expression.texts ++ textsOf rest

/-- Texts in pairs of expressions. -/
def pairTexts : List (Expression × Expression) → List String
  | [] => []
  | (first, second) :: rest => first.texts ++ (second.texts ++ pairTexts rest)

end

mutual

/-- Whether an expression holds an event handler. -/
def Expression.embedsHandler : Expression → Bool
  | .identifier .. | .invalid .. | .string .. | .address .. | .regex .. | .number ..
  | .boolean .. => false
  | .unary _ _ operand => operand.embedsHandler
  | .binary _ left _ right => left.embedsHandler || right.embedsHandler
  | .group _ inner => inner.embedsHandler
  | .computed _ inner => inner.embedsHandler
  | .element _ array key => array.embedsHandler || key.embedsHandler
  | .call _ function arguments => function.embedsHandler || anyHandler arguments
  | .invocation _ name arguments => name.embedsHandler || anyHandler arguments
  | .bracket _ commands => anyHandler commands
  | .list _ elements => anyHandler elements
  | .hash _ pairs => anyPairHandler pairs
  | .mapping _ pairs => anyPairHandler pairs
  | .handler .. => true
  | .namespaced _ _ _ arguments => anyHandler arguments
  | .stringOperation _ _ arguments => anyHandler arguments
  | .classCommand _ _ _ arguments => anyHandler arguments
  | .regsub _ _ pattern input replacement result =>
    pattern.embedsHandler || (input.embedsHandler ||
      (replacement.embedsHandler || result.embedsHandler))
  | .substitution _ commands => anyHandler commands
  | .interpolated _ _ parts => anyHandler parts
  | .target _ _ arguments => anyHandler arguments

/-- Whether one of the expressions holds an event handler. -/
def anyHandler : List Expression → Bool
  | [] => false
  | expression :: rest => expression.embedsHandler || anyHandler rest

/-- Whether an expression of one of the pairs holds an event handler. -/
def anyPairHandler : List (Expression × Expression) → Bool
  | [] => false
  | (first, second) :: rest =>
    first.embedsHandler || (second.embedsHandler || anyPairHandler rest)

end

section Lists

theorem mem_textsOf {text : String} {expressions : List Expression} :
    text ∈ textsOf expressions ↔ ∃ expression ∈ expressions, text ∈ expression.texts := by
  induction expressions with
  | nil => simp [textsOf]
  | cons expression rest ih => simp [textsOf, ih]

theorem mem_pairTexts {text : String} {pairs : List (Expression × Expression)} :
    text ∈ pairTexts pairs ↔ ∃ pair ∈ pairs, text ∈ pair.1.texts ∨ text ∈ pair.2.texts := by
  induction pairs with
  | nil => simp [pairTexts]
  | cons pair rest ih =>
    obtain ⟨first, second⟩ := pair
    simp [pairTexts, ih, or_assoc]

end Lists

/-! ## Canonical text -/

/-- A line feed in texts that are joined on one line is one of a text. -/
theorem mem_separated {separator : String} {texts : List String}
    (oneLine : '\n' ∉ separator.toList) (mem : '\n' ∈ (separated separator texts).toList) :
    ∃ text ∈ texts, '\n' ∈ text.toList := by
  fun_induction separated separator texts with
  | case1 => simp at mem
  | case2 text => exact ⟨text, by simp, mem⟩
  | case3 text rest _ ih =>
    simp only [String.toList_append, List.mem_append, oneLine, or_false] at mem
    rcases mem with first | later
    · exact ⟨text, by simp, first⟩
    · obtain ⟨other, mem, inside⟩ := ih later
      exact ⟨other, by simp [mem], inside⟩

theorem mem_spacedWords {words : List String} (mem : '\n' ∈ (spacedWords words).toList) :
    ∃ word ∈ words, '\n' ∈ word.toList := by
  simp only [spacedWords, String.toList_join, List.mem_flatMap, List.mem_map] at mem
  obtain ⟨_, ⟨word, inside, rfl⟩, mem⟩ := mem
  exact ⟨word, inside, by simpa using mem⟩

/-- What makes a text take more than one line: one of its parts has a line feed, or an
event handler is among them. -/
def Spread (texts : List String) (handler : Bool) : Prop :=
  (∃ text ∈ texts, '\n' ∈ text.toList) ∨ handler = true

section Spread

variable {first second : List String} {left right : Bool}

theorem spread_cons {text : String} :
    Spread (text :: first) left ↔ '\n' ∈ text.toList ∨ Spread first left := by
  simp [Spread, or_assoc]

theorem spread_append :
    Spread (first ++ second) (left || right) ↔ Spread first left ∨ Spread second right := by
  simp only [Spread, List.mem_append, or_and_right, exists_or, Bool.or_eq_true]
  exact or_or_or_comm

/-- Words that are written without a handler among them. -/
theorem spread_words :
    Spread (first ++ second) right ↔
      (∃ text ∈ first, '\n' ∈ text.toList) ∨ Spread second right := by
  simp only [Spread, List.mem_append, or_and_right, exists_or, or_assoc]

end Spread

/-- What makes the canonical text of an expression take more than one line. -/
abbrev Expression.Spreads (expression : Expression) : Prop :=
  Spread expression.texts expression.embedsHandler

/-- One of the expressions takes more than one line. -/
abbrev AnySpreads (expressions : List Expression) : Prop :=
  Spread (textsOf expressions) (anyHandler expressions)

/-- An expression of one of the pairs takes more than one line. -/
abbrev AnyPairSpreads (pairs : List (Expression × Expression)) : Prop :=
  Spread (pairTexts pairs) (anyPairHandler pairs)

/-- A part of a string is written as it is, without quotes. -/
theorem mem_writtenParts {part : Expression} {rest : List Expression}
    (mem : '\n' ∈ (writtenParts (part :: rest)).toList) :
    (∃ text ∈ part.texts, '\n' ∈ text.toList) ∨ '\n' ∈ part.written.toList ∨
      '\n' ∈ (writtenParts rest).toList := by
  cases part with
  | string _ text =>
    rw [writtenParts, String.toList_append, List.mem_append] at mem
    exact mem.imp (by simp [Expression.texts]) .inr
  | identifier _ name isVariable _ =>
    rw [writtenParts, String.toList_append, List.mem_append] at mem
    refine mem.imp (fun inside => ⟨name, by simp [Expression.texts], ?_⟩) .inr
    split at inside
    · simpa [bracedReference] using inside
    · exact inside
  | _ => exact .inr (by simpa only [writtenParts, String.toList_append, List.mem_append] using mem)

mutual

/-- The canonical text of an expression takes more than one line only where a text in it
does, or where it holds an event handler. -/
theorem Expression.spreads_of_written : (expression : Expression) →
    '\n' ∈ expression.written.toList → expression.Spreads
  | .identifier _ name isVariable _, mem => by
    refine .inl ⟨name, by simp [Expression.texts], ?_⟩
    simp only [Expression.written, referenceText, bracedReference] at mem
    split at mem
    · split at mem <;> simpa using mem
    · exact mem
  | .invalid _ text, mem | .string _ text, mem | .address _ text, mem | .regex _ text, mem => by
    refine .inl ⟨text, by simp [Expression.texts], ?_⟩
    simpa [Expression.written] using mem
  | .number _ value, mem => by
    rw [Expression.written] at mem
    exact absurd mem (Text.toString_oneLine _)
  | .boolean _ value, mem => by cases value <;> simp [Expression.written] at mem
  | .unary _ operator operand, mem => by
    have mem : '\n' ∈ operator.toList ∨ '\n' ∈ operand.written.toList := by
      simp only [Expression.written] at mem
      split at mem
      · exact .inr (by simpa using mem)
      · simpa using mem
    exact spread_cons.2 (mem.imp_right operand.spreads_of_written)
  | .binary _ left operator right, mem => by
    have mem : '\n' ∈ operator.toList ∨ '\n' ∈ left.written.toList ∨
        '\n' ∈ right.written.toList := by
      simp [Expression.written] at mem
      tauto
    exact spread_cons.2 (mem.imp_right fun mem =>
      spread_append.2 (mem.imp left.spreads_of_written right.spreads_of_written))
  | .group _ inner, mem | .computed _ inner, mem =>
    inner.spreads_of_written (by simpa [Expression.written] using mem)
  | .element _ array key, mem => by
    simp [Expression.written] at mem
    exact spread_append.2 (mem.imp array.spreads_of_written key.spreads_of_written)
  | .call _ function arguments, mem => by
    simp [Expression.written] at mem
    exact spread_append.2 (mem.imp function.spreads_of_written fun mem =>
      spreads_of_writtenAll arguments (mem_separated (by simp) mem))
  | .invocation _ name arguments, mem => by
    simp [Expression.written] at mem
    exact spread_append.2 (mem.imp name.spreads_of_written fun mem =>
      spreads_of_writtenAll arguments (mem_spacedWords mem))
  | .bracket _ commands, mem | .list _ commands, mem | .substitution _ commands, mem => by
    simp [Expression.written] at mem
    exact spreads_of_writtenAll commands (mem_separated (by simp) mem)
  | .hash _ pairs, mem => by
    simp [Expression.written] at mem
    exact spreads_of_writtenPairs ": " (by simp) pairs (mem_separated (by simp) mem)
  | .mapping _ pairs, mem => by
    simp [Expression.written] at mem
    exact spreads_of_writtenPairs " " (by simp) pairs (mem_separated (by simp) mem)
  | .handler .., _ => .inr rfl
  | .namespaced _ _ command arguments, mem | .stringOperation _ command arguments, mem => by
    simp [Expression.written] at mem
    exact spread_cons.2 (mem.imp_right fun mem =>
      spreads_of_writtenAll arguments (mem_spacedWords mem))
  | .classCommand _ subcommand options arguments, mem => by
    simp [Expression.written] at mem
    exact spread_cons.2 (mem.imp_right fun mem => spread_words.2
      (mem.imp mem_spacedWords fun mem => spreads_of_writtenAll arguments (mem_spacedWords mem)))
  | .regsub _ flags pattern input replacement result, mem => by
    simp [Expression.written] at mem
    refine spread_words.2 (mem.imp mem_spacedWords fun mem => spread_append.2 ?_)
    refine mem.imp pattern.spreads_of_written fun mem => spread_append.2 ?_
    refine mem.imp input.spreads_of_written fun mem => spread_append.2 ?_
    exact mem.imp replacement.spreads_of_written result.spreads_of_written
  | .interpolated _ _ parts, mem =>
    spreads_of_writtenParts parts (by simpa [Expression.written] using mem)
  | .target _ kind arguments, mem => by
    have selected : '\n' ∉ kind.keyword.toList := by cases kind <;> decide
    simp [Expression.written, selected] at mem
    exact spreads_of_writtenAll arguments (mem_spacedWords mem)

theorem spreads_of_writtenAll : (expressions : List Expression) →
    (∃ text ∈ writtenAll expressions, '\n' ∈ text.toList) → AnySpreads expressions
  | [], mem => by simp [writtenAll] at mem
  | expression :: rest, mem => by
    simp only [writtenAll, List.exists_mem_cons_iff] at mem
    exact spread_append.2 (mem.imp expression.spreads_of_written (spreads_of_writtenAll rest))

theorem spreads_of_writtenPairs (separator : String) (oneLine : '\n' ∉ separator.toList) :
    (pairs : List (Expression × Expression)) →
    (∃ text ∈ writtenPairs separator pairs, '\n' ∈ text.toList) → AnyPairSpreads pairs
  | [], mem => by simp [writtenPairs] at mem
  | (first, second) :: rest, mem => by
    simp only [writtenPairs, List.exists_mem_cons_iff, String.toList_append, List.mem_append,
      oneLine, or_false, or_assoc] at mem
    refine spread_append.2 (mem.imp first.spreads_of_written fun mem => spread_append.2 ?_)
    exact mem.imp second.spreads_of_written (spreads_of_writtenPairs separator oneLine rest)

theorem spreads_of_writtenParts : (parts : List Expression) →
    '\n' ∈ (writtenParts parts).toList → AnySpreads parts
  | [], mem => by simp [writtenParts] at mem
  | part :: rest, mem => by
    refine spread_append.2 ?_
    rcases mem_writtenParts mem with text | first | later
    · exact .inl (.inl text)
    · exact .inl (part.spreads_of_written first)
    · exact .inr (spreads_of_writtenParts rest later)

end

end IRule
