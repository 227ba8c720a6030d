import IRule.Parser.Problem
import IRule.Proofs.Parser.Placement
import IRule.Proofs.Script.Contents

/-!
# Lines and texts of a rule

A rule has one line more than it has line feeds. Nodes are drawn from a rule when their
tokens have lines of it and their texts no line feeds unless the rule has some; a text
that takes more than one line in a message is quoted from the rule as it stands there,
or is the canonical text of a node. A diagnostic is fair when it has a line of the rule
and its message keeps to that.
-/

namespace IRule

open Text

/-- Whether a line is one of the text. Lines count from 1. -/
def HasLine (whole : List Char) (line : Nat) : Prop :=
  1 ≤ line ∧ line ≤ whole.count '\n' + 1

/-- A text that takes more than one line stands in `whole`. -/
def Quotes (whole : List Char) (text : String) : Prop :=
  '\n' ∈ text.toList → text.toList <:+: whole

section Quotes

variable {whole : List Char} {text : String}

theorem quotes_of_oneLine (oneLine : '\n' ∉ text.toList) : Quotes whole text :=
  fun inside => absurd inside oneLine

theorem quotes_of_stands (stands : text.toList <:+: whole) : Quotes whole text :=
  fun _ => stands

/-- Only a text with line feeds can be quoted in one that takes more than one line. -/
theorem Quotes.lineFeed (quotes : Quotes whole text) (inside : '\n' ∈ text.toList) :
    '\n' ∈ whole :=
  (quotes inside).subset inside

end Quotes

/-! ## Nodes -/

/-- The tokens have lines of the text. -/
def OnLines (whole : List Char) (tokens : List Token) : Prop :=
  ∀ token ∈ tokens, HasLine whole token.line

/-- The texts have no line feeds unless the whole has some. -/
def KeepsLines (whole : List Char) (texts : List String) : Prop :=
  ∀ text ∈ texts, '\n' ∈ text.toList → '\n' ∈ whole

section Lists

variable {whole : List Char}

@[simp]
theorem onLines_nil : OnLines whole [] := by simp [OnLines]

@[simp]
theorem onLines_cons {token : Token} {tokens : List Token} :
    OnLines whole (token :: tokens) ↔ HasLine whole token.line ∧ OnLines whole tokens :=
  List.forall_mem_cons

@[simp]
theorem onLines_append {first second : List Token} :
    OnLines whole (first ++ second) ↔ OnLines whole first ∧ OnLines whole second :=
  List.forall_mem_append

@[simp]
theorem keepsLines_nil : KeepsLines whole [] := by simp [KeepsLines]

@[simp]
theorem keepsLines_cons {text : String} {texts : List String} :
    KeepsLines whole (text :: texts) ↔
      ('\n' ∈ text.toList → '\n' ∈ whole) ∧ KeepsLines whole texts :=
  List.forall_mem_cons

@[simp]
theorem keepsLines_append {first second : List String} :
    KeepsLines whole (first ++ second) ↔ KeepsLines whole first ∧ KeepsLines whole second :=
  List.forall_mem_append

end Lists

namespace Expression

/-- The tokens and texts of the node come from the text. -/
structure DrawnFrom (whole : List Char) (expression : Expression) : Prop where
  lines : OnLines whole expression.tokens
  texts : KeepsLines whole expression.texts

/-- A node that may stand as a word: its text, if it is literal, is quoted from the text. -/
structure WordFrom (whole : List Char) (expression : Expression) : Prop
    extends DrawnFrom whole expression where
  word : ∀ text ∈ expression.wordText?, Quotes whole text

/-- Nodes that are a single token with a text that is quoted. -/
theorem wordFrom_leaf {whole : List Char} {expression : Expression} {token : Token}
    {text : String} (real : HasLine whole token.line) (quotes : Quotes whole text)
    (single : expression.tokens = [token]) (texts : ∀ other ∈ expression.texts, other = text)
    (word : ∀ other ∈ expression.wordText?, other = text) : expression.WordFrom whole where
  lines := by simpa [single] using real
  texts := fun other mem => texts other mem ▸ quotes.lineFeed
  word := fun other mem => word other mem ▸ quotes

/-- Nodes without literal text. -/
theorem WordFrom.of_node {whole : List Char} {expression : Expression}
    (lines : OnLines whole expression.tokens) (texts : KeepsLines whole expression.texts)
    (silent : expression.wordText? = none) : expression.WordFrom whole :=
  ⟨⟨lines, texts⟩, by simp [silent]⟩

theorem WordFrom.line {whole : List Char} {expression : Expression}
    (word : expression.WordFrom whole) : HasLine whole expression.token.line :=
  word.lines _ expression.token_mem_tokens

end Expression

/-- All nodes are drawn from the text. -/
def AllDrawn (whole : List Char) (expressions : List Expression) : Prop :=
  ∀ expression ∈ expressions, expression.DrawnFrom whole

/-- All nodes are words from the text. -/
def AllWords (whole : List Char) (expressions : List Expression) : Prop :=
  ∀ expression ∈ expressions, expression.WordFrom whole

section Lists

variable {whole : List Char} {expressions : List Expression}

theorem AllWords.drawn (words : AllWords whole expressions) : AllDrawn whole expressions :=
  fun expression mem => (words expression mem).toDrawnFrom

theorem AllDrawn.onLines (drawn : AllDrawn whole expressions) :
    OnLines whole (tokensOf expressions) := by
  intro token mem
  obtain ⟨expression, inside, mem⟩ := mem_tokensOf.1 mem
  exact (drawn expression inside).lines token mem

theorem AllDrawn.keepsLines (drawn : AllDrawn whole expressions) :
    KeepsLines whole (textsOf expressions) := by
  intro text mem
  obtain ⟨expression, inside, mem⟩ := mem_textsOf.1 mem
  exact (drawn expression inside).texts text mem

@[simp]
theorem allWords_nil : AllWords whole [] := by simp [AllWords]

@[simp]
theorem allDrawn_nil : AllDrawn whole [] := by simp [AllDrawn]

@[simp]
theorem allDrawn_append {first second : List Expression} :
    AllDrawn whole (first ++ second) ↔ AllDrawn whole first ∧ AllDrawn whole second :=
  List.forall_mem_append

@[simp]
theorem allDrawn_singleton {expression : Expression} :
    AllDrawn whole [expression] ↔ expression.DrawnFrom whole := by
  simp [AllDrawn]

theorem onLines_conditional {token : Token} {condition : Expression} {consequence : Block}
    {alternative : Option Statement} :
    OnLines whole (Statement.conditional token condition consequence alternative).tokens ↔
      HasLine whole token.line ∧ OnLines whole condition.tokens ∧
        OnLines whole consequence.tokens ∧
        ∀ statement ∈ alternative, OnLines whole statement.tokens := by
  cases alternative <;> simp [Statement.tokens]

theorem onLines_caseTokens_append {first second : List Case} :
    OnLines whole (caseTokens (first ++ second)) ↔
      OnLines whole (caseTokens first) ∧ OnLines whole (caseTokens second) := by
  simp only [OnLines, mem_caseTokens_append, or_imp, forall_and]

theorem pairs_onLines {pairs : List (Expression × Expression)}
    (words : ∀ pair ∈ pairs, pair.1.WordFrom whole ∧ pair.2.WordFrom whole) :
    OnLines whole (pairTokens pairs) := by
  intro token mem
  obtain ⟨pair, inside, mem⟩ := mem_pairTokens.1 mem
  obtain ⟨first, second⟩ := words pair inside
  exact mem.elim (first.lines token) (second.lines token)

theorem pairs_keepsLines {pairs : List (Expression × Expression)}
    (words : ∀ pair ∈ pairs, pair.1.WordFrom whole ∧ pair.2.WordFrom whole) :
    KeepsLines whole (pairTexts pairs) := by
  intro text mem
  obtain ⟨pair, inside, mem⟩ := mem_pairTexts.1 mem
  obtain ⟨first, second⟩ := words pair inside
  exact mem.elim (first.texts text) (second.texts text)

/-- One more word, if it was kept, in front of those that were read later. -/
theorem AllWords.collect {result : Option Expression} (later : AllWords whole expressions)
    (first : ∀ value ∈ result, value.WordFrom whole) :
    AllWords whole (result.toList ++ expressions) := by
  refine List.forall_mem_append.2 ⟨fun value mem => ?_, later⟩
  exact first value (Option.mem_toList.1 mem)

end Lists

/-! ## Problems -/

namespace Problem

/-- Texts that the message of a problem quotes. -/
def quoted : Problem → List String
  | numberRange text | unexpected text | leftover text | strayInCondition text
  | strayInSwitch text | expected _ text | missingOperand text | notAnOperand text
  | missingBlock _ text | invalidIdentifier text | invalidVariable text | invalidHeader text
  | undeclaredVariable text | invalidEvent text | setWithoutValue text
  | stringArguments text _ _ | classArguments text _ | targetArguments text | switchOption text
  | regsubFlag text | stringOperation text | classSubcommand text | classOption text => [text]
  | setExtraWords name value => [name, value]
  | classOperator subcommand operator => [subcommand, operator]
  | operandTypes operator left right => [operator, left, right]
  | emptyCondition | emptyGroup | emptyIndex | unclosed .. | unbalanced _ | missingBody
  | setWithoutName | regsubArguments _ | missingStringOperation | missingSubcommand
  | conflict _ => []

/-- Whether a problem quotes nodes, by their canonical text. -/
def quotesNodes : Problem → Bool
  | setWithoutValue _ | setExtraWords .. => true
  | _ => false

/-- The texts that the problem quotes come from the text. -/
def Told (whole : List Char) (problem : Problem) : Prop :=
  ∀ text ∈ problem.quoted, Quotes whole text ∨
    problem.quotesNodes ∧ ∃ node : Expression, text = node.written ∧ node.DrawnFrom whole

/-- Why the message of a problem takes more than one line: it quotes a text that takes
more than one line in the rule, or the canonical text of a node, and then the rule has
more than one line or an event handler is in the node. -/
def Spans (whole : List Char) (problem : Problem) : Prop :=
  ∃ text ∈ problem.quoted, '\n' ∈ text.toList ∧
    (text.toList <:+: whole ∨
      problem.quotesNodes ∧ ∃ node : Expression, text = node.written ∧
        ('\n' ∈ whole ∨ node.embedsHandler = true))

section Told

variable {whole : List Char} {problem : Problem}

theorem Told.of_quotes (quotes : ∀ text ∈ problem.quoted, Quotes whole text) :
    problem.Told whole :=
  fun text mem => .inl (quotes text mem)

theorem Told.silent (silent : problem.quoted = []) : problem.Told whole :=
  .of_quotes (by simp [silent])

theorem Told.one {text : String} (single : problem.quoted = [text]) (quotes : Quotes whole text) :
    problem.Told whole :=
  .of_quotes (by simpa [single] using quotes)

/-- A problem that quotes nodes, all drawn from the rule. -/
theorem Told.nodes (nodes : List Expression) (quotes : problem.quotesNodes = true)
    (quoted : problem.quoted = nodes.map Expression.written) (drawn : AllDrawn whole nodes) :
    problem.Told whole := by
  intro text mem
  rw [quoted] at mem
  obtain ⟨node, inside, rfl⟩ := List.mem_map.1 mem
  exact .inr ⟨quotes, node, rfl, drawn node inside⟩

end Told

/-- The wording of a problem is on one line; what it quotes may not be. -/
theorem message_lineFeed (problem : Problem) :
    '\n' ∈ problem.message.toList ↔ ∃ text ∈ problem.quoted, '\n' ∈ text.toList := by
  cases problem with
  | unexpected text =>
    change '\n' ∈ (_ ++ text : String).toList ↔ _
    simp [quoted]
  | numberRange text | leftover text | strayInCondition text | strayInSwitch text
  | missingOperand text | notAnOperand text | invalidIdentifier text | invalidVariable text
  | invalidHeader text | undeclaredVariable text | invalidEvent text | setWithoutValue text
  | targetArguments text | switchOption text | regsubFlag text | stringOperation text
  | classSubcommand text | classOption text =>
    change '\n' ∈ (_ ++ text ++ _ : String).toList ↔ _
    simp [quoted]
  | expected what found =>
    have named : '\n' ∉ what.text.toList := by cases what <;> simp [Expectation.text]
    change '\n' ∈ (_ ++ what.text ++ _ ++ found : String).toList ↔ _
    simp [quoted, named]
  | missingBlock head found =>
    have named : '\n' ∉ head.text.toList := by cases head <;> simp [BlockHead.text]
    change '\n' ∈ (_ ++ head.text ++ _ ++ found : String).toList ↔ _
    simp [quoted, named]
  | unclosed what line =>
    have named : '\n' ∉ what.text.toList := by cases what <;> simp [Unclosed.text]
    change '\n' ∈ (what.text ++ _ ++ toString line : String).toList ↔ _
    simp [quoted, named]
  | unbalanced depth =>
    change '\n' ∈ (_ ++ toString depth : String).toList ↔ _
    simpa [quoted] using toString_oneLine depth
  | conflict refusal =>
    have named (set : Exclusives) : '\n' ∉ set.commandName.toList := by
      unfold Exclusives.commandName
      split_ifs <;> simp
    change '\n' ∈ (_ ++ Exclusives.commandName _ ++ _ ++ Exclusives.commandName _ ++ _ :
      String).toList ↔ _
    simp [quoted, named]
  | regsubArguments given =>
    change '\n' ∈ (_ ++ toString given : String).toList ↔ _
    simp [quoted]
  | setExtraWords name value =>
    change '\n' ∈ (_ ++ name ++ _ ++ value ++ _ : String).toList ↔ _
    simp [quoted]
  | stringArguments operation least given =>
    change '\n' ∈ (_ ++ operation ++ _ ++ toString least ++ _ ++ toString given : String).toList ↔ _
    simp [quoted]
  | classArguments subcommand given =>
    change '\n' ∈ (_ ++ subcommand ++ _ ++ toString given ++ _ : String).toList ↔ _
    simp [quoted]
  | classOperator subcommand operator =>
    change '\n' ∈ (_ ++ subcommand ++ _ ++ operator ++ _ : String).toList ↔ _
    simp [quoted]
  | operandTypes operator left right =>
    change '\n' ∈ (_ ++ operator ++ _ ++ left ++ _ ++ right : String).toList ↔ _
    simp [quoted]
  | emptyCondition | emptyGroup | emptyIndex | missingBody | setWithoutName
  | missingStringOperation | missingSubcommand => decide

/-- A problem that quotes more than one line takes more than one line. -/
theorem Spans.message {whole : List Char} {problem : Problem} (spans : problem.Spans whole) :
    '\n' ∈ problem.message.toList := by
  obtain ⟨text, mem, inside, -⟩ := spans
  exact problem.message_lineFeed.2 ⟨text, mem, inside⟩

/-- What comes from the rule takes more than one line only for a reason. -/
theorem Told.spans {whole : List Char} {problem : Problem} (told : problem.Told whole)
    (inside : '\n' ∈ problem.message.toList) : problem.Spans whole := by
  obtain ⟨text, mem, inside⟩ := problem.message_lineFeed.1 inside
  refine ⟨text, mem, inside, ?_⟩
  rcases told text mem with quotes | ⟨nodes, node, rfl, drawn⟩
  · exact .inl (quotes inside)
  · refine .inr ⟨nodes, node, rfl, ?_⟩
    rcases node.spreads_of_written inside with ⟨text, mem, inside⟩ | handler
    · exact .inl (drawn.texts text mem inside)
    · exact .inr handler

end Problem

/-! ## Diagnostics -/

/-- The diagnostic is about a problem that takes more than one line, for a reason. -/
def Diagnostic.Spans (whole : List Char) (diagnostic : Diagnostic) : Prop :=
  ∃ problem line, diagnostic = Problem.diagnostic problem line ∧ problem.Spans whole

/-- The diagnostic has a line of the text, and takes more than one line only for a reason. -/
structure Diagnostic.Fair (whole : List Char) (diagnostic : Diagnostic) : Prop where
  line : ∃ line, diagnostic.line = some line ∧ HasLine whole line
  notes : diagnostic.notes = []
  spans : '\n' ∈ diagnostic.message.toList → diagnostic.Spans whole

section Fair

variable {whole : List Char} {line : Nat}

/-- An error at a line of the text. -/
theorem Diagnostic.error_line (code : Code) (message : String) (real : HasLine whole line) :
    (Diagnostic.error code message line).line = some line := by
  have positive : line ≠ 0 := by
    have := real.1
    omega
  simp [error, atLine, positive]

theorem Diagnostic.error_notes (code : Code) (message : String) (line : Nat) :
    (Diagnostic.error code message line).notes = [] := by
  unfold error atLine
  split <;> rfl

theorem Problem.Told.fair {problem : Problem} (told : problem.Told whole)
    (real : HasLine whole line) : (problem.diagnostic line).Fair whole where
  line := ⟨line, Diagnostic.error_line _ _ real, real⟩
  notes := Diagnostic.error_notes _ _ _
  spans := by
    intro inside
    rw [diagnostic, Diagnostic.error_message] at inside
    exact ⟨problem, line, rfl, told.spans inside⟩

/-- Errors with a message on one line. -/
theorem Diagnostic.fair_of_oneLine {diagnostic : Diagnostic} {line : Nat}
    (stamped : diagnostic.line = some line) (real : HasLine whole line)
    (notes : diagnostic.notes = []) (oneLine : '\n' ∉ diagnostic.message.toList) :
    diagnostic.Fair whole :=
  ⟨⟨line, stamped, real⟩, notes, fun inside => absurd inside oneLine⟩

end Fair

end IRule
