import IRule.Proofs.Parser.Declarations
import IRule.Proofs.Parser.Embedding

/-!
# Snippets are sealed

The body of a braced word and the scripts in a string are read by parsers of their
own. `Settled` says what such a parser leaves to the one around it: what was made of
the snippet and the variables declared in it, or, once a problem was found in it, its
text and nothing else. Braced words and strings report nothing besides, except for a
brace that is never closed.
-/

namespace IRule.Parser

/-- Nothing has changed but the place in the text. -/
structure Moved (first last : State) : Prop where
  diagnostics : last.diagnostics = first.diagnostics
  declared : last.declared = first.declared
  nesting : last.nesting = first.nesting
  scopes : last.scopes = first.scopes
  checked : last.checkVariables = first.checkVariables

namespace Moved

variable {first middle last : State}

theorem refl (state : State) : Moved state state := ⟨rfl, rfl, rfl, rfl, rfl⟩

theorem trans (left : Moved first middle) (right : Moved middle last) : Moved first last where
  diagnostics := right.diagnostics.trans left.diagnostics
  declared := right.declared.trans left.declared
  nesting := right.nesting.trans left.nesting
  scopes := right.scopes.trans left.scopes
  checked := right.checked.trans left.checked

theorem advance (state : State) : Moved state state.advance := ⟨rfl, rfl, rfl, rfl, rfl⟩

end Moved

/-- How a snippet ends whose parser ended in `inner`. Without a problem what was made of
it is kept, and the variables declared behind it are those of the snippet, which knows
the ones declared before. Otherwise its text is kept and the parser around it is left as
it was. -/
inductive Settled {α : Type} (state inner : State) (made raw : α) : α → State → Prop where
  | clean {names : List String} (quiet : inner.diagnostics = [])
      (kept : state.declared ⊆ names) (exactly : ∀ name, name ∈ names ↔ name ∈ inner.declared) :
      Settled state inner made raw made { state with declared := names }
  | broken (problems : inner.diagnostics ≠ []) : Settled state inner made raw raw state

/-- Nothing but the declared variables can change. -/
theorem Settled.unchanged {α : Type} {state inner last : State} {made raw result : α}
    (settled : Settled state inner made raw result last) :
    last = { state with declared := last.declared } := by
  cases settled <;> rfl

theorem keepIfClean_settled {α : Type} {state inner last : State} {made raw result : α}
    (known : state.declared ⊆ inner.declared)
    (runs : keepIfClean inner made raw state = some (result, last)) :
    Settled state inner made raw result last := by
  unfold keepIfClean at runs
  by_cases quiet : inner.diagnostics = []
  · rw [if_pos (by simpa using quiet)] at runs
    obtain ⟨_, _, absorbed, runs⟩ := bind_eq_some runs
    cases absorbed
    cases runs
    have absorbs : state.absorb inner =
        { state with declared := Naming.addAll state.declared inner.declared } := by
      simp [State.absorb, quiet]
    change Settled state inner made raw made (state.absorb inner)
    rw [absorbs]
    refine .clean quiet (fun _ before => Naming.mem_addAll _ before) fun name => ?_
    rw [Naming.mem_addAll_iff]
    constructor
    · rintro (before | inside)
      · exact known before
      · exact inside
    · exact .inr
  · rw [if_neg (by simpa using quiet)] at runs
    cases runs
    exact .broken quiet

/-! ## Braced words -/

/-- Dropping the rest of the input leaves nothing behind. -/
theorem drain_moved {steps : Nat} {state last : State}
    (runs : unfold steps .drain state = some ((), last)) : Moved state last := by
  induction steps generalizing state with
  | zero => cases runs
  | succ steps ih =>
    change drain ⟨unfold steps⟩ state = _ at runs
    unfold drain at runs
    rw [isAhead_bind_apply] at runs
    split at runs
    · cases runs
      exact .refl _
    · rw [advance_bind_apply] at runs
      exact (Moved.advance state).trans (ih runs)

/-- The report of a brace that is never closed. -/
def State.unclosedBrace (state : State) : Diagnostic :=
  (Problem.unclosed .bracedWord state.current.line).diagnostic state.current.line

theorem State.unclosedBrace_code (state : State) : state.unclosedBrace.code = .missingBrace := by
  simp [unclosedBrace, Problem.diagnostic, Problem.code, Unclosed.code]

/-- A braced word is taken verbatim, or its brace is reported. -/
theorem captureBrace_cases {steps : Nat} {state last : State} {result : Option (List Char)}
    (runs : captureBrace ⟨unfold steps⟩ state = some (result, last)) :
    state.lexer.capture? state.current = none ∧ result = none ∧
        Moved (state.record state.unclosedBrace) last ∨
      ∃ word lexer, state.lexer.capture? state.current = some (word, lexer) ∧
        result = some word.body ∧ last = state.afterCapture word lexer := by
  unfold captureBrace at runs
  rw [get_bind_apply] at runs
  cases captured : state.lexer.capture? state.current with
  | none =>
    simp only [captured] at runs
    obtain ⟨_, _, reported, runs⟩ := bind_eq_some runs
    cases reported
    obtain ⟨_, _, drained, runs⟩ := bind_eq_some runs
    cases runs
    exact .inl ⟨rfl, rfl, drain_moved drained⟩
  | some found =>
    obtain ⟨word, lexer⟩ := found
    simp only [captured] at runs
    obtain ⟨_, _, moved, runs⟩ := bind_eq_some runs
    cases moved
    cases runs
    exact .inr ⟨word, lexer, rfl, rfl, rfl⟩

/-- A braced word whose body is kept as it is. -/
def rawList (opening : Token) (body : List Char) : Expression :=
  .list opening
    [bareWord ⟨.word, String.ofList body, opening.line, opening.span, .none⟩ (String.ofList body)]

/-- How a braced word is read: without its closing brace it is reported and nothing is
made of it; otherwise the parser of its body decides. -/
inductive Braced (grammar : Grammar) (state : State) : Option Expression → State → Prop where
  | unclosed {last : State} (absent : state.lexer.capture? state.current = none)
      (moved : Moved (state.record state.unclosedBrace) last) : Braced grammar state none last
  | closed {word : RawBraced} {lexer : Lexer} {items value : Expression} {inner last : State}
      (captured : state.lexer.capture? state.current = some (word, lexer))
      (read : braceItems grammar state.current
        (.snippet word.body state.current.line .expression state.declared) = some (items, inner))
      (settled : Settled (state.afterCapture word lexer) inner items
        (rawList state.current word.body) value last) :
      Braced grammar state (some value) last

/-- All that a braced word can report is that its brace is never closed. -/
theorem Braced.reported {grammar : Grammar} {state last : State} {result : Option Expression}
    (braced : Braced grammar state result last) :
    last.nesting = state.nesting ∧ last.scopes = state.scopes ∧
      (last.diagnostics = state.diagnostics ∨
        last.diagnostics = state.diagnostics ++ [state.unclosedBrace] ∧
          state.unclosedBrace.code = .missingBrace ∧ result = none ∧
          last.declared = state.declared) := by
  cases braced with
  | unclosed _ moved =>
    exact ⟨moved.nesting, moved.scopes,
      .inr ⟨moved.diagnostics, state.unclosedBrace_code, rfl, moved.declared⟩⟩
  | closed _ _ settled =>
    rw [settled.unchanged]
    exact ⟨rfl, rfl, .inl rfl⟩

theorem bracedWord_braced {steps : Nat} {state last : State} {result : Option Expression}
    (runs : bracedWord ⟨unfold steps⟩ state = some (result, last)) :
    Braced ⟨unfold steps⟩ state result last := by
  unfold bracedWord at runs
  rw [current_bind_apply] at runs
  obtain ⟨_, middle, captures, runs⟩ := bind_eq_some runs
  rcases captureBrace_cases captures with ⟨absent, rfl, moved⟩ | ⟨body, lexer, captured, rfl, rfl⟩
  · cases runs
    exact .unclosed absent moved
  · simp only [get_bind_apply] at runs
    obtain ⟨⟨items, inner⟩, _, isolated, runs⟩ := bind_eq_some runs
    obtain ⟨⟨_, _⟩, read, same⟩ := Option.map_eq_some_iff.1 isolated
    cases same
    obtain ⟨value, _, kept, runs⟩ := bind_eq_some runs
    cases runs
    obtain ⟨growth, -⟩ := braceItems_grows (unfold_declares steps) _ _ read
    exact .closed captured read (keepIfClean_settled growth.declared kept)

/-! ## Strings -/

/-- Where a command starts, one is read unless a problem is reported. -/
theorem substitutionCommands_nonempty {grammar other : Grammar}
    {permits : List Diagnostic → Prop} {state : State}
    (answers : Answers grammar other permits state)
    (goesOn : state.current.kind ≠ .endOfInput) (command : state.current.kind ≠ .semicolon) :
    Tracks (substitutionCommands grammar) (substitutionCommands other) state (· ≠ []) := by
  unfold substitutionCommands
  simp only [Tracks.current_bind]
  refine (answers.call .commandOrExpression rfl).bind fun value _ frame _ => ?_
  refine (finishCommand_tracks (answers.after frame) (by simp)).andThen fun _ _ _ => ?_
  refine .advance_bind ((answers.call .substitutionCommands rfl).andThen fun _ _ _ => .pure ?_)
  intro kept
  obtain ⟨first, rfl⟩ := Option.isSome_iff_exists.1 kept
  simp

/-- A script that may be embedded has commands, or a problem. -/
theorem embedded_commands {steps : Nat} {script : List Char} {line : Nat}
    {declared : List String} {inner : State} (opens : Segment.Opens script)
    (read : unfold steps .substitutionCommands (.snippet script line .bracket declared) =
      some ([], inner)) : inner.diagnostics ≠ [] := by
  obtain ⟨goesOn, command⟩ := State.snippet_opens opens line .bracket declared
  cases steps with
  | zero => cases read
  | succ steps =>
    have tracks := substitutionCommands_nonempty (unfold_answers steps _) goesOn command
    intro quiet
    exact (tracks [] inner read).2.2 quiet rfl

theorem substitution_settled {steps : Nat} {state last : State} {token : Token}
    {script : List Char} {line : Nat} {result : Option Expression} (opens : Segment.Opens script)
    (runs : substitution ⟨unfold steps⟩ token script line state = some (result, last)) :
    ∃ commands inner,
      unfold steps .substitutionCommands (.snippet script line .bracket state.declared) =
        some (commands, inner) ∧
      Settled state inner (some (.substitution { token with line := line } commands)) none
        result last := by
  unfold substitution at runs
  rw [get_bind_apply] at runs
  obtain ⟨⟨commands, inner⟩, _, isolated, runs⟩ := bind_eq_some runs
  obtain ⟨⟨_, _⟩, read, same⟩ := Option.map_eq_some_iff.1 isolated
  cases same
  refine ⟨commands, inner, read, ?_⟩
  cases commands with
  | nil =>
    cases runs
    exact .broken (embedded_commands opens read)
  | cons first more =>
    obtain ⟨growth, -⟩ := unfold_declares steps .substitutionCommands _ _ _ read
    exact keepIfClean_settled growth.declared runs

/-- The text that stands for an embedded script which is not read as one. -/
def rawScript (script : List Char) : String :=
  "[" ++ String.ofList script ++ "]"

/-- How the segments of a string are read, behind the parts that were read before. The
parser of each script decides between its commands and its text. -/
inductive Interpolates (grammar : Grammar) (token : Token) :
    State → List Expression → List Segment → List Expression → State → Prop where
  | done {state : State} {parts : List Expression} :
      Interpolates grammar token state parts [] parts state
  | text {state last : State} {parts final : List Expression} {text : List Char}
      {later : List Segment}
      (rest : Interpolates grammar token state (appendText token parts (String.ofList text))
        later final last) :
      Interpolates grammar token state parts (.text text :: later) final last
  | reference {state last : State} {parts final : List Expression} {name : List Char}
      {later : List Segment}
      (rest : Interpolates grammar token state
        (parts ++ [.identifier token (String.ofList name) true false]) later final last) :
      Interpolates grammar token state parts (.reference name :: later) final last
  | command {state middle inner last : State} {parts next final commands : List Expression}
      {script before : List Char} {later : List Segment}
      (read : grammar.substitutionCommands
        (.snippet script (token.line + before.count '\n') .bracket state.declared) =
          some (commands, inner))
      (settled : Settled state inner
        (parts ++ [.substitution { token with line := token.line + before.count '\n' } commands])
        (appendText token parts (rawScript script)) next middle)
      (rest : Interpolates grammar token middle next later final last) :
      Interpolates grammar token state parts (.command script before :: later) final last

theorem interpolatedParts_interpolates {steps : Nat} {state last : State} {token : Token}
    {parts final : List Expression} {segments : List Segment}
    (opens : ∀ script before, .command script before ∈ segments → Segment.Opens script)
    (runs : interpolatedParts ⟨unfold steps⟩ token parts segments state = some (final, last)) :
    Interpolates ⟨unfold steps⟩ token state parts segments final last := by
  induction segments generalizing parts state with
  | nil =>
    cases runs
    exact .done
  | cons segment later ih =>
    have opensLater : ∀ script before, .command script before ∈ later → Segment.Opens script :=
      fun script before mem => opens script before (List.mem_cons_of_mem _ mem)
    cases segment with
    | text text => exact .text (ih opensLater runs)
    | reference name => exact .reference (ih opensLater runs)
    | command script before =>
      obtain ⟨found, middle, substituted, runs⟩ := bind_eq_some runs
      obtain ⟨commands, inner, read, settled⟩ :=
        substitution_settled (opens script before (List.mem_cons_self ..)) substituted
      cases settled with
      | clean quiet kept exactly =>
        exact .command read (.clean quiet kept exactly) (ih opensLater runs)
      | broken problems => exact .command read (.broken problems) (ih opensLater runs)

/-- Nothing but the declared variables changes while a string is read. -/
theorem Interpolates.unchanged {grammar : Grammar} {token : Token} {state last : State}
    {parts final : List Expression} {segments : List Segment}
    (interpolates : Interpolates grammar token state parts segments final last) :
    last = { state with declared := last.declared } := by
  induction interpolates with
  | done => rfl
  | text _ ih => exact ih
  | reference _ ih => exact ih
  | command _ settled _ ih =>
    rw [ih, settled.unchanged]

/-- What is made of a string. -/
def stringOf (token : Token) (parts : List Expression) : Expression :=
  if parts.all Expression.isString then .string token token.literal
  else .interpolated token token.literal parts

theorem quotedString_interpolates {steps : Nat} {state last : State} {token : Token}
    {value : Expression}
    (runs : quotedString ⟨unfold steps⟩ token state = some (value, last)) :
    ∃ parts, value = stringOf token parts ∧
      Interpolates ⟨unfold steps⟩ token state [] (segments token.literal.toList) parts last := by
  unfold quotedString at runs
  obtain ⟨parts, middle, reads, runs⟩ := bind_eq_some runs
  have interpolates := interpolatedParts_interpolates
    (fun script before mem => (segments_located mem).1) reads
  refine ⟨parts, ?_⟩
  unfold stringOf
  split at runs
  case isTrue plain =>
    cases runs
    exact ⟨(if_pos plain).symm, interpolates⟩
  case isFalse embeds =>
    cases runs
    exact ⟨(if_neg embeds).symm, interpolates⟩

/-! ## Pieces of words -/

/-- In every state on the way the piece of a word ends, and the same way for every depth
that is large enough. -/
theorem Reached.piece_ends {source : List Char} {declared : List String} {state : State}
    (reached : Reached source declared state) :
    ∃ result last, ∀ steps, state.depth (.word .word) ≤ steps →
      piece ⟨unfold steps⟩ state = some (result, last) := by
  have coherent := Reached.coherent reached
  have calls (first second : Nat) (deep : state.depth (.word .word) ≤ first)
      (enough : state.depth (.word .word) ≤ second) :
      Calls ⟨unfold first⟩ ⟨unfold second⟩ 1 state := by
    refine ⟨coherent, fun called inner descends => ?_⟩
    have less : inner.depth called < state.depth (.word .word) := Descends.depth_lt descends
    exact unfold_reads (descends.leads.coherent coherent) (by omega) (by omega)
  obtain ⟨result, last, ends, -⟩ := piece_reads (calls _ _ le_rfl le_rfl)
  refine ⟨result, last, fun steps deep => ?_⟩
  obtain ⟨_, _, left, right, -⟩ := piece_reads (calls _ _ le_rfl deep)
  rw [right, ← left, ends]

/-- Snippets leak nothing. A braced word or a string, read as the piece of a word in any
state, leaves the open constructs and the scopes as they were and reports nothing, except
for the one report of a brace that is never closed. The body of the braced word and each
script in the string is read by a parser of its own, which knows the variables declared
so far; without a problem in it these become exactly the variables of that parser, and
otherwise they stay as they were and the snippet is kept as raw text. In every state on
the way through a rule, snippets included, the piece does end. -/
theorem snippets_sealed :
    (∀ (steps : Nat) (state last : State) (result : Option Expression),
      piece ⟨unfold steps⟩ state = some (result, last) →
      (state.current.kind = .openBrace →
        Braced ⟨unfold steps⟩ state result last ∧
        last.nesting = state.nesting ∧ last.scopes = state.scopes ∧
        (last.diagnostics = state.diagnostics ∨
          last.diagnostics = state.diagnostics ++ [state.unclosedBrace] ∧
            state.unclosedBrace.code = .missingBrace ∧ result = none ∧
            last.declared = state.declared)) ∧
      (state.current.kind = .string →
        ∃ parts, result = some (stringOf state.current parts) ∧
          Interpolates ⟨unfold steps⟩ state.current state []
            (segments state.current.literal.toList) parts last ∧
          last = { state with declared := last.declared })) ∧
    ∀ (declared : List String) (source : List Char) (state : State),
      Reached source declared state → ∃ result last, ∀ steps, state.depth (.word .word) ≤ steps →
        piece ⟨unfold steps⟩ state = some (result, last) := by
  refine ⟨fun steps state last result runs => ⟨fun brace => ?_, fun string => ?_⟩,
    fun _ _ _ => Reached.piece_ends⟩
  · unfold piece at runs
    simp only [current_bind_apply, brace] at runs
    have braced := bracedWord_braced runs
    exact ⟨braced, braced.reported⟩
  · unfold piece at runs
    simp only [current_bind_apply, string] at runs
    obtain ⟨value, _, reads, runs⟩ := bind_eq_some runs
    cases runs
    obtain ⟨parts, rfl, interpolates⟩ := quotedString_interpolates reads
    exact ⟨parts, rfl, interpolates, interpolates.unchanged⟩

end IRule.Parser
