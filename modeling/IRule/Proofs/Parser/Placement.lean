import IRule.Proofs.Lexer.Placement
import IRule.Proofs.Parser.Embedding

/-!
# Where the parser stands in the rule

The parser of a rule starts parsers for the snippets in it, and these start more.
`Visits` relates a state to those that the parser gets to on the way, in its own text
and in the snippets, and tells what stands in front of their text in the rule. Every
state visited is placed: its text stands there, and its tokens carry the lines on which
they stand in the rule.
-/

namespace IRule.Parser

open Text

namespace State

/-- The parser of a text whose first line has the given number knows where it is. -/
structure Aligned (state : State) (first : Nat) : Prop where
  lexer : state.lexer.Located state.source first
  current : state.current.Located state.source first
  lookahead : state.lookahead.Located state.source first
  /-- The lookahead is looked for behind the current token. -/
  joined : state.current.span.stop = state.lexer.before.offset

/-- The text of the parser stands in the rule behind `before`, and the parser knows on
which line. -/
structure Placed (whole before : List Char) (state : State) : Prop where
  coherent : state.Coherent
  stands : ∃ after, whole = before ++ (state.source ++ after)
  aligned : state.Aligned (1 + before.count '\n')

/-! ## The steps -/

namespace Aligned

variable {state : State} {first : Nat}

theorem advance (aligned : state.Aligned first) (coherent : state.Coherent) :
    state.advance.Aligned first where
  lexer := Lexer.next_located aligned.lexer
  current := aligned.lookahead
  lookahead := Lexer.next_token_located aligned.lexer.here
  joined := by
    obtain ⟨gap, text, reading⟩ := coherent.reading
    exact reading.offset.symm

/-- Where the body of a braced word stands. -/
theorem captured_split {word : RawBraced} {lexer : Lexer} (aligned : state.Aligned first)
    (captured : state.lexer.capture? state.current = some (word, lexer)) :
    ∃ passed rest, state.source = passed ++ (word.body ++ '\x7d' :: rest) ∧
      state.current.span.stop = byteLength passed ∧
      state.current.line = first + passed.count '\n' ∧
      lexer.line = first + (passed ++ word.body).count '\n' ∧
      lexer.scanner.offset = byteLength (passed ++ word.body) + 1 := by
  obtain ⟨opening, latest, -, capturing⟩ := Lexer.capture?_capturing captured
  have start := Lexer.line_of_opening aligned.lexer.before aligned.current.onLine opening latest
  have line : lexer.line = state.current.line + word.body.count '\n' := capturing.line
  obtain ⟨passed, whole, offset, counted⟩ := aligned.lexer.before
  rw [counted] at start
  refine ⟨passed, lexer.scanner.rest, ?_, aligned.joined.trans offset, start, ?_, ?_⟩
  · rw [whole, capturing.input]
  · rw [line, start, Nat.add_assoc, ← List.count_append]
  · rw [capturing.offset, offset, byteLength_append _ word.body]

theorem afterCapture {word : RawBraced} {lexer : Lexer} (aligned : state.Aligned first)
    (captured : state.lexer.capture? state.current = some (word, lexer)) :
    (state.afterCapture word lexer).Aligned first := by
  have located := Lexer.capture?_located aligned.lexer aligned.current.onLine captured
  obtain ⟨-, -, -, capturing⟩ := Lexer.capture?_capturing captured
  have behind : word.span.stop = lexer.scanner.offset := by rw [capturing.span]
  obtain ⟨passed, rest, whole, -, -, line, stop⟩ := aligned.captured_split captured
  refine ⟨Lexer.next_located located, ?_, Lexer.next_token_located located.here, behind⟩
  refine ⟨⟨passed ++ word.body, ['\x7d'], rest, by simp [State.afterCapture, whole], ?_⟩, ?_, ?_⟩
  · refine ⟨?_, ?_, line, by simp [State.afterCapture], by simp [State.afterCapture]⟩
    · change word.span.stop - 1 = _
      omega
    · change word.span.stop = _
      rw [behind, stop, byteLength_append _ ['\x7d']]
      rfl
  · intro _
    change '\n' ∉ "\x7d".toList
    decide
  · simp [State.afterCapture]

/-- The number without its sign stands one place further on. -/
theorem unsign (aligned : state.Aligned first) (number : state.current.kind = .number)
    (digits : state.current.span.start + 1 < state.lexer.before.offset) :
    { state with current := magnitude state.current }.Aligned first := by
  have current := aligned.current
  obtain ⟨passed, text, rest, split, stands⟩ := current.stands
  have literal : text = state.current.literal.toList :=
    stands.verbatim (by simp [number]) (by simp [number])
  have more : byteLength passed + 1 < byteLength (passed ++ text) := by
    rw [← stands.start, ← stands.stop, aligned.joined]
    exact digits
  refine ⟨aligned.lexer, ?_, aligned.lookahead, aligned.joined⟩
  cases text with
  | nil => simp at more
  | cons sign unsigned =>
    have mem : sign ∈ state.current.literal.toList := by simp [← literal]
    have narrow : sign.utf8Size = 1 := current.narrow number sign mem
    have sameLine : '\n' ≠ sign := by
      rintro rfl
      exact current.oneLine (by simp [number]) mem
    have dropped : (magnitude state.current).literal.toList = unsigned := by
      simp [magnitude, ← literal]
    refine ⟨⟨passed ++ [sign], unsigned, rest, by simp [split], ?_⟩, fun _ => ?_, fun _ => ?_⟩
    · refine ⟨?_, ?_, ?_, fun _ _ => dropped.symm, by simp [magnitude]⟩
      · simp [magnitude, stands.start, narrow]
      · simp [magnitude, stands.stop]
      · simp [magnitude, stands.line, sameLine.symm]
    · rw [dropped]
      intro inside
      exact current.oneLine (by simp [number]) (by simp [← literal, inside])
    · rw [dropped]
      intro char inside
      exact current.narrow number char (by simp [← literal, inside])

/-- Changes that touch neither the tokens nor the lexer. -/
theorem congr {other : State} (aligned : state.Aligned first)
    (source : other.source = state.source) (lexer : other.lexer = state.lexer)
    (current : other.current = state.current) (lookahead : other.lookahead = state.lookahead) :
    other.Aligned first where
  lexer := by rw [source, lexer]; exact aligned.lexer
  current := by rw [source, current]; exact aligned.current
  lookahead := by rw [source, lookahead]; exact aligned.lookahead
  joined := by rw [current, lexer]; exact aligned.joined

end Aligned

end State

theorem Step.aligned {state next : State} {first : Nat} (step : Step state next)
    (coherent : state.Coherent) (aligned : state.Aligned first) : next.Aligned first := by
  cases step with
  | advance => exact aligned.advance coherent
  | capture captured => exact aligned.afterCapture captured
  | unsign number digits => exact aligned.unsign number digits
  | _ => exact aligned.congr rfl rfl rfl rfl

theorem Step.placed {state next : State} {whole before : List Char} (step : Step state next)
    (placed : state.Placed whole before) : next.Placed whole before where
  coherent := step.coherent placed.coherent
  stands := by rw [step.source_eq]; exact placed.stands
  aligned := step.aligned placed.coherent placed.aligned

/-! ## Snippets -/

/-- A text read from a given line on, as far as its tokens are concerned. -/
theorem blank_aligned (source : List Char) {line : Nat} (counted : 1 ≤ line) :
    (State.blank source line).advance.advance.Aligned line := by
  have start := Lexer.start_located source counted
  have ahead := Lexer.next_located start
  refine ⟨Lexer.next_located ahead, Lexer.next_token_located start.here,
    Lexer.next_token_located ahead.here, ?_⟩
  obtain ⟨gap, text, reading⟩ := Lexer.next_reading (Lexer.start source line)
  exact reading.offset.symm

/-- A snippet is placed when it stands in the rule and starts on its line. -/
theorem snippet_placed {whole before source : List Char} {line : Nat} (nesting : Nesting)
    (declared : List String) (stands : ∃ after, whole = before ++ (source ++ after))
    (counted : line = 1 + before.count '\n') :
    (State.snippet source line nesting declared).Placed whole before := by
  have aligned := blank_aligned source (Nat.le_add_right 1 (before.count '\n'))
  subst counted
  exact ⟨snippet_coherent .., stands, aligned.congr rfl rfl rfl rfl⟩

theorem start_placed (source : List Char) (declared : List String) :
    (State.start source declared).Placed source [] := by
  have aligned := blank_aligned source (le_refl 1)
  exact ⟨start_coherent .., ⟨[], by simp [State.start, State.blank, State.advance]⟩,
    aligned.congr rfl rfl rfl rfl⟩

/-- The snippets that are read on their own in a state, with what stands in front of them
in its text: the body of the braced word at the current token, from the line of the brace
on, and the scripts in the string at the current token, each from the line of its
bracket on. -/
inductive State.Embeds (state : State) : List Char → State → Prop where
  | body {passed rest : List Char} {word : RawBraced} {lexer : Lexer}
      (captured : state.lexer.capture? state.current = some (word, lexer))
      (place : splitBytes? state.current.span.stop state.source = some (passed, rest)) :
      Embeds state passed (.snippet word.body state.current.line .expression state.declared)
  | script {passed rest script ahead : List Char} (string : state.current.kind = .string)
      (embedded : .command script ahead ∈ segments state.current.literal.toList)
      (place : splitBytes? state.current.span.start state.source = some (passed, rest)) :
      Embeds state (passed ++ '"' :: (ahead ++ ['[']))
        (.snippet script (state.current.line + ahead.count '\n') .bracket state.declared)

theorem State.Embeds.placed {state inner : State} {whole before passed : List Char}
    (embeds : state.Embeds passed inner) (placed : state.Placed whole before) :
    inner.Placed whole (before ++ passed) := by
  obtain ⟨after, stands⟩ := placed.stands
  have aligned := placed.aligned
  cases embeds with
  | body captured place =>
    obtain ⟨_, rest, source, stop, line, -⟩ := aligned.captured_split captured
    rw [source, stop, splitBytes?_byteLength] at place
    cases place
    refine snippet_placed .expression _ ⟨'\x7d' :: rest ++ after, ?_⟩ ?_
    · simp [stands, source]
    · rw [line, List.count_append, Nat.add_assoc]
  | script string embedded place =>
    obtain ⟨-, later, body⟩ := segments_located embedded
    obtain ⟨_, text, rest, source, token⟩ := aligned.current.stands
    rw [source, token.start, splitBytes?_byteLength] at place
    cases place
    have quoted := token.quoted string
    refine snippet_placed .bracket _ ⟨']' :: later ++ '"' :: rest ++ after, ?_⟩ ?_
    · simp [stands, source, quoted, body]
    · rw [token.line]
      simp [List.count_append]
      omega

namespace State.Placed

variable {state : State} {whole before : List Char}

/-- The body of a braced word stands somewhere in the text. -/
theorem embeds_body {word : RawBraced} {lexer : Lexer} (placed : state.Placed whole before)
    (captured : state.lexer.capture? state.current = some (word, lexer)) :
    ∃ passed, state.Embeds passed
      (.snippet word.body state.current.line .expression state.declared) := by
  obtain ⟨passed, rest, source, stop, -⟩ := placed.aligned.captured_split captured
  exact ⟨passed, .body captured (by rw [source, stop, splitBytes?_byteLength])⟩

/-- The scripts in a string stand somewhere in the text. -/
theorem embeds_script {script ahead : List Char} (placed : state.Placed whole before)
    (string : state.current.kind = .string)
    (embedded : .command script ahead ∈ segments state.current.literal.toList) :
    ∃ passed, state.Embeds passed
      (.snippet script (state.current.line + ahead.count '\n') .bracket state.declared) := by
  obtain ⟨passed, text, rest, source, token⟩ := placed.aligned.current.stands
  exact ⟨_, .script string embedded (by rw [source, token.start, splitBytes?_byteLength])⟩

end State.Placed

/-! ## States on the way -/

/-- The states that the parser of a rule gets to: by steps, and in the parsers of the
snippets that it reads on their own; each with what stands in front of its text. -/
inductive Visits (first : State) : List Char → State → Prop where
  | refl : Visits first [] first
  | step {before : List Char} {state next : State} (prior : Visits first before state)
      (step : Step state next) : Visits first before next
  | snippet {before passed : List Char} {state inner : State} (prior : Visits first before state)
      (embeds : state.Embeds passed inner) : Visits first (before ++ passed) inner

/-- Every state on the way is placed. -/
theorem Visits.placed {first state : State} {whole before : List Char}
    (visits : Visits first before state) (placed : first.Placed whole []) :
    state.Placed whole before := by
  induction visits with
  | refl => exact placed
  | step _ step ih => exact step.placed ih
  | snippet _ embeds ih => exact embeds.placed ih

end IRule.Parser
