import IRule.Proofs.Lexer.Reading
import IRule.Proofs.Parser.Step

/-!
# Coherent states

A state is coherent when its parts tell the same story: the lookahead is what
the lexer reads behind the current token, the current token ends before it,
and the brace count is the depth of the lexer in front of the lookahead. Every
reached state is coherent, and every token read starts further on than the one
before it.
-/

namespace IRule.Parser

open Text

namespace State

/-- What holds as soon as one token has been read ahead. -/
structure Ahead (state : State) : Prop where
  /-- The lookahead is the latest token of the lexer. -/
  read : (Lexer.mk state.lexer.before state.lexer.before).next = (state.lookahead, state.lexer)
  stands : state.lexer.before.StandsIn state.source
  braces : state.braceCount = state.lexer.before.braceDepth

/-- What holds between the current token and the lexer in front of the lookahead. -/
structure Coherent (state : State) : Prop extends Ahead state where
  atEnd : state.current.kind = .endOfInput →
    state.current.span.start = byteLength state.source ∧ state.lexer.before.rest = []
  goesOn : state.current.kind ≠ .endOfInput →
    state.current.span.start < state.lexer.before.offset
  /-- The body of a string has room between its quotes. -/
  quotes : state.current.kind = .string →
    state.current.span.start + byteLength state.current.literal.toList + 2 ≤
      state.lexer.before.offset
  opened : state.current.kind = .openBrace → 0 < state.lexer.before.braceDepth

/-- Bytes from the current token to the end of the text. -/
def remaining (state : State) : Nat :=
  byteLength state.source - state.current.span.start

namespace Ahead

variable {state : State}

/-- How the lookahead was read. -/
theorem reading (ahead : state.Ahead) :
    ∃ gap text, Reading state.lexer.before gap text state.lookahead state.lexer.scanner := by
  have reading := Lexer.next_reading ⟨state.lexer.before, state.lexer.before⟩
  rwa [ahead.read] at reading

/-- The lookahead does not start before the place where it was looked for. -/
theorem lookahead_start (ahead : state.Ahead) :
    state.lexer.before.offset ≤ state.lookahead.span.start := by
  obtain ⟨gap, text, reading⟩ := ahead.reading
  rw [reading.start]
  omega

/-- Once one token has been read ahead, reading another gives a coherent state. -/
theorem advance (ahead : state.Ahead) : state.advance.Coherent := by
  obtain ⟨gap, text, reading⟩ := ahead.reading
  have total := ahead.stands.total
  have stands : state.lexer.scanner.StandsIn state.source := by
    refine ahead.stands.move (gap ++ text) (by simp [reading.input]) ?_
    rw [reading.offset, reading.stop, reading.start, byteLength_append, Nat.add_assoc]
  constructor
  case toAhead =>
    refine ⟨Lexer.next_congr rfl, stands, ?_⟩
    have depth := reading.depth
    simp only [State.advance, ahead.braces]
    exact depth.symm
  case atEnd =>
    intro ended
    have noText : text = [] := reading.ends.1 ended
    have noRest : state.lexer.scanner.rest = [] := reading.last ended
    refine ⟨?_, noRest⟩
    have input := reading.input
    simp only [noText, noRest, List.append_nil] at input
    simp only [State.advance, reading.start, ← total, input]
  case goesOn =>
    intro more
    have someText : text ≠ [] := fun noText => more (reading.ends.2 noText)
    have := List.length_pos_iff.2 someText
    have := length_le_byteLength text
    simp only [State.advance, Lexer.next_before, reading.offset, reading.stop]
    omega
  case quotes =>
    intro string
    have := reading.quotes string
    simp only [State.advance, Lexer.next_before, reading.offset, reading.stop]
    omega
  case opened =>
    intro opening
    have depth := reading.depth
    have kind : state.lookahead.kind = .openBrace := opening
    simp only [kind, State.braceChange] at depth
    simp only [State.advance, Lexer.next_before]
    omega

end Ahead

/-! ## The steps -/

namespace Coherent

variable {state : State}

/-- The current token stands inside the text, or at its end. -/
theorem start_le (coherent : state.Coherent) :
    state.current.span.start ≤ byteLength state.source := by
  have total := coherent.stands.total
  by_cases ended : state.current.kind = .endOfInput
  · exact (coherent.atEnd ended).1.le
  · have := coherent.goesOn ended
    omega

/-- Something is left while the text has not ended. -/
theorem remaining_pos (coherent : state.Coherent) (more : state.current.kind ≠ .endOfInput) :
    0 < state.remaining := by
  have total := coherent.stands.total
  have := coherent.goesOn more
  unfold remaining
  omega

/-- Behind the end of the text there is nothing but its end. -/
theorem lookahead_of_atEnd (coherent : state.Coherent)
    (ended : state.current.kind = .endOfInput) : state.lookahead.kind = .endOfInput := by
  obtain ⟨gap, text, reading⟩ := coherent.reading
  have input := reading.input
  rw [(coherent.atEnd ended).2] at input
  exact reading.ends.2 (by simp_all)

/-- While a token is ahead, the text has not ended. -/
theorem goesOn_of_lookahead (coherent : state.Coherent)
    (more : state.lookahead.kind ≠ .endOfInput) : state.current.kind ≠ .endOfInput :=
  fun ended => more (coherent.lookahead_of_atEnd ended)

/-- Reading on gets further, until the text has ended. -/
theorem start_lt_advance (coherent : state.Coherent)
    (more : state.current.kind ≠ .endOfInput) :
    state.current.span.start < state.advance.current.span.start :=
  (coherent.goesOn more).trans_le coherent.lookahead_start

/-- Reading on at the end of the text stays there. -/
theorem start_advance_of_atEnd (coherent : state.Coherent)
    (ended : state.current.kind = .endOfInput) :
    state.advance.current.span.start = state.current.span.start := by
  have next := coherent.advance.atEnd (coherent.lookahead_of_atEnd ended)
  rw [next.1, (coherent.atEnd ended).1]
  rfl

section Capture

variable {word : RawBraced} {lexer : Lexer}

/-- Taking a braced word verbatim gets further. -/
theorem start_lt_afterCapture (coherent : state.Coherent)
    (captured : state.lexer.capture? state.current = some (word, lexer)) :
    state.current.span.start < (state.afterCapture word lexer).current.span.start := by
  obtain ⟨opening, -, -, capturing⟩ := Lexer.capture?_capturing captured
  have := coherent.goesOn (by simp [opening])
  simp only [afterCapture, capturing.span, capturing.offset]
  omega

/-- The body of a braced word is shorter than what is left of the text. -/
theorem body_lt_remaining (coherent : state.Coherent)
    (captured : state.lexer.capture? state.current = some (word, lexer)) :
    byteLength word.body < state.remaining := by
  obtain ⟨opening, -, -, capturing⟩ := Lexer.capture?_capturing captured
  have := coherent.goesOn (by simp [opening])
  have total := coherent.stands.total
  have := length_le_byteLength ('\x7d' :: lexer.scanner.rest)
  simp only [capturing.input, byteLength_append, List.length_cons] at total this
  unfold remaining
  omega

/-- Taking a braced word verbatim gives a coherent state. -/
theorem afterCapture (coherent : state.Coherent)
    (captured : state.lexer.capture? state.current = some (word, lexer)) :
    (state.afterCapture word lexer).Coherent := by
  obtain ⟨opening, -, -, capturing⟩ := Lexer.capture?_capturing captured
  have opened := coherent.opened opening
  constructor
  case toAhead =>
    refine ⟨Lexer.next_congr rfl, ?_, ?_⟩
    · refine coherent.stands.move (word.body ++ ['\x7d'])
        (by simp [capturing.input, State.afterCapture]) ?_
      simp only [State.afterCapture, Lexer.next_before, capturing.offset, byteLength_append]
      rfl
    · simp only [State.afterCapture, Lexer.next_before, capturing.depth, coherent.braces]
      omega
  case atEnd => simp [State.afterCapture]
  case goesOn =>
    intro _
    simp only [State.afterCapture, Lexer.next_before, capturing.span, capturing.offset]
    omega
  case quotes => simp [State.afterCapture]
  case opened => simp [State.afterCapture]

end Capture

/-- Reading the sign of a number as an operator gives a coherent state. -/
theorem unsign (coherent : state.Coherent)
    (digits : state.current.span.start + 1 < state.lexer.before.offset) :
    { state with current := magnitude state.current }.Coherent where
  toAhead := ⟨coherent.read, coherent.stands, coherent.braces⟩
  atEnd := by simp [magnitude]
  goesOn := fun _ => digits
  quotes := by simp [magnitude]
  opened := by simp [magnitude]

/-- Changes that touch neither the tokens nor the lexer keep a state coherent. -/
theorem congr {other : State} (coherent : state.Coherent) (source : other.source = state.source)
    (lexer : other.lexer = state.lexer) (current : other.current = state.current)
    (lookahead : other.lookahead = state.lookahead)
    (braceCount : other.braceCount = state.braceCount) : other.Coherent where
  read := by rw [lexer, lookahead]; exact coherent.read
  stands := by rw [lexer, source]; exact coherent.stands
  braces := by rw [braceCount, lexer]; exact coherent.braces
  atEnd := by rw [current, source, lexer]; exact coherent.atEnd
  goesOn := by rw [current, lexer]; exact coherent.goesOn
  quotes := by rw [current, lexer]; exact coherent.quotes
  opened := by rw [current, lexer]; exact coherent.opened

end Coherent

end State

/-- Every step leads from coherent states to coherent states. -/
theorem Step.coherent {state next : State} (step : Step state next) (coherent : state.Coherent) :
    next.Coherent := by
  cases step with
  | advance => exact coherent.advance
  | capture captured => exact coherent.afterCapture captured
  | unsign _ digits => exact coherent.unsign digits
  | _ => exact coherent.congr rfl rfl rfl rfl rfl

/-- No step goes back. -/
theorem Step.start_le {state next : State} (step : Step state next) (coherent : state.Coherent) :
    state.current.span.start ≤ next.current.span.start := by
  cases step with
  | advance =>
    by_cases ended : state.current.kind = .endOfInput
    · exact (coherent.start_advance_of_atEnd ended).ge
    · exact (coherent.start_lt_advance ended).le
  | capture captured => exact (coherent.start_lt_afterCapture captured).le
  | unsign => exact Nat.le_succ _
  | _ => exact le_rfl

namespace Steps

variable {state next : State}

theorem coherent (steps : Steps state next) (coherent : state.Coherent) : next.Coherent := by
  induction steps with
  | refl => exact coherent
  | tail _ step ih => exact step.coherent ih

theorem start_le (steps : Steps state next) (coherent : state.Coherent) :
    state.current.span.start ≤ next.current.span.start := by
  induction steps with
  | refl => exact le_rfl
  | tail prior step ih => exact ih.trans (step.start_le (Steps.coherent prior coherent))

end Steps

/-! ## Where parsing starts -/

/-- One token read ahead of a text. -/
theorem blank_advance_ahead (source : List Char) (line : Nat) :
    (State.blank source line).advance.Ahead where
  read := Lexer.next_congr rfl
  stands := ⟨[], rfl, rfl⟩
  braces := rfl

theorem start_coherent (source : List Char) (declared : List String) :
    (State.start source declared).Coherent :=
  (blank_advance_ahead source 1).advance.congr rfl rfl rfl rfl rfl

theorem snippet_coherent (source : List Char) (line : Nat) (nesting : Nesting)
    (declared : List String) : (State.snippet source line nesting declared).Coherent :=
  (blank_advance_ahead source line).advance.congr rfl rfl rfl rfl rfl

/-- Coherent states lead to coherent states. -/
theorem Leads.coherent {first last : State} (leads : Leads first last) (coherent : first.Coherent) :
    last.Coherent := by
  induction leads with
  | refl => exact coherent
  | step _ step ih => exact step.coherent ih
  | snippet line nesting _ _ => exact snippet_coherent _ line nesting _

/-- Every reached state is coherent. -/
theorem Reached.coherent {source : List Char} {declared : List String} {state : State}
    (reached : Reached source declared state) : state.Coherent :=
  Leads.coherent reached (start_coherent source declared)

end IRule.Parser
