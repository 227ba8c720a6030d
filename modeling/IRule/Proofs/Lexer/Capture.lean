import IRule.Proofs.Lexer.Faults
import IRule.Proofs.Lexer.Locality
import IRule.Proofs.Text.Scan

/-!
# Braced words taken verbatim

Counted byte by byte from behind its opening brace, a braced word ends where the
count of open braces first comes down to zero. It can be taken verbatim exactly
when there is such a byte, whatever was read ahead in the meantime.
-/

namespace IRule

open Text

namespace Lexer

/-! ## Counting braces -/

/-- Counts the braces that are open; the scan ends when none is. -/
def braces : Scan Int where
  change depth char :=
    if char = '\x7b' then depth + 1 else if char = '\x7d' then depth - 1 else depth
  done depth := depth == 0
  plain := by
    intro depth char high
    have notOpening : char ≠ '\x7b' := by rintro rfl; exact absurd high (by decide)
    have notClosing : char ≠ '\x7d' := by rintro rfl; exact absurd high (by decide)
    rw [if_neg notOpening, if_neg notClosing]

/-- The body of a braced word is found by counting braces. -/
theorem bracedBody?_length (depth : Nat) (text : List Char) :
    (bracedBody? depth text).map (·.length) = braces.length? (depth + 1) text := by
  have goesOn (depth : Nat) : (depth : Int) + 1 ≠ 0 := by omega
  have opened (depth : Nat) : (depth : Int) + 1 + 1 ≠ 0 := by omega
  fun_induction bracedBody? depth text with
  | case1 => rfl
  | case2 => simp_all [Scan.length?]
  | case5 => simp_all [Scan.length?, braces]
  | case3 | case4 | case6 | case7 =>
    rename_i ih
    rw [Lexeme.Passage.map_extend_length, ih]
    simp_all [Scan.length?, braces]

/-- The first byte that leaves no brace open stands behind the body. -/
theorem endsAt_iff_bracedBody? (passed rest : List Char) (index : Nat) :
    braces.EndsAt 1 (passed ++ rest) (byteLength passed) index ↔
      ∃ body, bracedBody? 0 rest = some body ∧
        index = byteLength passed + byteLength (rest.take body.length) := by
  have counted := bracedBody?_length 0 rest
  rw [Scan.endsAt_iff passed (by decide) index]
  simp only [Nat.cast_zero, zero_add] at counted
  simp [← counted]

end Lexer

/-! ## Taking a word -/

namespace Scanner

variable {scanner : Scanner} {text : List Char} {first : Nat}

/-- A scanner that has counted the lines of a text, moved behind the byte at `index`. -/
def behind (scanner : Scanner) (text : List Char) (first index : Nat) : Scanner :=
  { scanner with
    rest := fromOffset text (index + 1)
    offset := index + 1
    line := first + lineFeeds text (index + 1)
    braceDepth := scanner.braceDepth - 1 }

/-- The place behind a braced word is the one behind its closing brace. -/
theorem eq_behind {later : Scanner} {opening : Token} {word : RawBraced}
    (capturing : Capturing scanner opening word later) (counts : later.CountsLines text first) :
    later = scanner.behind text first (scanner.offset + byteLength word.body) := by
  have rest := counts.standsIn.fromOffset_eq
  have line := counts.line_eq
  rw [capturing.offset] at rest line
  rw [behind, rest, ← line, ← capturing.offset, ← capturing.depth, ← capturing.brackets,
    ← capturing.errors]

end Scanner

namespace Lexer

variable {lexer : Lexer} {opening : Token} {text : List Char} {first : Nat}

/-- Behind the latest opening brace, a word can be taken when its body is found. -/
theorem capture?_eq_none_iff (kind : opening.kind = .openBrace)
    (latest : lexer.before.offset = opening.span.stop) :
    lexer.capture? opening = none ↔ bracedBody? 0 lexer.before.rest = none := by
  simp only [capture?, kind, latest, beq_self_eq_true, Bool.and_self, if_true]
  cases bracedBody? 0 lexer.before.rest <;> simp

/-- The body of a word that can be taken is the one that was found. -/
theorem capture?_body {later : Lexer} {word : RawBraced} {body : Lexeme.Passage}
    (captured : lexer.capture? opening = some (word, later))
    (found : bracedBody? 0 lexer.before.rest = some body) :
    word.body = lexer.before.rest.take body.length := by
  unfold capture? at captured
  split at captured
  · simp only [found, Option.some.injEq, Prod.mk.injEq] at captured
    rw [← captured.1]
  · simp at captured

/-- Either some byte closes the word, and it is taken up to there, or none does, and it
is not taken. -/
theorem capture?_cases (kind : opening.kind = .openBrace)
    (latest : lexer.before.offset = opening.span.stop)
    (counts : lexer.before.CountsLines text first) (onLine : opening.OnLine text first) :
    (∃ index, braces.EndsAt 1 text opening.span.stop index ∧ lexer.capture? opening =
      some (⟨slice text ⟨opening.span.stop, index⟩, ⟨opening.span.start, index + 1⟩⟩,
        ⟨lexer.before.behind text first index, lexer.before⟩)) ∨
    (∀ index, ¬braces.EndsAt 1 text opening.span.stop index) ∧ lexer.capture? opening = none := by
  obtain ⟨passed, whole, offset⟩ := counts.standsIn
  have start : opening.span.stop = byteLength passed := latest.symm.trans offset
  have ends := endsAt_iff_bracedBody? passed lexer.before.rest
  rw [← whole] at ends
  cases captured : lexer.capture? opening with
  | none =>
    have missing := (capture?_eq_none_iff kind latest).1 captured
    exact .inr ⟨fun index => by simp [start, ends, missing], rfl⟩
  | some taken =>
    obtain ⟨⟨inner, span⟩, later, before⟩ := taken
    obtain ⟨-, -, same, capturing⟩ := capture?_capturing captured
    have counted := capture?_countsLines counts onLine captured
    obtain ⟨body, found⟩ : ∃ body, bracedBody? 0 lexer.before.rest = some body := by
      rw [← Option.ne_none_iff_exists', ne_eq, ← capture?_eq_none_iff kind latest, captured]
      simp
    obtain rfl : inner = _ := capture?_body captured found
    obtain rfl : span = _ := capturing.span
    obtain rfl : before = _ := same
    have cut := slice_append passed (lexer.before.rest.take body.length)
      (lexer.before.rest.drop body.length)
    rw [List.take_append_drop, ← whole, byteLength_append] at cut
    refine .inl ⟨_, start ▸ (ends _).2 ⟨body, found, rfl⟩, ?_⟩
    rw [start, cut, ← offset, ← Scanner.eq_behind capturing counted, capturing.offset]

end Lexer

/-! ## Calls of a lexer -/

namespace Lexer.Session

variable {session : Session}

/-- Taking words verbatim, or failing to, reads no token and forgets none, and the
place before the latest one stays. -/
theorem after_captures (again : List Nat) (session : Session) :
    (session.after (again.map .capture)).lexer.before = session.lexer.before ∧
      (session.after (again.map .capture)).tokens = session.tokens := by
  induction again generalizing session with
  | nil => exact ⟨rfl, rfl⟩
  | cons index _ ih =>
    have step : (session.call (.capture index)).lexer.before = session.lexer.before ∧
        (session.call (.capture index)).tokens = session.tokens := by
      unfold call
      dsimp only
      split
      · rename_i taken
        obtain ⟨opening, -, captured⟩ := Option.bind_eq_some_iff.1 taken
        exact ⟨(capture?_capturing captured).2.2.1, rfl⟩
      · exact ⟨rfl, rfl⟩
    obtain ⟨before, tokens⟩ := ih (session.call (.capture index))
    exact ⟨before.trans step.1, tokens.trans step.2⟩

/-- A call that takes no word leaves everything as it is. -/
theorem call_capture_none {index : Nat} {opening : Token}
    (given : session.tokens[index]? = some opening)
    (missing : session.lexer.capture? opening = none) :
    session.call (.capture index) = session := by
  simp [call, given, missing]

end Lexer.Session

/-- Whatever a lexer did before it gave an opening brace: once one more token was read,
the word behind the brace can be taken verbatim exactly when some byte closes it. The
body then ends in front of that byte, the span of the word covers both of its braces,
and the lexer goes on behind it, on the true
line and with one brace less, but otherwise as it stood behind the opening brace. When
no byte closes the word, nothing changes. Words taken since then make no difference. -/
theorem Lexer.capture?_iff_endsAt (text : List Char) (line : Nat) (calls : List Call)
    (again : List Nat) :
    let session := Session.after calls ⟨.start text line, []⟩
    let opening := session.lexer.next.1
    let opened := session.call .next
    let ahead := Session.after (again.map .capture) (opened.call .next)
    opening.kind = .openBrace →
      ahead.tokens[session.tokens.length]? = some opening ∧
      0 < opened.lexer.scanner.braceDepth ∧
      ((ahead.lexer.capture? opening).isSome ↔
        ∃ index, braces.EndsAt 1 text opening.span.stop index) ∧
      (∀ index, braces.EndsAt 1 text opening.span.stop index →
        ahead.lexer.capture? opening = some
          (⟨slice text ⟨opening.span.stop, index⟩, ⟨opening.span.start, index + 1⟩⟩,
          { scanner :=
              { rest := fromOffset text (index + 1)
                offset := index + 1
                line := max line 1 + lineFeeds text (index + 1)
                braceDepth := opened.lexer.scanner.braceDepth - 1
                bracketDepth := opened.lexer.scanner.bracketDepth
                errors := opened.lexer.scanner.errors }
            before := opened.lexer.scanner })) ∧
      ((∀ index, ¬braces.EndsAt 1 text opening.span.stop index) →
        ahead.call (.capture session.tokens.length) = ahead) := by
  intro session opening opened ahead kind
  have counts : opened.CountsLines text (max line 1) :=
    ((Session.start_countsLines text line).after calls).call .next
  obtain ⟨before, tokens⟩ := Session.after_captures again (opened.call .next)
  have place : ahead.lexer.before = opened.lexer.scanner := before
  have given : ahead.tokens[session.tokens.length]? = some opening := by
    rw [show ahead.tokens = _ from tokens]
    simp [opened, opening, Session.call]
  have depth : 0 < opened.lexer.scanner.braceDepth := by
    have counted := next_braceDepth session.lexer
    rw [tokenStop, show session.lexer.lexeme.kind = .openBrace from kind] at counted
    exact counted ▸ Nat.succ_pos _
  have latest : ahead.lexer.before.offset = opening.span.stop :=
    place ▸ next_offset session.lexer
  have onLine : opening.OnLine text (max line 1) :=
    counts.tokens opening (by simp [opened, opening, Session.call])
  refine ⟨given, depth, ?_⟩
  rcases capture?_cases kind latest (place ▸ counts.here) onLine with
    ⟨index, closes, taken⟩ | ⟨none, missing⟩
  · refine ⟨by simpa [taken] using ⟨index, closes⟩, fun other another => ?_, fun none => ?_⟩
    · rw [another.unique closes, taken, place]
      rfl
    · exact absurd closes (none index)
  · exact ⟨by simp [missing, none], fun index closes => absurd closes (none index),
      fun _ => Session.call_capture_none given missing⟩

/-- A word whose quote was read ahead as a string without an end. -/
theorem Lexer.capture?_behind_quote :
    let text := "a \x7b\"\\\x7d\n\x7bé\x7d \x7d b".toList
    let session := Session.after [.next] ⟨.start text 1, []⟩
    session.lexer.next.1.kind = .openBrace ∧
      ((session.call .next).call .next).lexer.errors ≠ [] ∧
      ∃ index, Lexer.braces.EndsAt 1 text session.lexer.next.1.span.stop index := by
  refine ⟨by decide +kernel, by decide +kernel, ?_⟩
  have known := capture?_iff_endsAt "a \x7b\"\\\x7d\n\x7bé\x7d \x7d b".toList 1 [.next] []
    (by decide +kernel)
  exact known.2.2.1.1 (by decide +kernel)

end IRule
