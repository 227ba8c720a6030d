import IRule.Proofs.Lexer.Lines
import IRule.Proofs.Lexer.Tiling

/-!
# Errors and illegal tokens

A lexer keeps one error for every illegal token it has given, in order, and takes
an error back together with its token when the token is undone. The errors start at
different places, so the error of a token is found by the place of the token.
-/

namespace IRule

open Text

/-! ## Messages -/

namespace LexicalFault

/-- The first two letters of the message. -/
def initials : LexicalFault → List Char
  | unterminatedString => ['u', 'n']
  | illegalCharacter _ => ['i', 'l']
  | strayCloser _ => ['C', 'l']
  | invalidNumber _ => ['i', 'n']

theorem take_message (fault : LexicalFault) : fault.message.toList.take 2 = fault.initials := by
  have starts (opening inside closing : String) (enough : 2 ≤ opening.toList.length) :
      (opening ++ inside ++ closing).toList.take 2 = opening.toList.take 2 := by
    simp only [String.toList_append, List.append_assoc]
    exact List.take_append_of_le_length enough
  cases fault with
  | unterminatedString => rfl
  | illegalCharacter | strayCloser | invalidNumber => exact starts _ _ _ (by decide)

/-- The message tells the fault: its start the kind, and what it quotes the rest. -/
theorem message_injective : Function.Injective message := by
  have quoted {opening closing first second : String}
      (same : opening ++ first ++ closing = opening ++ second ++ closing) : first = second := by
    have text := congrArg String.toList same
    simp only [String.toList_append] at text
    exact String.toList_inj.1 (List.append_cancel_left (List.append_cancel_right text))
  intro first second same
  have start : first.initials = second.initials := by
    rw [← take_message, same, take_message]
  cases first <;> cases second <;> simp only [initials, List.cons.injEq] at start
  case unterminatedString.unterminatedString => rfl
  case illegalCharacter.illegalCharacter => simpa using congrArg String.toList (quoted same)
  case strayCloser.strayCloser => simpa using congrArg String.toList (quoted same)
  case invalidNumber.invalidNumber => rw [quoted same]
  all_goals simp at start

end LexicalFault

/-- An error that tells the same as an illegal token: what is wrong, and where. -/
structure LexicalError.Describes (error : LexicalError) (token : Token) : Prop where
  message : error.fault.message = token.literal
  span : error.span = token.span
  line : error.line = token.line

/-! ## Errors on record -/

namespace Lexer

variable {lexer later : Lexer} {opening : Token} {word : RawBraced}

/-- Only illegal tokens put an error on record, one that describes them. -/
theorem next_errors_cases (lexer : Lexer) :
    lexer.next.1.kind ≠ .illegal ∧ lexer.next.2.errors = lexer.errors ∨
      lexer.next.1.kind = .illegal ∧
        ∃ error, lexer.next.2.errors = lexer.errors ++ [error] ∧
          error.Describes lexer.next.1 := by
  have recorded : lexer.next.2.errors = lexer.errors ++ _ := lexer.next_errors
  have tells : lexer.lexeme.Tells lexer.tokenStart.rest := Lexeme.scan_tells _ _ _
  by_cases illegal : lexer.next.1.kind = .illegal
  · obtain ⟨fault, found⟩ := Option.ne_none_iff_exists'.1 (tells.faulty illegal)
    refine .inr ⟨illegal, ⟨fault, lexer.next.1.span, lexer.next.1.line⟩, ?_, ?_, rfl, rfl⟩
    · simpa [found] using recorded
    · simp [next_eq, Lexeme.literal, found]
  · have faultless : lexer.lexeme.fault = none := Lexeme.scan_faultless illegal
    exact .inl ⟨illegal, by simpa [faultless] using recorded⟩

/-- Reading does not go back. -/
theorem offset_le_next (lexer : Lexer) :
    lexer.scanner.offset ≤ lexer.next.1.span.start ∧
      lexer.next.1.span.start ≤ lexer.next.2.scanner.offset := by
  have reading := lexer.next_reading_text
  have start := reading.start
  have stop := reading.stop
  have offset := reading.offset
  omega

/-- Lines are only counted up. -/
theorem line_le_next (lexer : Lexer) :
    lexer.scanner.line ≤ lexer.next.1.line ∧ lexer.next.1.line ≤ lexer.next.2.scanner.line := by
  rw [next_line, tokenStop, Scanner.delimit_line]
  exact ⟨Nat.le_add_right _ _, Nat.le_add_right _ _⟩

/-- The errors on record stand in order, at different places behind the lexer, and on
lines that count from 1. Those that were on record before the latest token are those
that start before it. -/
structure Recorded (lexer : Lexer) : Prop where
  ordered : lexer.errors.Pairwise fun first second => first.span.start < second.span.start
  behind : ∀ error ∈ lexer.errors, error.span.start < lexer.scanner.offset
  numbered : ∀ error ∈ lexer.errors, 0 < error.line
  earlier : lexer.before.errors =
    lexer.errors.filter fun error => error.span.start < lexer.before.offset
  line : 0 < lexer.scanner.line
  lineBefore : 0 < lexer.before.line

namespace Recorded

theorem start (text : List Char) (line : Nat) : (Lexer.start text line).Recorded where
  ordered := .nil
  behind := by simp [Lexer.start, errors]
  numbered := by simp [Lexer.start, errors]
  earlier := rfl
  line := by simp [Lexer.start]
  lineBefore := by simp [Lexer.start]

/-- Errors that all stand before the lexer are kept where it looks for those. -/
theorem filter_behind (recorded : lexer.Recorded) :
    (lexer.errors.filter fun error => error.span.start < lexer.scanner.offset) = lexer.errors :=
  List.filter_eq_self.2 fun error mem => decide_eq_true (recorded.behind error mem)

/-- Reading a token keeps the record in order. -/
theorem next (recorded : lexer.Recorded) : lexer.next.2.Recorded := by
  obtain ⟨starts, stops⟩ := lexer.offset_le_next
  obtain ⟨lines, linesOn⟩ := lexer.line_le_next
  have positive : 0 < lexer.next.1.line := recorded.line.trans_le lines
  have behind : ∀ error ∈ lexer.errors, error.span.start < lexer.next.2.scanner.offset :=
    fun error mem => (recorded.behind error mem).trans_le (starts.trans stops)
  rcases lexer.next_errors_cases with ⟨-, same⟩ | ⟨illegal, error, added, describes⟩
  · refine ⟨?_, ?_, ?_, ?_, positive.trans_le linesOn, recorded.line⟩ <;> rw [same]
    · exact recorded.ordered
    · exact behind
    · exact recorded.numbered
    · exact recorded.filter_behind.symm
  · have reading := lexer.next_reading_text
    have onward : lexer.next.1.span.start < lexer.next.2.scanner.offset :=
      reading.offset ▸ reading.start_lt_stop (by simp [illegal])
    refine ⟨?_, ?_, ?_, ?_, positive.trans_le linesOn, recorded.line⟩ <;> rw [added]
    · refine List.pairwise_append.2 ⟨recorded.ordered, List.pairwise_singleton _ _, ?_⟩
      rintro first mem second (_ | ⟨_, ⟨⟩⟩)
      rw [describes.span]
      exact (recorded.behind first mem).trans_le starts
    · simp only [List.forall_mem_append, List.forall_mem_singleton]
      exact ⟨behind, describes.span ▸ onward⟩
    · simp only [List.forall_mem_append, List.forall_mem_singleton]
      exact ⟨recorded.numbered, describes.line ▸ positive⟩
    · have ahead : ¬error.span.start < lexer.scanner.offset := by
        rw [describes.span]
        omega
      rw [List.filter_append, next_before, recorded.filter_behind]
      simp [ahead, errors]

/-- A braced word taken verbatim goes back behind its opening brace, leaves on record
what was there, and keeps the record in order. -/
theorem capture (recorded : lexer.Recorded) (numbered : 0 < opening.line)
    (captured : lexer.capture? opening = some (word, later)) : later.Recorded := by
  obtain ⟨-, -, before, capturing⟩ := capture?_capturing captured
  have errors : later.errors = lexer.before.errors := capturing.errors
  have kept : ∀ error ∈ later.errors,
      error ∈ lexer.errors ∧ error.span.start < lexer.before.offset := by
    intro error mem
    rw [errors, recorded.earlier] at mem
    simpa using mem
  constructor
  case ordered =>
    rw [errors, recorded.earlier]
    exact recorded.ordered.filter _
  case behind =>
    intro error mem
    have := (kept error mem).2
    have := capturing.offset
    omega
  case numbered => exact fun error mem => recorded.numbered error (kept error mem).1
  case earlier =>
    rw [errors, before]
    refine (List.filter_eq_self.2 fun error mem => decide_eq_true ?_).symm
    exact (kept error (errors ▸ mem)).2
  case line => exact capturing.line ▸ Nat.add_pos_left numbered _
  case lineBefore => exact before ▸ recorded.lineBefore

/-- Tokens are numbered from the first line on. -/
theorem next_line_pos (recorded : lexer.Recorded) : 0 < lexer.next.1.line :=
  recorded.line.trans_le lexer.line_le_next.1

/-- The error of a token is found by the place of the token. -/
theorem errorAt?_eq (recorded : lexer.Recorded) {error : LexicalError} {token : Token}
    (mem : error ∈ lexer.errors) (describes : error.Describes token) :
    lexer.errorAt? token.span = some error := by
  obtain ⟨before, after, split⟩ := List.append_of_mem mem
  have ordered := recorded.ordered
  rw [split, List.pairwise_append] at ordered
  refine List.find?_eq_some_iff_append.2 ⟨by simp [describes.span], before, after, split, ?_⟩
  intro other earlier
  have less := ordered.2.2 other earlier error (by simp)
  simp only [describes.span] at less
  simpa using less.ne

end Recorded

end Lexer

/-! ## Places of braces and of errors -/

/-- The character at a byte offset of a text. -/
def Text.charAt (source : List Char) (offset : Nat) : Char :=
  Cursor.currentChar { source, position := offset }

/-- A scanner stands at the character that it is about to read. -/
theorem Scanner.StandsIn.charAt_eq {scanner : Scanner} {source : List Char}
    (stands : scanner.StandsIn source) :
    charAt source scanner.offset = scanner.rest.headD '\x00' := by
  obtain ⟨passed, rfl, offset⟩ := stands
  rw [charAt, Cursor.currentChar, offset, splitBytes?_byteLength]
  cases scanner.rest <;> rfl

section Places

variable {lexer : Lexer} {source : List Char}

theorem Lexer.tokenStart_standsIn (stands : lexer.scanner.StandsIn source) :
    lexer.tokenStart.StandsIn source :=
  stands.move lexer.tokenGap (by simp [tokenGap, tokenStart, Scanner.advance]) rfl

/-- An opening brace takes the one byte at its place. -/
theorem Lexer.next_openBrace (stands : lexer.scanner.StandsIn source)
    (opening : lexer.next.1.kind = .openBrace) :
    charAt source lexer.next.1.span.start = '\x7b' ∧
      lexer.next.1.span.stop = lexer.next.1.span.start + 1 := by
  have text : lexer.tokenText = ['\x7b'] := Lexeme.scan_openBrace opening
  have stop := lexer.next_reading_text.stop
  refine ⟨?_, by rw [stop, text]; rfl⟩
  have whole := List.take_append_drop lexer.lexeme.length lexer.tokenStart.rest
  have place := (tokenStart_standsIn stands).charAt_eq
  rw [← whole, show lexer.tokenStart.rest.take lexer.lexeme.length = _ from text] at place
  exact place

/-- No illegal token starts with an opening brace. -/
theorem Lexer.next_illegal (stands : lexer.scanner.StandsIn source)
    (illegal : lexer.next.1.kind = .illegal) :
    charAt source lexer.next.1.span.start ≠ '\x7b' := by
  have place := (tokenStart_standsIn stands).charAt_eq
  intro brace
  have first : lexer.tokenStart.rest.headD '\x00' = '\x7b' := place.symm.trans brace
  cases left : lexer.tokenStart.rest with
  | nil => simp [left] at first
  | cons char rest =>
    obtain rfl : char = '\x7b' := by simpa [left] using first
    have kind : lexer.lexeme.kind = .openBrace := by simp [lexeme, left, Lexeme.scan]
    exact absurd (kind.symm.trans illegal) (by decide)

end Places

/-! ## Calls of a lexer -/

namespace Lexer.Session

/-- The tokens that stand after one more call, if `stood` did before. A braced word
taken verbatim takes back every token from its opening brace on. -/
def keep (session : Session) (stood : List Token) : Call → List Token
  | .next => stood ++ [session.lexer.next.1]
  | .capture index =>
    match session.tokens[index]? with
    | none => stood
    | some opening =>
      if (session.lexer.capture? opening).isSome then
        stood.filter fun token => token.span.start < opening.span.start
      else stood

/-- The tokens that stand after a list of calls, if `stood` did before. -/
def standing (session : Session) (stood : List Token) : List Call → List Token
  | [] => stood
  | call :: calls => (session.call call).standing (session.keep stood call) calls

/-- The illegal ones of some tokens. -/
def illegals (tokens : List Token) : List Token :=
  tokens.filter (·.kind == .illegal)

/-- What every call keeps: the errors on record are those of the illegal tokens that
stand. That a token is taken back with its error rests on the places of both: an
opening brace takes one byte, and no error starts there. -/
structure Faithful (session : Session) (stood : List Token) (text : List Char) : Prop where
  recorded : session.lexer.Recorded
  here : session.lexer.scanner.StandsIn text
  before : session.lexer.before.StandsIn text
  told : session.lexer.errors.map (fun error => (error.fault.message, error.span, error.line)) =
    (illegals stood).map fun token => (token.literal, token.span, token.line)
  numbered : ∀ token ∈ session.tokens, 0 < token.line
  opened : ∀ token ∈ session.tokens, token.kind = .openBrace →
    charAt text token.span.start = '\x7b' ∧ token.span.stop = token.span.start + 1
  unopened : ∀ error ∈ session.lexer.errors, charAt text error.span.start ≠ '\x7b'

namespace Faithful

variable {session : Session} {stood : List Token} {text : List Char}

theorem next (faithful : session.Faithful stood text) :
    (session.call .next).Faithful (session.keep stood .next) text := by
  have opened : ∀ token ∈ session.tokens ++ [session.lexer.next.1], token.kind = .openBrace →
      charAt text token.span.start = '\x7b' ∧ token.span.stop = token.span.start + 1 := by
    simp only [List.forall_mem_append, List.forall_mem_singleton]
    exact ⟨faithful.opened, next_openBrace faithful.here⟩
  have numbered : ∀ token ∈ session.tokens ++ [session.lexer.next.1], 0 < token.line := by
    simp only [List.forall_mem_append, List.forall_mem_singleton]
    exact ⟨faithful.numbered, faithful.recorded.next_line_pos⟩
  have here := session.lexer.next_reading_text.standsIn faithful.here
  refine ⟨faithful.recorded.next, here, faithful.here, ?_, numbered, opened, ?_⟩
  · rcases session.lexer.next_errors_cases with ⟨legal, same⟩ | ⟨illegal, error, added, describes⟩
    · simpa [call, keep, illegals, same, legal] using faithful.told
    · simpa [call, keep, illegals, added, illegal, describes.message, describes.span,
        describes.line] using faithful.told
  · rcases session.lexer.next_errors_cases with ⟨legal, same⟩ | ⟨illegal, error, added, describes⟩
    · simpa [call, same] using faithful.unopened
    · simp only [call, added, List.forall_mem_append, List.forall_mem_singleton, describes.span]
      exact ⟨faithful.unopened, next_illegal faithful.here illegal⟩

theorem capture (faithful : session.Faithful stood text) {opening : Token} {word : RawBraced}
    {later : Lexer} (given : opening ∈ session.tokens)
    (captured : session.lexer.capture? opening = some (word, later)) :
    Faithful { session with lexer := later }
      (stood.filter fun token => token.span.start < opening.span.start) text := by
  obtain ⟨kind, place, before, capturing⟩ := capture?_capturing captured
  have errors : later.errors = session.lexer.before.errors := capturing.errors
  have recorded := faithful.recorded.capture (faithful.numbered opening given) captured
  obtain ⟨brace, stop⟩ := faithful.opened opening given kind
  -- What was on record behind the brace is what starts before it.
  have kept : later.errors =
      session.lexer.errors.filter fun error => error.span.start < opening.span.start := by
    rw [errors, faithful.recorded.earlier]
    refine List.filter_congr fun error mem => decide_eq_decide.2 ?_
    have apart : error.span.start ≠ opening.span.start := fun same =>
      faithful.unopened error mem (same ▸ brace)
    omega
  refine ⟨recorded, ?_, before ▸ faithful.before, ?_, faithful.numbered, faithful.opened, ?_⟩
  · exact faithful.before.move (word.body ++ ['\x7d']) (by simp [capturing.input])
      (by simp [capturing.offset, Nat.add_assoc]; rfl)
  · have told := congrArg (List.filter fun entry : String × Span × Nat =>
      decide (entry.2.1.start < opening.span.start)) faithful.told
    rw [List.filter_map, List.filter_map] at told
    rw [kept, illegals, List.filter_comm]
    exact told
  · rw [kept]
    exact fun error mem => faithful.unopened error (List.mem_of_mem_filter mem)

theorem call (faithful : session.Faithful stood text) (call : Call) :
    (session.call call).Faithful (session.keep stood call) text := by
  cases call with
  | next => exact faithful.next
  | capture index =>
    cases given : session.tokens[index]? with
    | none => simpa [Session.call, keep, given] using faithful
    | some opening =>
      cases captured : session.lexer.capture? opening with
      | none => simpa [Session.call, keep, given, captured] using faithful
      | some found =>
        have after := faithful.capture (List.mem_of_getElem? given) captured
        simpa [Session.call, keep, given, captured] using after

theorem after (faithful : session.Faithful stood text) (calls : List Call) :
    (session.after calls).Faithful (session.standing stood calls) text := by
  induction calls generalizing session stood with
  | nil => exact faithful
  | cons call _ ih => exact ih (faithful.call call)

theorem start (text : List Char) (line : Nat) :
    Faithful ⟨.start text line, []⟩ [] text where
  recorded := .start text line
  here := ⟨[], rfl, rfl⟩
  before := ⟨[], rfl, rfl⟩
  told := rfl
  numbered := by simp
  opened := by simp
  unopened := by simp [Lexer.start, errors]

/-- Every illegal token that stands has its error on record. -/
theorem exists_error (faithful : session.Faithful stood text) {token : Token}
    (stands : token ∈ illegals stood) :
    ∃ error ∈ session.lexer.errors, error.Describes token := by
  have entry := List.mem_map_of_mem (f := fun token : Token =>
    (token.literal, token.span, token.line)) stands
  rw [← faithful.told] at entry
  obtain ⟨error, mem, same⟩ := List.mem_map.1 entry
  simp only [Prod.mk.injEq] at same
  exact ⟨error, mem, same.1, same.2.1, same.2.2⟩

/-- Illegal tokens that stand start at different places, in order. -/
theorem ordered (faithful : session.Faithful stood text) :
    (illegals stood).Pairwise fun first second => first.span.start < second.span.start := by
  have starts := congrArg (List.map fun entry : String × Span × Nat => entry.2.1.start)
    faithful.told
  rw [List.map_map, List.map_map] at starts
  have ordered := List.pairwise_map.2 faithful.recorded.ordered
  exact List.pairwise_map.1 (starts ▸ ordered)

end Faithful

/-- The stray closer inside a braced word is taken back when the word is taken
verbatim; those before and behind the word stay. -/
example :
    let session : Session := ⟨.start "] \x7b ] \x7d ]".toList 1, []⟩
    let calls : List Call := [.next, .next, .next, .capture 1, .next]
    (session.standing [] calls).map (·.span.start) = [0, 8] ∧
      (session.after calls).lexer.errors.map (·.span.start) = [0, 8] := by
  decide +kernel

end Lexer.Session

end IRule
