import IRule.Proofs.Lexer.Reading
import IRule.Proofs.Lexer.Separation
import IRule.Proofs.Text.Bytes

/-!
# Tokens tile the text

Nothing of a text is lost between its tokens: gaps and token texts in turn make
up the whole, every gap is made of separators, and every token says what stands
at its span and what separates it from the token before. `Tiled` is this
statement along a run of the lexer.
-/

namespace IRule

open Text

namespace Lexeme

/-- The closing quote of a string is the last character it takes. -/
theorem take_quotation {skip : Nat} {text : List Char} (closed : (quotation skip text).closed) :
    ∃ body, text.take (quotation skip text).length = body ++ ['"'] := by
  fun_induction quotation skip text with
  | case1 => simp at closed
  | case3 char rest quote => exact ⟨[], by simpa using quote⟩
  | case2 char rest | case4 char rest | case5 char rest | case6 char rest | case7 char rest =>
    rename_i ih
    obtain ⟨body, taken⟩ := ih closed
    exact ⟨char :: body, by simp [taken]⟩

/-- What the kind of a lexeme says about its fault and its text. -/
structure Tells (text : List Char) (lexeme : Lexeme) : Prop where
  faulty : lexeme.kind = .illegal → lexeme.fault ≠ none
  /-- A string starts and ends with a quote. -/
  quoted : lexeme.kind = .string → ∃ body, text.take lexeme.length = '"' :: (body ++ ['"'])

namespace Tells

variable {text : List Char}

theorem of_kind {lexeme : Lexeme} (kind : lexeme.kind ∉ [.illegal, .string]) :
    Tells text lexeme := by
  simp only [List.mem_cons, List.not_mem_nil, or_false, not_or] at kind
  exact ⟨fun illegal => absurd illegal kind.1, fun string => absurd string kind.2⟩

theorem of_fault (fault : LexicalFault) (length : Nat) : Tells text (illegal fault length) :=
  ⟨fun _ => by simp [illegal], by simp [illegal]⟩

theorem closer {kind : TokenKind} (char : Char) (depth : Nat)
    (closing : kind ∈ [.closeBrace, .closeBracket]) : Tells text (closer kind char depth) := by
  unfold Lexeme.closer
  split
  · exact of_fault _ _
  · refine of_kind ?_
    simp only [List.mem_cons, List.not_mem_nil, or_false] at closing
    rcases closing with rfl | rfl <;> decide

theorem quotedString (afterQuote : List Char) :
    Tells ('"' :: afterQuote) (quotedString afterQuote) := by
  unfold Lexeme.quotedString
  split
  · rename_i closed
    obtain ⟨body, taken⟩ := take_quotation closed
    exact ⟨by simp, fun _ => ⟨body, by simp [taken]⟩⟩
  · exact of_fault _ _

theorem numeral : Tells text (numeral text) := by
  simp only [Lexeme.numeral]
  generalize (if text.head? == some '-' then 1 else 0) = sign
  split
  · exact of_kind (by simp)
  · split
    · exact of_kind (by simp)
    · exact of_fault _ _

theorem bareWord : Tells text (bareWord text) := by
  refine of_kind fun listed => ?_
  have isWord := bareWord_isWord text
  simp only [List.mem_cons, List.not_mem_nil, or_false] at listed
  rcases listed with kind | kind <;> simp [kind, TokenKind.isWord] at isWord

end Tells

/-- The lexeme at the head of any input tells. -/
theorem scan_tells (braceDepth bracketDepth : Nat) (text : List Char) :
    Tells text (scan braceDepth bracketDepth text) := by
  cases text with
  | nil => exact .of_kind (by simp [scan])
  | cons char rest =>
    refine scan_cases braceDepth bracketDepth char rest ?_ ?_ ?_ ?_ ?_ ?_ ?_ ?_ ?_ ?_ ?_
    · exact fun _ => .of_kind (by decide)
    · exact fun _ => .closer _ _ (by decide)
    · exact fun _ => .of_kind (by decide)
    · exact fun _ => .closer _ _ (by decide)
    · intro _
      refine .of_kind ?_
      rcases reference_kind rest with kind | kind <;> simp [kind]
    · rintro rfl
      exact .quotedString rest
    · exact fun _ => .numeral
    · exact fun _ => .bareWord
    · exact fun _ => .of_kind (by simp)
    · intro spelling kind known _
      have plain : ∀ entry ∈ symbols, entry.2 ∉ [.illegal, .string] := by decide
      exact .of_kind (plain _ known)
    · exact fun _ _ => .of_fault _ _

/-- Only illegal lexemes have a fault. -/
theorem scan_faultless {braceDepth bracketDepth : Nat} {text : List Char}
    (legal : (scan braceDepth bracketDepth text).kind ≠ .illegal) :
    (scan braceDepth bracketDepth text).fault = none := by
  cases text with
  | nil => rfl
  | cons char rest => exact (scan_fits braceDepth bracketDepth char rest).faultless legal

end Lexeme

/-! ## One token -/

/-- What reading a token does, and what the token says about it: its spacing
describes the gap, and its literal the text or the fault. -/
structure Telling (before : Scanner) (gap text : List Char) (token : Token) (after : Scanner) :
    Prop extends Reading before gap text token after where
  described : ∃ separators, Lexeme.Parted (text ++ after.rest) separators gap ∧
    token.spacing = Lexeme.spacingOf separators
  verbatim : token.kind ≠ .illegal → token.kind ≠ .string → token.literal = String.ofList text
  quoted : token.kind = .string →
    ∃ body, text = '"' :: (body ++ ['"']) ∧ token.literal = String.ofList body
  faulty : token.kind = .illegal →
    ∃ fault, ⟨fault, token.span, token.line⟩ ∈ after.errors ∧ token.literal = fault.message
  errors : before.errors <+: after.errors

namespace Lexer

/-- Errors are recorded behind those of before, one for each fault. -/
theorem next_errors (lexer : Lexer) :
    lexer.next.2.scanner.errors = lexer.scanner.errors ++
      (lexer.lexeme.fault.map fun fault =>
        ⟨fault, lexer.next.1.span, lexer.next.1.line⟩).toList := by
  have kept : lexer.tokenStop.errors = lexer.scanner.errors := by
    unfold tokenStop Scanner.delimit
    split <;> rfl
  rw [next_eq]
  cases lexer.lexeme.fault with
  | none => simp [kept]
  | some fault => simp [Scanner.fail, kept]

/-- Every token tells what was read. -/
theorem next_telling (lexer : Lexer) :
    Telling lexer.scanner lexer.tokenGap lexer.tokenText lexer.next.1 lexer.next.2.scanner := by
  have tells : lexer.lexeme.Tells lexer.tokenStart.rest := Lexeme.scan_tells _ _ _
  have literal : lexer.next.1.literal = lexer.lexeme.literal lexer.tokenText := rfl
  refine ⟨lexer.next_reading_text, ?described, ?verbatim, ?quoted, ?faulty, ?errors⟩
  case described =>
    have described : lexer.trivia.Describes lexer.scanner.rest :=
      Lexeme.Trivia.scan_describes lexer.scanner.rest
    obtain ⟨separators, parted, spacing⟩ := described
    have after : lexer.scanner.rest.drop lexer.trivia.length =
        lexer.tokenText ++ lexer.next.2.scanner.rest := by
      rw [next_rest]
      simp [tokenStop, tokenText, tokenStart, Scanner.advance]
    exact ⟨separators, after ▸ parted, spacing⟩
  case verbatim =>
    intro legal unquoted
    have faultless : lexer.lexeme.fault = none := Lexeme.scan_faultless legal
    have notString : lexer.lexeme.kind ≠ .string := unquoted
    simp [literal, Lexeme.literal, faultless, notString]
  case quoted =>
    intro string
    obtain ⟨body, text⟩ := tells.quoted string
    refine ⟨body, text, ?_⟩
    rw [← String.toList_inj, next_literal_of_string string, tokenText, text]
    simp [unquote]
  case faulty =>
    intro illegal
    obtain ⟨fault, found⟩ := Option.ne_none_iff_exists'.1 (tells.faulty illegal)
    exact ⟨fault, by simp [next_errors, found], by simp [literal, Lexeme.literal, found]⟩
  case errors =>
    rw [next_errors]
    exact List.prefix_append _ _

end Lexer

/-! ## All tokens -/

/-- Tokens tell, one after the other, what was read up to the end of the input. -/
inductive Tiled : Scanner → List Token → Scanner → Prop where
  | last {before after : Scanner} {gap : List Char} {token : Token}
      (telling : Telling before gap [] token after) (ended : token.kind = .endOfInput) :
      Tiled before [token] after
  | cons {before middle after : Scanner} {gap text : List Char} {token : Token}
      {tokens : List Token} (telling : Telling before gap text token middle)
      (more : token.kind ≠ .endOfInput) (later : Tiled middle tokens after) :
      Tiled before (token :: tokens) after

section Reading

variable {before after : Scanner} {gap text : List Char} {token : Token}

/-- A token that is not the last one leaves less to read. -/
theorem Reading.length_lt (reading : Reading before gap text token after)
    (more : token.kind ≠ .endOfInput) : after.rest.length < before.rest.length := by
  have someText := List.length_pos_iff.2 (mt reading.ends.2 more)
  simp only [reading.input, List.length_append]
  omega

/-- A token that is not the last one has a span. -/
theorem Reading.start_lt_stop (reading : Reading before gap text token after)
    (more : token.kind ≠ .endOfInput) : token.span.start < token.span.stop := by
  have someText := List.length_pos_iff.2 (mt reading.ends.2 more)
  have := length_le_byteLength text
  rw [reading.stop]
  omega

/-- Behind a token the scanner stands in the same text. -/
theorem Reading.standsIn {source : List Char} (reading : Reading before gap text token after)
    (stands : before.StandsIn source) : after.StandsIn source := by
  refine stands.move (gap ++ text) (by simp [reading.input]) ?_
  rw [reading.offset, reading.stop, reading.start, byteLength_append, Nat.add_assoc]

end Reading

/-- Enough tokens tile the text. -/
theorem Lexer.take_tiled {count : Nat} {lexer : Lexer}
    (enough : lexer.scanner.rest.length < count) :
    Tiled lexer.scanner (lexer.take count).1 (lexer.take count).2.scanner := by
  induction count generalizing lexer with
  | zero => simp at enough
  | succ count ih =>
    have telling := lexer.next_telling
    by_cases ended : lexer.next.1.kind = .endOfInput
    · have noText : lexer.tokenText = [] := telling.ends.1 ended
      rw [noText] at telling
      simpa [take, ended] using Tiled.last telling ended
    · have less : lexer.next.2.scanner.rest.length < count :=
        (telling.length_lt ended).trans_le (Nat.le_of_lt_succ enough)
      have later := ih less
      simpa [take, ended] using Tiled.cons telling ended later

theorem Lexer.takeAll_tiled (lexer : Lexer) :
    Tiled lexer.scanner lexer.takeAll.1 lexer.takeAll.2.scanner :=
  take_tiled (Nat.lt_succ_self _)

/-- Where the last of some tokens stops, or `offset` when there are none. -/
def stopBehind (offset : Nat) : List Token → Nat
  | [] => offset
  | token :: tokens => stopBehind token.span.stop tokens

namespace Tiled

variable {before after : Scanner} {tokens : List Token} {source : List Char}

/-- Nothing starts before the place where reading starts. -/
theorem offset_le (tiled : Tiled before tokens after) :
    ∀ token ∈ tokens, before.offset ≤ token.span.start := by
  induction tiled with
  | last telling => simp [telling.start]
  | cons telling _ _ ih =>
    rintro token (_ | ⟨_, later⟩)
    · simp [telling.start]
    · have := ih token later
      have := telling.offset
      have := telling.stop
      have := telling.start
      omega

/-- Errors stay on record. -/
theorem errors (tiled : Tiled before tokens after) : before.errors <+: after.errors := by
  induction tiled with
  | last telling => exact telling.errors
  | cons telling _ _ ih => exact telling.errors.trans ih

/-- Tokens do not overlap and stand in order. -/
theorem pairwise (tiled : Tiled before tokens after) :
    tokens.Pairwise fun first second => first.span.stop ≤ second.span.start := by
  induction tiled with
  | last => exact List.pairwise_singleton _ _
  | cons telling _ later ih =>
    refine List.pairwise_cons.2 ⟨fun token mem => ?_, ih⟩
    rw [← telling.offset]
    exact later.offset_le token mem

/-- The end of the input is the last token, at the end of the text, and no other
token is. -/
theorem ends (tiled : Tiled before tokens after) (stands : before.StandsIn source) :
    ∃ earlier last, tokens = earlier ++ [last] ∧ last.kind = .endOfInput ∧ last.literal = "" ∧
      last.span = ⟨byteLength source, byteLength source⟩ ∧
      ∀ token ∈ earlier, token.kind ≠ .endOfInput ∧ token.span.start < token.span.stop := by
  induction tiled with
  | @last before after gap token telling ended =>
    have total := stands.total
    have noRest : after.rest = [] := telling.last ended
    rw [telling.input, noRest, List.append_nil, List.append_nil] at total
    have start : token.span.start = byteLength source := by rw [telling.start, total]
    have stop : token.span.stop = byteLength source := by rw [telling.stop, start]; simp
    refine ⟨[], token, rfl, ended, ?_, ?_, by simp⟩
    · simpa using telling.verbatim (by simp [ended]) (by simp [ended])
    · calc
        token.span = ⟨token.span.start, token.span.stop⟩ := rfl
        _ = ⟨byteLength source, byteLength source⟩ := by rw [start, stop]
  | cons telling more _ ih =>
    obtain ⟨earlier, last, rfl, ended, literal, span, others⟩ := ih (telling.standsIn stands)
    refine ⟨_ :: earlier, last, rfl, ended, literal, span, ?_⟩
    rintro token (_ | ⟨_, mem⟩)
    · exact ⟨more, telling.start_lt_stop more⟩
    · exact others token mem

/-- Every token of a tiling stands somewhere in the text, behind the token before it. -/
theorem telling (tiled : Tiled before tokens after) (stands : before.StandsIn source)
    {earlier later : List Token} {token : Token} (split : tokens = earlier ++ token :: later) :
    ∃ reader gap text next, Telling reader gap text token next ∧ reader.StandsIn source ∧
      reader.offset = stopBehind before.offset earlier ∧ next.errors <+: after.errors := by
  induction tiled generalizing earlier with
  | @last before after gap only telling ended =>
    cases earlier with
    | nil =>
      obtain ⟨rfl, -⟩ : only = token ∧ later = [] := by simpa using split
      exact ⟨before, gap, [], after, telling, stands, rfl, List.prefix_rfl⟩
    | cons first earlier => simp at split
  | @cons before middle after gap text first tokens telling _ rest ih =>
    cases earlier with
    | nil =>
      obtain ⟨rfl, -⟩ : first = token ∧ tokens = later := by simpa using split
      exact ⟨before, gap, text, middle, telling, stands, rfl, rest.errors⟩
    | cons head earlier =>
      obtain ⟨rfl, tail⟩ : first = head ∧ tokens = earlier ++ token :: later := by simpa using split
      obtain ⟨reader, gap, text, next, told, stands, offset, errors⟩ :=
        ih (telling.standsIn stands) tail
      exact ⟨reader, gap, text, next, told, stands, by rw [offset, telling.offset]; rfl, errors⟩

end Tiled

/-! ## The text and its tokens -/

/-- A token is right about its place in a text, of which `passed` comes first, then
the gap in front of the token, its text and the rest. -/
structure Token.Placed (token : Token) (errors : List LexicalError)
    (passed gap text rest : List Char) : Prop where
  span : token.span = ⟨byteLength (passed ++ gap), byteLength (passed ++ gap ++ text)⟩
  /-- Separators, and only they, make up the gap. -/
  parted : ∃ separators, Lexeme.Parted (text ++ rest) separators gap
  adjacent : token.spacing.isAdjacent ↔ gap = []
  newline : ∀ separators, Lexeme.Parted (text ++ rest) separators gap →
    (token.spacing.newline ↔ .lineEnd ∈ separators)
  space : ∀ separators, Lexeme.Parted (text ++ rest) separators gap →
    (token.spacing.space ↔
      (∃ char, .blank char ∈ separators) ∨ ∃ carriage, .hiddenEnd carriage ∈ separators)
  comment : ∀ separators, Lexeme.Parted (text ++ rest) separators gap →
    (token.spacing.comment ↔ ∃ body, .comment body ∈ separators)
  verbatim : token.kind ≠ .illegal → token.kind ≠ .string → token.literal = String.ofList text
  quoted : token.kind = .string →
    ∃ body, text = '"' :: (body ++ ['"']) ∧ token.literal = String.ofList body
  faulty : token.kind = .illegal →
    ∃ fault, ⟨fault, token.span, token.line⟩ ∈ errors ∧ token.literal = fault.message

/-- A token that tells what was read is right about its place. -/
theorem Telling.placed {before after : Scanner} {gap text passed : List Char} {token : Token}
    {errors : List LexicalError} (telling : Telling before gap text token after)
    (counted : before.offset = byteLength passed) (kept : after.errors <+: errors) :
    token.Placed errors passed gap text after.rest := by
  obtain ⟨separators, parted, spacing⟩ := telling.described
  have only : ∀ others, Lexeme.Parted (text ++ after.rest) others gap → others = separators :=
    fun others also => also.unique parted
  constructor
  case span =>
    calc
      token.span = ⟨token.span.start, token.span.stop⟩ := rfl
      _ = _ := by simp [telling.stop, telling.start, counted, Nat.add_assoc]
  case parted => exact ⟨separators, parted⟩
  case adjacent => rw [spacing, Lexeme.spacingOf_isAdjacent, parted.eq_nil_iff]
  case newline =>
    rintro others also
    rw [spacing, only others also, Lexeme.spacingOf_newline]
  case space =>
    rintro others also
    rw [spacing, only others also, Lexeme.spacingOf_space]
  case comment =>
    rintro others also
    rw [spacing, only others also, Lexeme.spacingOf_comment]
  case verbatim => exact telling.verbatim
  case quoted => exact telling.quoted
  case faulty =>
    intro illegal
    obtain ⟨fault, recorded, literal⟩ := telling.faulty illegal
    exact ⟨fault, kept.subset recorded, literal⟩

/-- The tokens of a text end with the end of the input and hold it nowhere else;
their spans stand in order and do not overlap. Every token stands behind a gap of
separators that reaches back to the token before it, is spelled as its literal
says, and tells by its spacing what the gap is made of. -/
theorem tokenize_lossless (source : String) :
    (∃ tokens last, tokenize source = tokens ++ [last] ∧ last.kind = .endOfInput ∧
      last.literal = "" ∧
      last.span = ⟨byteLength source.toList, byteLength source.toList⟩ ∧
      ∀ token ∈ tokens, token.kind ≠ .endOfInput ∧ token.span.start < token.span.stop) ∧
    (tokenize source).Pairwise (fun first second => first.span.stop ≤ second.span.start) ∧
    ∀ earlier token later, tokenize source = earlier ++ token :: later →
      ∃ passed gap text rest, source.toList = passed ++ (gap ++ (text ++ rest)) ∧
        byteLength passed = stopBehind 0 earlier ∧ slice source.toList token.span = text ∧
        token.Placed (Lexer.start source.toList 1).takeAll.2.errors passed gap text rest := by
  have tiled := (Lexer.start source.toList 1).takeAll_tiled
  have stands : (Lexer.start source.toList 1).scanner.StandsIn source.toList := ⟨[], rfl, rfl⟩
  refine ⟨tiled.ends stands, tiled.pairwise, fun earlier token later split => ?_⟩
  obtain ⟨reader, gap, text, next, telling, ⟨passed, whole, counted⟩, offset, kept⟩ :=
    tiled.telling stands split
  rw [telling.input] at whole
  have placed := telling.placed counted kept
  refine ⟨passed, gap, text, next.rest, whole, counted ▸ offset, ?_, placed⟩
  rw [placed.span, whole, ← List.append_assoc]
  exact slice_append (passed ++ gap) text next.rest

end IRule
