import IRule.Lexer.Error
import IRule.Text.Integer

/-!
# Lexemes

What the text at the head of the input is, how many characters of it belong
together, and how many lines end among them. Every scanner here is a function of
the remaining characters alone, and those that can cross the end of a line count
line feeds on their way; positions, line numbers and the list of errors are kept by
the lexer.
-/

namespace IRule.Lexeme

/-- Blanks within a line. -/
def isSpace (char : Char) : Bool :=
  char == ' ' || char == '\t' || char == '\r' || char == '\x0c'

/-- Characters that start a word. -/
def isNameStart (char : Char) : Bool :=
  char.isAlpha || char == '_'

/-- Characters of a name. -/
def isNameChar (char : Char) : Bool :=
  char.isAlphanum || char == '_'

/-- Characters that continue a bare word, colons apart. -/
def isWordChar (char : Char) : Bool :=
  isNameChar char || char == '.' || char == '-'

/-! ## Counting lines -/

/-- Line feeds that one character counts for. -/
def lineFeed (char : Char) : Nat :=
  if char == '\n' then 1 else 0

/-- Input passed over, and the line feeds counted on the way. -/
structure Passage where
  length : Nat
  lines : Nat
deriving DecidableEq, Repr, Inhabited

/-- Put `count` characters in front, among which `lines` line feeds were counted. -/
def Passage.extend (passage : Passage) (count lines : Nat) : Passage :=
  ⟨passage.length + count, passage.lines + lines⟩

@[simp]
theorem Passage.extend_length (passage : Passage) (count lines : Nat) :
    (passage.extend count lines).length = passage.length + count := rfl

@[simp]
theorem Passage.extend_lines (passage : Passage) (count lines : Nat) :
    (passage.extend count lines).lines = passage.lines + lines := rfl

/-! ## What separates tokens -/

/-- A run of blanks, line ends, hidden line ends and comments. -/
structure Trivia where
  length : Nat
  lines : Nat
  spacing : Spacing
deriving DecidableEq, Repr, Inhabited

namespace Trivia

/-- The empty run. -/
def empty : Trivia := ⟨0, 0, .none⟩

/-- Put a blank in front. -/
def afterSpace (trivia : Trivia) : Trivia :=
  ⟨trivia.length + 1, trivia.lines, { trivia.spacing with space := true }⟩

/-- Put a hidden line end of `count` characters in front: it ends a line, but is blank
text to what follows. -/
def afterHiddenLine (count : Nat) (trivia : Trivia) : Trivia :=
  ⟨trivia.length + count, trivia.lines + 1, { trivia.spacing with space := true }⟩

/-- Put a line end in front. -/
def afterNewline (trivia : Trivia) : Trivia :=
  ⟨trivia.length + 1, trivia.lines + 1, { trivia.spacing with newline := true }⟩

/-- Put a character of a comment in front. -/
def afterComment (trivia : Trivia) : Trivia :=
  ⟨trivia.length + 1, trivia.lines, { trivia.spacing with comment := true }⟩

/-- The run at the head of the input. A comment lasts up to, and not including,
the end of its line. -/
def scan (inComment : Bool) : List Char → Trivia
  | [] => empty
  | char :: rest =>
    if char == '\n' then (scan false rest).afterNewline
    else if inComment then (scan true rest).afterComment
    else if isSpace char then (scan false rest).afterSpace
    else if char == '#' then (scan true rest).afterComment
    else if char == '\\' then
      match rest with
      | '\n' :: later => (scan false later).afterHiddenLine 2
      | '\r' :: '\n' :: later => (scan false later).afterHiddenLine 3
      | _ => empty
    else empty

end Trivia

/-! ## Quoted strings -/

/-- What a substitution inside a string is waiting for. -/
inductive Pending where
  | bracket
  | quote
deriving DecidableEq, Repr, Inhabited

/-- The passage from just after a `[` to just past the `]` that closes it, where
`pending` lists the open brackets and quotes, innermost first. Quotes inside a
substitution open words of their own and hide brackets; a backslash hides the
character after it. -/
def substitution? (pending : List Pending) : List Char → Option Passage
  | [] => none
  | '\\' :: rest =>
    match rest with
    | [] => none
    | hidden :: later => (substitution? pending later).map (·.extend 2 (lineFeed hidden))
  | char :: rest =>
    match pending with
    | [] => none
    | .quote :: outer =>
      if char == '"' then (substitution? outer rest).map (·.extend 1 0)
      else (substitution? pending rest).map (·.extend 1 (lineFeed char))
    | .bracket :: outer =>
      if char == '"' then (substitution? (.quote :: pending) rest).map (·.extend 1 0)
      else if char == '[' then (substitution? (.bracket :: pending) rest).map (·.extend 1 0)
      else if char == ']' then
        if outer.isEmpty then some ⟨1, 0⟩ else (substitution? outer rest).map (·.extend 1 0)
      else (substitution? pending rest).map (·.extend 1 (lineFeed char))

/-- What is passed over in search of a closing quote, and whether there is one. -/
structure Quotation where
  length : Nat
  lines : Nat
  closed : Bool
deriving DecidableEq, Repr, Inhabited

/-- Put `count` characters in front, among which `lines` line feeds were counted. -/
def Quotation.extend (quotation : Quotation) (count lines : Nat) : Quotation :=
  ⟨quotation.length + count, quotation.lines + lines, quotation.closed⟩

@[simp]
theorem Quotation.extend_length (quotation : Quotation) (count lines : Nat) :
    (quotation.extend count lines).length = quotation.length + count := rfl

@[simp]
theorem Quotation.extend_lines (quotation : Quotation) (count lines : Nat) :
    (quotation.extend count lines).lines = quotation.lines + lines := rfl

@[simp]
theorem Quotation.extend_closed (quotation : Quotation) (count lines : Nat) :
    (quotation.extend count lines).closed = quotation.closed := rfl

/-- The passage from just after an opening quote to just past the closing one, or to
the end of the input. The first `skip` characters are known to belong to the body,
and their lines are counted. A `[` whose substitution closes takes it along whole; one
that never closes is plain text, and what was counted behind it is counted again. -/
def quotation (skip : Nat) : List Char → Quotation
  | [] => ⟨0, 0, false⟩
  | char :: rest =>
    match skip with
    | more + 1 => (quotation more rest).extend 1 0
    | 0 =>
      if char == '"' then ⟨1, 0, true⟩
      else if char == '\\' then (quotation 1 rest).extend 1 ((rest.head?.map lineFeed).getD 0)
      else if char == '[' then
        match substitution? [.bracket] rest with
        | some inner => (quotation inner.length rest).extend 1 inner.lines
        | none => (quotation 0 rest).extend 1 0
      else (quotation 0 rest).extend 1 (lineFeed char)

/-! ## Names, words and numbers -/

/-- Length of a name with its `::` separators. -/
def nameLength : List Char → Nat
  | ':' :: ':' :: rest => nameLength rest + 2
  | char :: rest => if isNameChar char then nameLength rest + 1 else 0
  | [] => 0

/-- Length of the reference that follows a `$`, zero when none is well formed.
A braced name is any non-empty text on one line. -/
def referenceLength : List Char → Nat
  | '\x7b' :: rest =>
    let name := rest.takeWhile fun char => char != '\x7d' && char != '\n'
    if name.isEmpty then 0
    else if (rest.drop name.length).head? == some '\x7d' then name.length + 2
    else 0
  | text => nameLength text

/-- Length of a bare word: names, dots and dashes, joined by `::` or by a colon
that a name follows. -/
def wordLength : List Char → Nat
  | ':' :: next :: rest =>
    if next == ':' || isNameChar next then wordLength rest + 2 else 0
  | char :: rest => if isWordChar char then wordLength rest + 1 else 0
  | [] => 0

/-- Length of digit groups joined by single dots. -/
def numeralLength : List Char → Nat
  | '.' :: next :: rest => if next.isDigit then numeralLength rest + 2 else 0
  | char :: rest => if char.isDigit then numeralLength rest + 1 else 0
  | [] => 0

/-- Parts of a text between the separators. -/
def partsBetween (separator : Char) : List Char → List (List Char)
  | [] => [[]]
  | char :: rest =>
    match partsBetween separator rest with
    | [] => [[char]]
    | part :: parts => if char == separator then [] :: part :: parts else (char :: part) :: parts

/-- Whether digit groups form an address of four octets. -/
def isDottedQuad (text : List Char) : Bool :=
  let octets := partsBetween '.' text
  octets.length == 4 && octets.all Text.isOctet

/-! ## Symbols -/

/-- Symbols and their kinds, longer spellings first. A `+` is a word, so that it
can be the argument of a command. -/
def symbols : List (List Char × TokenKind) := [
  (['(' ], .openParen), ([')'], .closeParen), ([','], .comma), ([';'], .semicolon),
  ([':', ':'], .doubleColon), ([':'], .colon), (['+'], .word), (['-'], .minus),
  (['*'], .asterisk), (['/'], .slash), (['%'], .percent), (['^'], .caret),
  (['!', '='], .notEqual), (['!'], .bang), (['<', '='], .lessEqual), (['<'], .less),
  (['>', '='], .greaterEqual), (['>'], .greater), (['=', '='], .equal),
  (['&', '&'], .both), (['|', '|'], .either)]

/-- The symbol at the head of the input. -/
def symbol? (text : List Char) : Option (List Char × TokenKind) :=
  symbols.find? fun (spelling, _) => spelling.isPrefixOf text

end Lexeme

/-- A piece of input that makes one token. -/
structure Lexeme where
  kind : TokenKind
  /-- Number of characters. -/
  length : Nat
  fault : Option LexicalFault := none
deriving DecidableEq, Repr, Inhabited

namespace Lexeme

/-- Characters that make no token. -/
def illegal (fault : LexicalFault) (length : Nat) : Lexeme :=
  ⟨.illegal, length, some fault⟩

/-- A closing delimiter, which must have an opening one. -/
def closer (kind : TokenKind) (char : Char) (depth : Nat) : Lexeme :=
  if depth = 0 then illegal (.strayCloser char) 1 else ⟨kind, 1, none⟩

/-- A reference, or a lone `$` when none is well formed. -/
def reference (afterDollar : List Char) : Lexeme :=
  match referenceLength afterDollar with
  | 0 => ⟨.dollar, 1, none⟩
  | length => ⟨.reference, length + 1, none⟩

/-- A quoted string; without its closing quote the rest of the input is lost. -/
def quotedString (afterQuote : List Char) : Lexeme :=
  if (quotation 0 afterQuote).closed then ⟨.string, (quotation 0 afterQuote).length + 1, none⟩
  else illegal .unterminatedString ((quotation 0 afterQuote).length + 1)

/-- A number or a dotted quad, optionally negative. -/
def numeral (text : List Char) : Lexeme :=
  let sign := if text.head? == some '-' then 1 else 0
  let length := sign + numeralLength (text.drop sign)
  let literal := text.take length
  if !literal.contains '.' then ⟨.number, length, none⟩
  else if sign == 0 && isDottedQuad literal then ⟨.address, length, none⟩
  else illegal (.invalidNumber (String.ofList literal)) length

/-- A bare word, which may be one with a kind of its own. -/
def bareWord (text : List Char) : Lexeme :=
  let length := wordLength text
  ⟨(TokenKind.ofText? (String.ofList (text.take length))).getD .word, length, none⟩

/-- Whether a number stands at the head of the input. -/
def startsNumeral : List Char → Bool
  | '-' :: next :: _ => next.isDigit
  | char :: _ => char.isDigit
  | [] => false

/-- The lexeme at the head of the input, given the open braces and brackets. -/
def scan (braceDepth bracketDepth : Nat) : List Char → Lexeme
  | [] => ⟨.endOfInput, 0, none⟩
  | char :: rest =>
    if char == '\x7b' then ⟨.openBrace, 1, none⟩
    else if char == '\x7d' then closer .closeBrace char braceDepth
    else if char == '[' then ⟨.openBracket, 1, none⟩
    else if char == ']' then closer .closeBracket char bracketDepth
    else if char == '$' then reference rest
    else if char == '"' then quotedString rest
    else if startsNumeral (char :: rest) then numeral (char :: rest)
    else if isNameStart char then bareWord (char :: rest)
    else if char == '\\' then ⟨.word, 1 + min 1 rest.length, none⟩
    else
      match symbol? (char :: rest) with
      | some (spelling, kind) => ⟨kind, spelling.length, none⟩
      | none => illegal (.illegalCharacter char) 1

/-- Line feeds counted in the lexeme at the head of the input. Only a quoted string
goes on behind the end of a line. -/
def countedLines : List Char → Nat
  | '"' :: rest => (quotation 0 rest).lines
  | _ => 0

end Lexeme

end IRule
