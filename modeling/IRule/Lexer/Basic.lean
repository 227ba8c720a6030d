import IRule.Lexer.Lexeme
import IRule.Text.Bytes

/-!
# Lexer

Tokens on demand. The lexer never fails: lexical problems become `illegal`
tokens and are recorded as errors. The body of a `{...}` word can be taken
verbatim after the token behind its `{` was read; that token is then undone.
-/

namespace IRule

/-- A position in the input with what has been counted on the way to it. -/
structure Scanner where
  rest : List Char
  /-- Byte offset of `rest`. -/
  offset : Nat := 0
  line : Nat := 1
  /-- Braces open at this point. -/
  braceDepth : Nat := 0
  /-- Brackets open at this point. -/
  bracketDepth : Nat := 0
  /-- Lexical errors so far, in source order. -/
  errors : List LexicalError := []
deriving DecidableEq, Repr, Inhabited

namespace Scanner

/-- Move past `count` characters, among which `lines` line feeds were counted. -/
def advance (scanner : Scanner) (count lines : Nat) : Scanner :=
  { scanner with
    rest := scanner.rest.drop count
    offset := scanner.offset + Text.byteLength (scanner.rest.take count)
    line := scanner.line + lines }

/-- Count a delimiter. -/
def delimit (scanner : Scanner) : TokenKind → Scanner
  | .openBrace => { scanner with braceDepth := scanner.braceDepth + 1 }
  | .closeBrace => { scanner with braceDepth := scanner.braceDepth - 1 }
  | .openBracket => { scanner with bracketDepth := scanner.bracketDepth + 1 }
  | .closeBracket => { scanner with bracketDepth := scanner.bracketDepth - 1 }
  | _ => scanner

/-- Record an error. -/
def fail (scanner : Scanner) (error : LexicalError) : Scanner :=
  { scanner with errors := scanner.errors ++ [error] }

end Scanner

/-- The text between quotes. -/
def unquote (text : List Char) : List Char :=
  (text.drop 1).dropLast

/-- Literal of a token: the message of a fault, the body of a string, and the
source text of anything else. -/
def Lexeme.literal (lexeme : Lexeme) (text : List Char) : String :=
  match lexeme.fault with
  | some fault => fault.message
  | none => String.ofList (if lexeme.kind == .string then unquote text else text)

/-- A braced word taken without reading its tokens. -/
structure RawBraced where
  /-- Text between the braces. -/
  body : List Char
  /-- Span of the whole word, braces included. -/
  span : Span
deriving DecidableEq, Repr, Inhabited

/-- A braced word stands for the text between its braces. -/
instance : Coe RawBraced (List Char) := ⟨RawBraced.body⟩

/-- A lexer: where it stands, and where it stood before its latest token. -/
structure Lexer where
  scanner : Scanner
  before : Scanner
deriving DecidableEq, Repr, Inhabited

namespace Lexer

/-- A lexer at the start of a text whose first line has the given number. -/
def start (text : List Char) (line : Nat) : Lexer :=
  let scanner : Scanner := { rest := text, line := max line 1 }
  ⟨scanner, scanner⟩

/-- Number of the current line. -/
def line (lexer : Lexer) : Nat :=
  lexer.scanner.line

/-- Lexical errors so far. -/
def errors (lexer : Lexer) : List LexicalError :=
  lexer.scanner.errors

/-- The error recorded for the token that starts where `span` does. -/
def errorAt? (lexer : Lexer) (span : Span) : Option LexicalError :=
  lexer.errors.find? fun error => error.span.start == span.start

/-- Read the next token. At the end of the input every token is `endOfInput`. -/
def next (lexer : Lexer) : Token × Lexer :=
  let before := lexer.scanner
  let trivia := Lexeme.Trivia.scan false before.rest
  let start := before.advance trivia.length trivia.lines
  let lexeme := Lexeme.scan start.braceDepth start.bracketDepth start.rest
  let lines := Lexeme.countedLines start.rest
  let stop := (start.advance lexeme.length lines).delimit lexeme.kind
  let span : Span := ⟨start.offset, stop.offset⟩
  let scanner :=
    match lexeme.fault with
    | some fault => stop.fail ⟨fault, span, start.line⟩
    | none => stop
  let literal := lexeme.literal (start.rest.take lexeme.length)
  (⟨lexeme.kind, literal, start.line, span, trivia.spacing⟩, ⟨scanner, before⟩)

/-- At most `count` tokens, up to and including the end of the input. -/
def take : Nat → Lexer → List Token × Lexer
  | 0, lexer => ([], lexer)
  | count + 1, lexer =>
    let (token, later) := lexer.next
    if token.kind == .endOfInput then ([token], later)
    else
      let (tokens, last) := take count later
      (token :: tokens, last)

/-- All remaining tokens, up to and including the end of the input. A token
takes at least one character, so there are no more than are counted here. -/
def takeAll (lexer : Lexer) : List Token × Lexer :=
  take (lexer.scanner.rest.length + 1) lexer

/-- The passage up to the `}` that closes `depth + 1` open braces. A backslash hides
the character after it. -/
def bracedBody? (depth : Nat) : List Char → Option Lexeme.Passage
  | [] => none
  | char :: rest =>
    if char == '\\' then
      match rest with
      | [] => none
      | hidden :: later =>
        (bracedBody? depth later).map (·.extend 2 (Lexeme.lineFeed hidden))
    else if char == '\x7b' then (bracedBody? (depth + 1) rest).map (·.extend 1 0)
    else if char == '\x7d' then
      match depth with
      | 0 => some ⟨0, 0⟩
      | outer + 1 => (bracedBody? outer rest).map (·.extend 1 0)
    else (bracedBody? depth rest).map (·.extend 1 (Lexeme.lineFeed char))

/-- Take the braced word that starts with `opening` verbatim, and go on after its
closing brace, on the line of the opening one plus the lines of the body. This undoes
the token read after `opening`; it is possible only while that one is the latest. -/
def capture? (lexer : Lexer) (opening : Token) : Option (RawBraced × Lexer) :=
  if opening.kind == .openBrace && lexer.before.offset == opening.span.stop then
    match bracedBody? 0 lexer.before.rest with
    | none => none
    | some body =>
      let behind := (lexer.before.advance (body.length + 1) 0).delimit .closeBrace
      let after := { behind with line := opening.line + body.lines }
      some (⟨lexer.before.rest.take body.length, ⟨opening.span.start, after.offset⟩⟩,
        ⟨after, lexer.before⟩)
  else
    none

end Lexer

/-- All tokens of a text. -/
def tokenize (text : String) : List Token :=
  (Lexer.start text.toList 1).takeAll.1

end IRule
