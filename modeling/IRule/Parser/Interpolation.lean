import IRule.Lexer.Lexeme

/-!
# Embeddings in strings

The body of a quoted string is text with embedded `$name`, `${name}` and
`[script]`. A `$` or `[` that starts no well-formed embedding is text.
-/

namespace IRule.Parser

/-- A piece of the body of a string. -/
inductive Segment where
  | text (text : List Char)
  | reference (name : List Char)
  /-- The script between the brackets, and what precedes the opening one. -/
  | command (script : List Char) (before : List Char)
deriving DecidableEq, Repr, Inhabited

namespace Segment

/-- Names and `::` at the head of a text. -/
def leadingName : List Char → List Char
  | ':' :: ':' :: rest => ':' :: ':' :: leadingName rest
  | char :: rest => if Lexeme.isNameChar char then char :: leadingName rest else []
  | [] => []

/-- The name after a `$`, and the number of characters it takes up. A braced
name is any non-empty text; a plain one needs a character other than a colon. -/
def reference? : List Char → Option (List Char × Nat)
  | '\x7b' :: rest =>
    let name := rest.takeWhile (· != '\x7d')
    if name.isEmpty || name.length == rest.length then none else some (name, name.length + 2)
  | plain =>
    let name := leadingName plain
    if name.any Lexeme.isNameChar then some (name, name.length) else none

/-- The text up to the `]` that closes the innermost bracket of `pending`, once
nothing else is pending. Quotes and brackets nest; a quote hides brackets, and
a backslash hides the character after it. -/
def scriptUpTo? (pending : List Char) : List Char → Option (List Char)
  | [] => none
  | '\\' :: rest =>
    match rest with
    | [] => none
    | hidden :: later => (scriptUpTo? pending later).map fun script => '\\' :: hidden :: script
  | char :: rest =>
    let next :=
      if char == '"' then
        if pending.head? == some '"' then pending.tail else '"' :: pending
      else if char == '[' then
        if pending.head? == some '"' then pending else ']' :: pending
      else if char == ']' then
        if pending.head? == some ']' then pending.tail else pending
      else pending
    if next.isEmpty then some [] else (scriptUpTo? next rest).map (char :: ·)

/-- The script after a `[`. It has to start with a letter, a colon or another
bracket. -/
def script? : List Char → Option (List Char)
  | [] => none
  | char :: rest =>
    if char.isAlpha || char == ':' || char == '[' then scriptUpTo? [']'] (char :: rest) else none

/-- The embedding that starts with `char`, where `before` is what precedes it,
and the number of characters of it in `rest`. -/
def embedding? (before : List Char) (char : Char) (rest : List Char) : Option (Segment × Nat) :=
  if char == '$' then (reference? rest).map fun (name, length) => (.reference name, length)
  else if char == '[' then
    (script? rest).map fun script => (.command script before, script.length + 1)
  else none

/-- A run of text, unless it is empty. -/
def ofText (run : List Char) : List Segment :=
  if run.isEmpty then [] else [.text run]

/-- Segments of a text, of which `before` has been passed, reversed; `run` is the
text passed since the last embedding, reversed; and the first `skip` characters
belong to an embedding. -/
def split (before run : List Char) (skip : Nat) : List Char → List Segment
  | [] => ofText run.reverse
  | char :: rest =>
    match skip with
    | more + 1 => split (char :: before) run more rest
    | 0 =>
      if char == '\\' then
        match rest with
        | [] => ofText (char :: run).reverse
        | hidden :: later => split (hidden :: char :: before) (hidden :: char :: run) 0 later
      else
        match embedding? before.reverse char rest with
        | some (segment, length) =>
          ofText run.reverse ++ segment :: split (char :: before) [] length rest
        | none => split (char :: before) (char :: run) 0 rest

end Segment

/-- Segments of the body of a string, in order. -/
def segments (body : List Char) : List Segment :=
  Segment.split [] [] 0 body

end IRule.Parser
