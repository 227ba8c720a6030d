import IRule.Text.Quoted
import IRule.Text.Span
import IRule.Token.Kind

/-!
# Tokens

A token is its kind, the text that produced it, where it stands and what
separates it from the token before. Blanks and comments are not tokens, but
words end at blanks and commands at line ends, so the separation is kept.
-/

namespace IRule

/-- What stands between a token and its predecessor. -/
structure Spacing where
  /-- Blanks, or a line end hidden by a backslash. -/
  space : Bool := false
  /-- A line end. -/
  newline : Bool := false
  comment : Bool := false
deriving DecidableEq, Repr, Inhabited

namespace Spacing

/-- Nothing separates the two tokens. -/
def none : Spacing := ⟨false, false, false⟩

/-- Whether the token is glued to its predecessor. -/
def isAdjacent (spacing : Spacing) : Bool :=
  !(spacing.space || spacing.newline || spacing.comment)

/-- Bit set with the space in bit 0, the line end in bit 1, the comment in bit 2. -/
def bits (spacing : Spacing) : Nat :=
  spacing.space.toNat + 2 * spacing.newline.toNat + 4 * spacing.comment.toNat

end Spacing

/-- A token. Lines count from 1. The literal of a quoted string is its body,
the span covers the quotes too. -/
structure Token where
  kind : TokenKind
  literal : String
  line : Nat
  span : Span
  spacing : Spacing := {}
deriving DecidableEq, Repr, Inhabited

namespace Token

/-- Whether this is the sign `+`, which is a word until an expression reads it
as an operator. -/
def isPlus (token : Token) : Bool :=
  token.kind == .word && token.literal == "+"

/-- How messages call the token. -/
def description (token : Token) : String :=
  match token.kind with
  | .endOfInput => "end of input"
  | .string => "\"" ++ token.literal ++ "\""
  | _ => "'" ++ token.literal ++ "'"

/-- Kind, quoted literal and line on one line. -/
def summary (token : Token) : String :=
  token.kind.name ++ "(" ++ Text.quoted token.literal ++ ") @ line " ++ toString token.line

end Token

end IRule
