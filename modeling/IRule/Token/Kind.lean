import IRule.Token.Family

/-!
# Token kinds

The closed set of token kinds, their names in dumps and messages, and the
spelling of the words that have a kind of their own.
-/

namespace IRule

/-- Words of flow control and word operators. They may appear as plain words
among the arguments of a command, but never as variable names. -/
inductive ReservedWord where
  | when
  | ifWord
  | elseWord
  | elseIf
  | switch
  | case
  | defaultWord
  | set
  | foreach
  | inWord
  | returnWord
  | trueWord
  | falseWord
  | ltm
  | rule
  | classWord
  | matchWord
  | matching
  | matchesGlob
  | matchesRegex
  | contains
  | startsWith
  | endsWith
  | equals
  | eq
  | ne
deriving DecidableEq, Repr, Inhabited

namespace ReservedWord

/-- Every reserved word. -/
def all : List ReservedWord :=
  [.when, .ifWord, .elseWord, .elseIf, .switch, .case, .defaultWord, .set, .foreach, .inWord,
    .returnWord, .trueWord, .falseWord, .ltm, .rule, .classWord, .matchWord, .matching,
    .matchesGlob, .matchesRegex, .contains, .startsWith, .endsWith, .equals, .eq, .ne]

/-- Spelling of the word. -/
def text : ReservedWord → String
  | .when => "when"
  | .ifWord => "if"
  | .elseWord => "else"
  | .elseIf => "elseif"
  | .switch => "switch"
  | .case => "case"
  | .defaultWord => "default"
  | .set => "set"
  | .foreach => "foreach"
  | .inWord => "in"
  | .returnWord => "return"
  | .trueWord => "true"
  | .falseWord => "false"
  | .ltm => "ltm"
  | .rule => "rule"
  | .classWord => "class"
  | .matchWord => "match"
  | .matching => "matches"
  | .matchesGlob => "matches_glob"
  | .matchesRegex => "matches_regex"
  | .contains => "contains"
  | .startsWith => "starts_with"
  | .endsWith => "ends_with"
  | .equals => "equals"
  | .eq => "eq"
  | .ne => "ne"

/-- Name of the token kind: the word in capitals, marked for the two string
comparisons. -/
def kindName : ReservedWord → String
  | .eq => "STR_EQ"
  | .ne => "STR_NE"
  | word => word.text.map Char.toUpper

end ReservedWord

/-- Commands of the core language with a token kind of their own. -/
inductive CoreCommand where
  | string
  | regsub
  | pool
  | node
  | log
deriving DecidableEq, Repr, Inhabited

namespace CoreCommand

/-- Every core command. -/
def all : List CoreCommand := [.string, .regsub, .pool, .node, .log]

/-- Spelling of the command. -/
def text : CoreCommand → String
  | .string => "string"
  | .regsub => "regsub"
  | .pool => "pool"
  | .node => "node"
  | .log => "log"

/-- Name of the token kind. -/
def kindName : CoreCommand → String
  | .string => "STRING_CMD"
  | command => command.text.map Char.toUpper

end CoreCommand

/-- What a token is. The text of a token is kept beside its kind. -/
inductive TokenKind where
  | openBrace
  | closeBrace
  | openBracket
  | closeBracket
  | openParen
  | closeParen
  | comma
  | semicolon
  | endOfInput
  /-- A lexical error, described by the literal of the token. -/
  | illegal
  | number
  | string
  | word
  /-- A reference `$name`, `${name}` or `$space::name`. -/
  | reference
  | address
  | minus
  | asterisk
  | slash
  | percent
  | caret
  | bang
  | less
  | greater
  | lessEqual
  | greaterEqual
  | equal
  | notEqual
  | both
  | either
  | dollar
  | colon
  | doubleColon
  | reserved (word : ReservedWord)
  | core (command : CoreCommand)
  | command (family : Family) (name : String)
deriving DecidableEq, Repr, Inhabited

namespace TokenKind

/-- Upper-case name in dumps and messages. -/
def name : TokenKind → String
  | openBrace => "LBRACE"
  | closeBrace => "RBRACE"
  | openBracket => "LBRACKET"
  | closeBracket => "RBRACKET"
  | openParen => "LPAREN"
  | closeParen => "RPAREN"
  | comma => "COMMA"
  | semicolon => "SEMICOLON"
  | endOfInput => "EOF"
  | illegal => "ILLEGAL"
  | number => "NUMBER"
  | string => "STRING"
  | word => "IDENT"
  | reference => "VARIABLE"
  | address => "IP_ADDRESS"
  | minus => "MINUS"
  | asterisk => "ASTERISK"
  | slash => "SLASH"
  | percent => "PERCENT"
  | caret => "CARET"
  | bang => "BANG"
  | less => "LT"
  | greater => "GT"
  | lessEqual => "LT_EQ"
  | greaterEqual => "GT_EQ"
  | equal => "EQ"
  | notEqual => "NOT_EQ"
  | both => "AND"
  | either => "OR"
  | dollar => "DOLLAR"
  | colon => "COLON"
  | doubleColon => "DOUBLE_COLON"
  | reserved known => known.kindName
  | core known => known.kindName
  | command family short => family.tag ++ "_" ++ short.map Char.toUpper

/-- Family of a namespaced command. -/
def family? : TokenKind → Option Family
  | command family _ => some family
  | _ => none

/-- Whether the kind is a reserved word. -/
def isReserved : TokenKind → Bool
  | reserved _ => true
  | _ => false

/-- Whether the literal is a word that may stand as a bare argument. -/
def isWord : TokenKind → Bool
  | word | reserved _ | core _ | command _ _ => true
  | _ => false

/-- Closing delimiters and separators of commands. -/
def isTerminator : TokenKind → Bool
  | closeBrace | closeBracket | semicolon | endOfInput => true
  | _ => false

/-- Kind of a word outside every namespace. -/
def ofPlainWord? (text : String) : Option TokenKind :=
  match ReservedWord.all.find? fun known => known.text == text with
  | some known => some (reserved known)
  | none => (CoreCommand.all.find? fun known => known.text == text).map core

/-- Kind of a word of its own right; `none` for plain words, which include the
unlisted commands of a known namespace. -/
def ofText? (text : String) : Option TokenKind :=
  match splitNamespace? text.toList with
  | none => ofPlainWord? text
  | some (space, name) =>
    match Family.ofTag? (String.ofList space) with
    | none => none
    | some family =>
      if family.commands.contains (String.ofList name) then
        some (command family (String.ofList name))
      else
        none

end TokenKind

end IRule
