import IRule.Token.Basic

/-!
# Scripts

The tree of a parsed rule. Every node keeps the token it started at, which
gives its line. A bracketed command is an expression, and a command at
statement level is an expression too: the language does not tell the two
apart.
-/

namespace IRule

/-- Load-balancing targets. -/
inductive TargetKind where
  | pool
  | node
deriving DecidableEq, Repr, Inhabited

/-- The command that selects a target. -/
def TargetKind.keyword : TargetKind → String
  | .pool => "pool"
  | .node => "node"

/-- Matching options of a `switch`. -/
structure SwitchOptions where
  exact : Bool := false
  glob : Bool := false
  regex : Bool := false
  nocase : Bool := false
deriving DecidableEq, Repr, Inhabited

namespace SwitchOptions

/-- Add the option of an option word; `none` for other words. -/
def add? (options : SwitchOptions) (word : String) : Option SwitchOptions :=
  if word == "-exact" then some { options with exact := true }
  else if word == "-glob" then some { options with glob := true }
  else if word == "-regexp" || word == "-regex" then some { options with regex := true }
  else if word == "-nocase" then some { options with nocase := true }
  else none

/-- Option words, in a fixed order. -/
def words (options : SwitchOptions) : List String :=
  (if options.exact then ["-exact"] else []) ++ (if options.glob then ["-glob"] else []) ++
    (if options.regex then ["-regex"] else []) ++ (if options.nocase then ["-nocase"] else [])

/-- Bit set with the options in bits 0 to 3. -/
def bits (options : SwitchOptions) : Nat :=
  options.exact.toNat + 2 * options.glob.toNat + 4 * options.regex.toNat + 8 * options.nocase.toNat

end SwitchOptions

/-- One pattern of a `switch`, kept verbatim. -/
inductive Pattern where
  | plain (token : Token) (text : String)
  | glob (token : Token) (text : String)
  | regex (token : Token) (text : String)
deriving DecidableEq, Repr, Inhabited

/-- The patterns in front of one body: a single one, or several that fall
through to it. -/
inductive CasePattern where
  | one (pattern : Pattern)
  | several (token : Token) (patterns : List Pattern)
deriving DecidableEq, Repr, Inhabited

mutual

/-- An expression, a word or a command. -/
inductive Expression where
  /-- A bare word, or a reference to a variable, whose name is kept without `$`
  and braces. -/
  | identifier (token : Token) (name : String) (isVariable isReserved : Bool)
  /-- A name that failed its check. -/
  | invalid (token : Token) (text : String)
  | number (token : Token) (value : Int64)
  /-- A quoted string without embeddings. -/
  | string (token : Token) (text : String)
  | boolean (token : Token) (value : Bool)
  | address (token : Token) (text : String)
  | unary (token : Token) (operator : String) (operand : Expression)
  | binary (token : Token) (left : Expression) (operator : String) (right : Expression)
  | group (token : Token) (inner : Expression)
  /-- A bracketed command in the place of a name. -/
  | computed (token : Token) (inner : Expression)
  /-- An array element `$array(key)`. -/
  | element (token : Token) (array key : Expression)
  /-- A math function applied to arguments. -/
  | call (token : Token) (function : Expression) (arguments : List Expression)
  /-- A command without a node of its own. -/
  | invocation (token : Token) (name : Expression) (arguments : List Expression)
  /-- Bracketed commands. -/
  | bracket (token : Token) (commands : List Expression)
  | list (token : Token) (elements : List Expression)
  | hash (token : Token) (pairs : List (Expression × Expression))
  /-- The replacements of `string map`. -/
  | mapping (token : Token) (pairs : List (Expression × Expression))
  /-- An event handler. -/
  | handler (token : Token) (event : Expression) (priority : Option Int64) (body : Block)
  | namespaced (token : Token) (family : Family) (command : String) (arguments : List Expression)
  | stringOperation (token : Token) (operation : String) (arguments : List Expression)
  | classCommand (token : Token) (subcommand : String) (options : List String)
    (arguments : List Expression)
  | regsub (token : Token) (flags : List String) (pattern input replacement result : Expression)
  /-- Bracketed commands inside a string. -/
  | substitution (token : Token) (commands : List Expression)
  /-- A string or word with embedded references and commands. -/
  | interpolated (token : Token) (raw : String) (parts : List Expression)
  | regex (token : Token) (pattern : String)
  /-- The choice of a load-balancing target. -/
  | target (token : Token) (kind : TargetKind) (arguments : List Expression)

/-- One command or control structure. -/
inductive Statement where
  | set (token : Token) (name value : Expression)
  | returning (token : Token) (value : Option Expression)
  | expression (token : Token) (value : Expression)
  | block (body : Block)
  /-- An `if`. An `elseif` is an `if` in the alternative, an `else` a block. -/
  | conditional (token : Token) (condition : Expression) (consequence : Block)
    (alternative : Option Statement)
  | switch (token : Token) (options : SwitchOptions) (value : Expression) (cases : List Case)
  | foreach (token : Token) (targets items : Expression) (body : Block)
  | rule (token : Token) (name : Expression) (body : Block)

/-- Statements between braces. -/
inductive Block where
  | mk (token : Token) (statements : List Statement)

/-- One arm of a `switch`; the default arm has no pattern. -/
inductive Case where
  | mk (token : Token) (pattern : Option CasePattern) (body : Block)

end

/-- A parsed rule. -/
structure Script where
  statements : List Statement

instance : Inhabited Expression := ⟨.invalid default ""⟩

instance : Inhabited Block := ⟨.mk default []⟩

instance : Inhabited Statement := ⟨.block default⟩

instance : Inhabited Script := ⟨⟨[]⟩⟩

end IRule
