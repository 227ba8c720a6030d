import IRule.Text.Integer

/-!
# Values

What expressions evaluate to. Every value has a text, yet the shapes that
operators tell apart are kept, so that errors can name them.
-/

namespace IRule

/-- Shapes of values. -/
inductive ValueType where
  | empty
  | number
  | boolean
  | string
deriving DecidableEq, Repr, Inhabited

/-- Name of the shape in messages. -/
def ValueType.name : ValueType → String
  | .empty => "EMPTY"
  | .number => "NUMBER"
  | .boolean => "BOOLEAN"
  | .string => "STRING"

/-- A value. -/
inductive Value where
  /-- The result of commands that have none. -/
  | empty
  | integer (value : Int64)
  | boolean (value : Bool)
  | text (value : String)
deriving DecidableEq, Repr, Inhabited

namespace Value

/-- Shape of the value. -/
def type : Value → ValueType
  | empty => .empty
  | integer _ => .number
  | boolean _ => .boolean
  | text _ => .string

/-- Text of the value. -/
def written : Value → String
  | empty => ""
  | integer value => Text.int64Text value
  | boolean value => if value then "true" else "false"
  | text value => value

/-- Value of a literal word: an integer when it reads as one. -/
def ofWord (word : String) : Value :=
  match Text.int64? word.toList with
  | some value => integer value
  | none => text word

/-- Whether the value counts as true. -/
def isTruthy : Value → Bool
  | empty => false
  | integer value => value != 0
  | boolean value => value
  | text value => !value.isEmpty

/-- Whether logical operators accept the value. -/
def isLogical : Value → Bool
  | integer _ | boolean _ => true
  | _ => false

/-- The integer, if the value is one. -/
def integer? : Value → Option Int64
  | integer value => some value
  | _ => none

end Value

end IRule
