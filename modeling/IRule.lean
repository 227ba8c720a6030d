import IRule.Cli.Check
import IRule.Cli.Options
import IRule.Cli.Run
import IRule.Cli.Session
import IRule.Diagnostic.Basic
import IRule.Diagnostic.Code
import IRule.Diagnostic.Terminal
import IRule.Eval.Environment
import IRule.Eval.Error
import IRule.Eval.Glob
import IRule.Eval.Interpreter
import IRule.Eval.Operation
import IRule.Eval.Value
import IRule.Lexer.Basic
import IRule.Lexer.Error
import IRule.Lexer.Lexeme
import IRule.Main
import IRule.Naming
import IRule.Operand
import IRule.Operator
import IRule.Parser.Assignment
import IRule.Parser.Basic
import IRule.Parser.Block
import IRule.Parser.Command
import IRule.Parser.Expression
import IRule.Parser.Grammar
import IRule.Parser.Handler
import IRule.Parser.Interpolation
import IRule.Parser.Problem
import IRule.Parser.Recovery
import IRule.Parser.State
import IRule.Parser.Statement
import IRule.Parser.Switch
import IRule.Parser.Word
import IRule.Precedence
import IRule.Proofs.Cli.OutputLines
import IRule.Proofs.Cli.Session
import IRule.Proofs.Climbing.Condition
import IRule.Proofs.Climbing.Formula
import IRule.Proofs.Climbing.Literal
import IRule.Proofs.Climbing.Reading
import IRule.Proofs.Eval.Arithmetic
import IRule.Proofs.Eval.Frame
import IRule.Proofs.Eval.Glob
import IRule.Proofs.Eval.ReadBack
import IRule.Proofs.Eval.Run
import IRule.Proofs.Eval.ShortCircuit
import IRule.Proofs.Eval.Switch
import IRule.Proofs.Lexer.Braces
import IRule.Proofs.Lexer.Capture
import IRule.Proofs.Lexer.Counting
import IRule.Proofs.Lexer.Cursor
import IRule.Proofs.Lexer.Delimiting
import IRule.Proofs.Lexer.Faults
import IRule.Proofs.Lexer.Lexeme
import IRule.Proofs.Lexer.Lines
import IRule.Proofs.Lexer.Locality
import IRule.Proofs.Lexer.Placement
import IRule.Proofs.Lexer.Reading
import IRule.Proofs.Lexer.Separation
import IRule.Proofs.Lexer.Severing
import IRule.Proofs.Lexer.Spelling
import IRule.Proofs.Lexer.Tiling
import IRule.Proofs.Parser.Accounting
import IRule.Proofs.Parser.Accounting.Command
import IRule.Proofs.Parser.Accounting.Statement
import IRule.Proofs.Parser.Accounting.Word
import IRule.Proofs.Parser.Block
import IRule.Proofs.Parser.BraceBalance
import IRule.Proofs.Parser.Callees
import IRule.Proofs.Parser.Calls
import IRule.Proofs.Parser.Coherence
import IRule.Proofs.Parser.Command
import IRule.Proofs.Parser.Construct
import IRule.Proofs.Parser.Contract
import IRule.Proofs.Parser.Declarations
import IRule.Proofs.Parser.Declaring
import IRule.Proofs.Parser.Declaring.Command
import IRule.Proofs.Parser.Declaring.Statement
import IRule.Proofs.Parser.Declaring.Word
import IRule.Proofs.Parser.Decomposition
import IRule.Proofs.Parser.Embedding
import IRule.Proofs.Parser.Expression
import IRule.Proofs.Parser.Faults
import IRule.Proofs.Parser.FlagWords
import IRule.Proofs.Parser.Flags
import IRule.Proofs.Parser.Giving
import IRule.Proofs.Parser.Language
import IRule.Proofs.Parser.Placement
import IRule.Proofs.Parser.Quotation
import IRule.Proofs.Parser.RealLines
import IRule.Proofs.Parser.Rearranging
import IRule.Proofs.Parser.Recovery
import IRule.Proofs.Parser.References
import IRule.Proofs.Parser.Reporting
import IRule.Proofs.Parser.Run
import IRule.Proofs.Parser.Snippets
import IRule.Proofs.Parser.Stacks
import IRule.Proofs.Parser.Standing
import IRule.Proofs.Parser.Statement
import IRule.Proofs.Parser.Step
import IRule.Proofs.Parser.Substitution
import IRule.Proofs.Parser.Termination
import IRule.Proofs.Parser.Tracking
import IRule.Proofs.Parser.Tracking.Command
import IRule.Proofs.Parser.Tracking.Statement
import IRule.Proofs.Parser.Tracking.Word
import IRule.Proofs.Parser.Validation
import IRule.Proofs.Parser.Vouching
import IRule.Proofs.Parser.Vouching.Command
import IRule.Proofs.Parser.Vouching.Expression
import IRule.Proofs.Parser.Vouching.Statement
import IRule.Proofs.Parser.Vouching.Word
import IRule.Proofs.Parser.Word
import IRule.Proofs.Reading.Integer
import IRule.Proofs.Reading.Numeral
import IRule.Proofs.Reading.Operands
import IRule.Proofs.Reading.Reports
import IRule.Proofs.Reading.StringOperation
import IRule.Proofs.Reading.Words
import IRule.Proofs.RoundTrip.Argument
import IRule.Proofs.RoundTrip.Arms
import IRule.Proofs.RoundTrip.Assignment
import IRule.Proofs.RoundTrip.Block
import IRule.Proofs.RoundTrip.Braced
import IRule.Proofs.RoundTrip.Command
import IRule.Proofs.RoundTrip.Expression
import IRule.Proofs.RoundTrip.Interpolation
import IRule.Proofs.RoundTrip.Leading
import IRule.Proofs.RoundTrip.Literal
import IRule.Proofs.RoundTrip.Nesting
import IRule.Proofs.RoundTrip.Option
import IRule.Proofs.RoundTrip.Script
import IRule.Proofs.RoundTrip.Statement
import IRule.Proofs.RoundTrip.Switch
import IRule.Proofs.RoundTrip.Target
import IRule.Proofs.RoundTrip.Variable
import IRule.Proofs.RoundTrip.Word
import IRule.Proofs.Scope.Rivals
import IRule.Proofs.Script.Arms
import IRule.Proofs.Script.Contents
import IRule.Proofs.Script.Legible
import IRule.Proofs.Script.Names
import IRule.Proofs.Script.Nodes
import IRule.Proofs.Script.Shape
import IRule.Proofs.Script.Targets
import IRule.Proofs.Script.Validity
import IRule.Proofs.Script.Variable
import IRule.Proofs.Text.Bytes
import IRule.Proofs.Text.Integer
import IRule.Proofs.Text.Scan
import IRule.Scope
import IRule.Script.Basic
import IRule.Script.Printer
import IRule.Script.View
import IRule.Text.Blank
import IRule.Text.Bytes
import IRule.Text.CaseTable
import IRule.Text.Cursor
import IRule.Text.HiddenTable
import IRule.Text.Integer
import IRule.Text.Lowercase
import IRule.Text.Quoted
import IRule.Text.Range
import IRule.Text.Span
import IRule.Token.Basic
import IRule.Token.Family
import IRule.Token.Kind
import IRule.Vocabulary
