import IRule.Proofs.Parser.Tracking.Statement

/-!
# Constructs

The functions of the parser that read a part of the text, by name, so that facts
about all of them can be stated at once. `Fallible` lists those that give nothing
when what they read is too broken to keep.
-/

namespace IRule.Parser

/-- Constructs that may be too broken to keep, by what they give. -/
inductive Fallible : Type → Type where
  | statement : Fallible Statement
  | statementBody : Fallible Statement
  | setStatement : Fallible Statement
  | returnStatement : Fallible Statement
  | conditional : Fallible Statement
  | switchStatement : Fallible Statement
  | foreachStatement : Fallible Statement
  | ruleStatement : Fallible Statement
  | expressionStatement : Fallible Statement
  | condition : Fallible Expression
  | bracedCondition : Fallible Expression
  | loopTargets : Fallible Expression
  | caseArm (options : SwitchOptions) : Fallible Case
  | casePatterns (options : SwitchOptions) : Fallible (Option CasePattern)
  | casePattern (options : SwitchOptions) : Fallible Pattern
  | fallThrough (options : SwitchOptions) : Fallible (List Pattern)
  | commandOrExpression : Fallible Expression
  | expression (precedence : Precedence) : Fallible Expression
  | operatorChain (left : Expression) (precedence : Precedence) : Fallible Expression
  | applied (left : Expression) : Fallible Expression
  | splitSubtraction (left : Expression) : Fallible Expression
  | operand : Fallible Expression
  | unaryExpression : Fallible Expression
  | groupedExpression : Fallible Expression
  | command : Fallible Expression
  | handler : Fallible Expression
  | stringCommand : Fallible Expression
  | classCommand : Fallible Expression
  | setCommand : Fallible Expression
  | setParts : Fallible (Expression × Expression)
  | setTarget : Fallible (Expression × Option String)
  | regsubArgument (first : Bool) : Fallible Expression
  | word (glue : Glue) : Fallible Expression
  | piece : Fallible Expression
  | variableReference : Fallible Expression
  | bracedWord : Fallible Expression
  | captureBrace : Fallible (List Char)
  | expectBlock (head : BlockHead) : Fallible Block

namespace Fallible

variable {α : Type}

/-- How a construct is read. -/
def parse (grammar : Grammar) : Fallible α → Parse (Option α)
  | .statement => Parser.statement grammar
  | .statementBody => Parser.statementBody grammar
  | .setStatement => Parser.setStatement grammar
  | .returnStatement => Parser.returnStatement grammar
  | .conditional => Parser.conditional grammar
  | .switchStatement => Parser.switchStatement grammar
  | .foreachStatement => Parser.foreachStatement grammar
  | .ruleStatement => Parser.ruleStatement grammar
  | .expressionStatement => Parser.expressionStatement grammar
  | .condition => Parser.condition grammar
  | .bracedCondition => Parser.bracedCondition grammar
  | .loopTargets => Parser.loopTargets grammar
  | .caseArm options => Parser.caseArm grammar options
  | .casePatterns options => Parser.casePatterns grammar options
  | .casePattern options => Parser.casePattern grammar options
  | .fallThrough options => Parser.fallThrough grammar options
  | .commandOrExpression => Parser.commandOrExpression grammar
  | .expression precedence => Parser.expression grammar precedence
  | .operatorChain left precedence => Parser.operatorChain grammar left precedence
  | .applied left => Parser.applied grammar left
  | .splitSubtraction left => Parser.splitSubtraction grammar left
  | .operand => Parser.operand grammar
  | .unaryExpression => Parser.unaryExpression grammar
  | .groupedExpression => Parser.groupedExpression grammar
  | .command => Parser.command grammar
  | .handler => Parser.handler grammar
  | .stringCommand => Parser.stringCommand grammar
  | .classCommand => Parser.classCommand grammar
  | .setCommand => Parser.setCommand grammar
  | .setParts => Parser.setParts grammar
  | .setTarget => Parser.setTarget grammar
  | .regsubArgument first => Parser.regsubArgument grammar first
  | .word glue => Parser.word grammar glue
  | .piece => Parser.piece grammar
  | .variableReference => Parser.variableReference grammar
  | .bracedWord => Parser.bracedWord grammar
  | .captureBrace => Parser.captureBrace grammar
  | .expectBlock head => Parser.expectBlock grammar head

/-- Whether the construct is a statement and the command at hand is empty: there is
nothing to keep then. -/
def isEmptyCommand (state : State) : Fallible α → Bool
  | .statement => state.current.kind == .semicolon
  | _ => false

variable {grammar other : Grammar} {permits : List Diagnostic → Prop} {state : State}

theorem tracks (construct : Fallible α) (answers : Answers grammar other permits state) :
    Tracks (construct.parse grammar) (construct.parse other) state fun result =>
      result.isSome || construct.isEmptyCommand state := by
  have keeping {first second : Parse (Option α)} (tracks : Tracks first second state (·.isSome))
      (empty : Bool) : Tracks first second state fun result => result.isSome || empty :=
    tracks.mono fun _ kept => by simp [kept]
  cases construct with
  | statement => exact statement_tracks answers
  | statementBody => exact keeping (statementBody_tracks answers) _
  | setStatement => exact keeping (setStatement_tracks answers) _
  | returnStatement => exact keeping (returnStatement_tracks answers) _
  | conditional => exact keeping (conditional_tracks answers) _
  | switchStatement => exact keeping (switchStatement_tracks answers) _
  | foreachStatement => exact keeping (foreachStatement_tracks answers) _
  | ruleStatement => exact keeping (ruleStatement_tracks answers) _
  | expressionStatement => exact keeping (expressionStatement_tracks answers) _
  | condition => exact keeping (condition_tracks answers) _
  | bracedCondition => exact keeping (bracedCondition_tracks answers) _
  | loopTargets => exact keeping (loopTargets_tracks answers) _
  | caseArm => exact keeping (caseArm_tracks answers) _
  | casePatterns => exact keeping (casePatterns_tracks answers) _
  | casePattern => exact keeping (casePattern_tracks answers) _
  | fallThrough => exact keeping (fallThrough_tracks answers) _
  | commandOrExpression => exact keeping (commandOrExpression_tracks answers) _
  | expression => exact keeping (expression_tracks answers) _
  | operatorChain => exact keeping (operatorChain_tracks answers) _
  | applied => exact keeping (applied_tracks answers) _
  | splitSubtraction => exact keeping (splitSubtraction_tracks answers) _
  | operand => exact keeping (operand_tracks answers) _
  | unaryExpression => exact keeping (unaryExpression_tracks answers) _
  | groupedExpression => exact keeping (groupedExpression_tracks answers) _
  | command => exact keeping (command_tracks answers) _
  | handler => exact keeping (handler_tracks answers) _
  | stringCommand => exact keeping (stringCommand_tracks answers) _
  | classCommand => exact keeping (classCommand_tracks answers) _
  | setCommand => exact keeping (setCommand_tracks answers) _
  | setParts => exact keeping (setParts_tracks answers) _
  | setTarget => exact keeping (setTarget_tracks answers) _
  | regsubArgument => exact keeping (regsubArgument_tracks answers) _
  | word => exact keeping (word_tracks answers) _
  | piece => exact keeping (piece_tracks answers) _
  | variableReference => exact keeping (variableReference_tracks answers) _
  | bracedWord => exact keeping (bracedWord_tracks answers) _
  | captureBrace => exact keeping (captureBrace_tracks answers) _
  | expectBlock => exact keeping (expectBlock_tracks answers) _

end Fallible

/-- All constructs, by what they give. -/
inductive Construct : Type → Type 1 where
  | production (called : Production) : Construct called.Result
  | fallible {α : Type} (construct : Fallible α) : Construct (Option α)
  | block : Construct Block
  | alternative : Construct (Option Statement)
  | handlerPriority : Construct (Option Int64)
  | callExpression (function : Expression) : Construct Expression
  | namespacedCommand (family : Family) : Construct Expression
  | regsubCommand : Construct Expression
  | targetCommand (kind : TargetKind) : Construct Expression
  | plainCommand : Construct Expression
  | bracketed : Construct Expression
  | braceItems (opening : Token) : Construct Expression
  | quotedString (token : Token) : Construct Expression
  | substitution (token : Token) (script : List Char) (line : Nat) : Construct (Option Expression)
  | numberLiteral : Construct Expression
  | rawWordText : Construct String
  | passToken (depth : Nat) : Construct Nat
  /-- The end of a command, of which something was kept or not. -/
  | finishCommand (complete : Bool) : Construct Unit

namespace Construct

variable {α : Type}

/-- How a construct is read. -/
def parse (grammar : Grammar) : Construct α → Parse α
  | .production called => rules grammar called
  | .fallible construct => construct.parse grammar
  | .block => Parser.block grammar
  | .alternative => Parser.alternative grammar
  | .handlerPriority => Parser.handlerPriority
  | .callExpression function => Parser.callExpression grammar function
  | .namespacedCommand family => Parser.namespacedCommand grammar family
  | .regsubCommand => Parser.regsubCommand grammar
  | .targetCommand kind => Parser.targetCommand grammar kind
  | .plainCommand => Parser.plainCommand grammar
  | .bracketed => Parser.bracketed grammar
  | .braceItems opening => Parser.braceItems grammar opening
  | .quotedString token => Parser.quotedString grammar token
  | .substitution token script line => Parser.substitution grammar token script line
  | .numberLiteral => Parser.numberLiteral
  | .rawWordText => Parser.rawWordText grammar
  | .passToken depth => Parser.passToken grammar depth
  | .finishCommand complete => Parser.finishCommand grammar complete

/-- Whether the construct passes over what cannot be used. The end of a broken command
does. -/
def recovers : Construct α → Bool
  | .production called => called.recovers
  | .finishCommand complete => !complete
  | _ => false

variable {grammar other : Grammar} {permits : List Diagnostic → Prop} {state : State}

theorem tracks (construct : Construct α) (answers : Answers grammar other permits state)
    (permitted : construct.recovers → permits state.diagnostics) :
    Tracks (construct.parse grammar) (construct.parse other) state fun _ => True := by
  cases construct with
  | production => exact (rules_tracks answers permitted).trivial
  | fallible construct => exact (construct.tracks answers).trivial
  | block => exact block_tracks answers
  | alternative => exact alternative_tracks answers
  | handlerPriority => exact handlerPriority_tracks
  | callExpression => exact callExpression_tracks answers
  | namespacedCommand => exact namespacedCommand_tracks answers
  | regsubCommand => exact regsubCommand_tracks answers
  | targetCommand => exact targetCommand_tracks answers
  | plainCommand => exact plainCommand_tracks answers
  | bracketed => exact bracketed_tracks answers
  | braceItems => exact braceItems_tracks answers
  | quotedString => exact quotedString_tracks answers
  | substitution => exact substitution_tracks answers
  | numberLiteral => exact numberLiteral_tracks
  | rawWordText => exact rawWordText_tracks answers
  | passToken => exact passToken_tracks answers
  | finishCommand =>
    exact finishCommand_tracks answers fun broken => permitted (by simp [recovers, broken])

end Construct

end IRule.Parser
