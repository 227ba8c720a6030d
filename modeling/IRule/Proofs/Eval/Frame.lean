import IRule.Proofs.Eval.Run
import IRule.Proofs.Script.Nodes
import Mathlib.Data.List.ReduceOption
import Mathlib.Data.Option.Basic

/-!
# What evaluation assigns

A rule assigns variables by `set`, `incr` and `foreach`. When all of their targets are
names, running it changes no other variable and unsets none, wherever it stops. An
assignment that fails has changed nothing but what its words have.
-/

namespace IRule

/-- The variable of a target that is a name; other targets have to be evaluated. -/
def Expression.literalName? : Expression → Option String
  | .identifier _ name false _ => some name
  | _ => none

/-- Whether a command assigns its first word. -/
def isAssignment (command : String) : Bool :=
  command == "set" || command == "incr"

/-- The variables that a node assigns; none for a target that is no name. -/
def Node.assigned : Node → List (Option String)
  | .expression (.invocation token name (target :: _)) =>
    if isAssignment (Expression.commandText token name) then [target.literalName?] else []
  | .statement (.set _ target _) => [target.literalName?]
  | .statement (.foreach _ (.list _ elements) _ _) => (Eval.listWords elements).map some
  | .statement (.foreach _ target _ _) => [target.literalName?]
  | _ => []

/-- The variables that a script assigns, at any depth. -/
def Script.assigned (script : Script) : List (Option String) :=
  script.nodes.flatMap Node.assigned

/-- The nodes assign no other variables than these. -/
def AssignOnly (names : List String) (nodes : List Node) : Prop :=
  ∀ node ∈ nodes, node.assigned ⊆ names.map some

section AssignOnly

variable {names : List String} {node : Node} {first rest : List Node}

@[simp]
theorem assignOnly_cons :
    AssignOnly names (node :: rest) ↔ node.assigned ⊆ names.map some ∧ AssignOnly names rest :=
  List.forall_mem_cons

@[simp]
theorem assignOnly_append :
    AssignOnly names (first ++ rest) ↔ AssignOnly names first ∧ AssignOnly names rest :=
  List.forall_mem_append

end AssignOnly

namespace Eval

/-! ## Frames -/

/-- Two states of the variables that differ in the named ones only, the second of which
has lost none. -/
structure Frame (names : List String) (before after : Environment) : Prop where
  unchanged : ∀ name ∉ names, after.lookup name = before.lookup name
  kept : ∀ name, before.contains name → after.contains name

namespace Frame

variable {names : List String} {before middle after : Environment}

theorem refl (names : List String) (environment : Environment) :
    Frame names environment environment :=
  ⟨fun _ _ => rfl, fun _ => id⟩

theorem trans (first : Frame names before middle) (second : Frame names middle after) :
    Frame names before after where
  unchanged name other := (second.unchanged name other).trans (first.unchanged name other)
  kept name set := second.kept name (first.kept name set)

theorem define {name : String} (known : name ∈ names) (value : Value) :
    Frame names before (before.define name value) where
  unchanged other foreign := by
    rw [Environment.lookup_define, if_neg (ne_of_mem_of_not_mem known foreign).symm]
  kept other set := by
    rw [Environment.contains, Environment.lookup_define]
    split
    · rfl
    · exact set

end Frame

/-- Whatever an evaluation ends with, it assigns no other variables than these. -/
def Frames {α : Type} (names : List String) (action : Eval α) : Prop :=
  ∀ environment, Frame names environment (action.run.run environment).2

namespace Frames

variable {α β : Type} {names : List String}

theorem still {action : Eval α} (still : Still action) : Frames names action := by
  intro environment
  rw [still environment]
  exact .refl names environment

theorem pure (value : α) : Frames names (Pure.pure value : Eval α) :=
  still (.pure value)

theorem ofResult (result : Except EvalError α) : Frames names (Eval.ofResult result) :=
  still (.ofResult result)

theorem throw (error : EvalError) : Frames names (MonadExcept.throw error : Eval α) :=
  fun environment => .refl names environment

theorem bind {first : Eval α} {next : α → Eval β} (here : Frames names first)
    (later : ∀ value, Frames names (next value)) : Frames names (first >>= next) := by
  intro environment
  have frame := here environment
  rcases runs : first.run.run environment with ⟨error | value, middle⟩
  · rw [run_bind_error runs]
    simpa only [runs] using frame
  · rw [run_bind_ok runs]
    exact (by simpa only [runs] using frame : Frame names environment middle).trans
      (later value middle)

theorem assign {name : String} (known : name ∈ names) (value : Value) :
    Frames names (Eval.assign name value) :=
  fun _ => .define known value

theorem increment {name : String} (known : name ∈ names) (step : Value) :
    Frames names (Eval.increment name step) := by
  unfold Eval.increment
  refine .bind (fun environment => .refl names environment) fun environment => ?_
  dsimp only
  split
  · exact (ofResult _).bind fun sum => assign known sum
  · exact throw _

theorem assignGroup {targets : List String} (known : targets ⊆ names) (words : List String) :
    Frames names (Eval.assignGroup targets words) := by
  induction targets generalizing words with
  | nil => exact pure ()
  | cons target later ih =>
    obtain ⟨here, rest⟩ := List.cons_subset.1 known
    exact (assign here _).bind fun _ => ih rest words.tail

theorem forGroups {targets : List String} (known : targets ⊆ names) {body : Eval Flow}
    (inner : Frames names body) (groups : List (List String)) :
    Frames names (Eval.forGroups targets body groups) := by
  induction groups with
  | nil => exact pure _
  | cons group later ih =>
    refine (assignGroup known group).bind fun _ => inner.bind fun flow => ?_
    cases flow with
    | returned value => exact pure _
    | next value => exact ih

end Frames

/-! ## Expressions -/

section Commands

variable {names : List String} {token : Token} {name target argument : Expression}

/-- A target that may be assigned is a name, and is not evaluated. -/
theorem targetName_frames {α : Type} {evaluated : Eval Value} {next : String → Eval α}
    (assigns : [target.literalName?] ⊆ names.map some)
    (goesOn : ∀ assigned ∈ names, Frames names (next assigned)) :
    Frames names (targetName target evaluated >>= next) := by
  obtain ⟨assigned, known, same⟩ := List.mem_map.1 (assigns List.mem_cons_self)
  unfold Expression.literalName? at same
  split at same
  case h_1 =>
    cases same
    exact goesOn assigned known
  case h_2 => cases same

/-- The variables of a loop that may be assigned are names, and are not evaluated. -/
theorem loopNames_frames {α : Type} {items : Expression} {body : Block} {evaluated : Eval Value}
    {next : List String → Eval α}
    (assigns : (Node.statement (.foreach token target items body)).assigned ⊆ names.map some)
    (goesOn : ∀ assigned ⊆ names, Frames names (next assigned)) :
    Frames names (loopNames target evaluated >>= next) := by
  unfold loopNames
  split
  case h_1 token elements =>
    exact goesOn (listWords elements) ((List.map_subset_iff _ (Option.some_injective _)).1 assigns)
  case h_2 noList =>
    rw [bind_assoc]
    simp only [Node.assigned] at assigns
    exact targetName_frames assigns fun assigned known => goesOn [assigned] (by simpa using known)

theorem Node.literal_of_assignment {later : List Expression}
    (assigns : (Node.expression (.invocation token name (target :: later))).assigned ⊆
      names.map some)
    (assignment : isAssignment (Expression.commandText token name) = true) :
    [target.literalName?] ⊆ names.map some := by
  simpa only [Node.assigned, if_pos assignment] using assigns

/-- A `set` or `incr` of one word. -/
theorem command_frames
    (assigns : (Node.expression (.invocation token name [target])).assigned ⊆ names.map some) :
    Frames names (expression (.invocation token name [target])) := by
  have literal := Node.literal_of_assignment assigns
  simp only [expression]
  split
  case isTrue set =>
    have literal := literal (by rw [isAssignment, set, Bool.true_or])
    exact targetName_frames literal fun assigned _ => .still (.read assigned)
  case isFalse =>
    split
    case isTrue incr =>
      have literal := literal (by rw [isAssignment, incr, Bool.or_true])
      exact targetName_frames literal fun _ known => .increment known _
    case isFalse => exact .throw _

/-- A `set` or `incr` of two words. -/
theorem command_frames_with
    (assigns : (Node.expression (.invocation token name [target, argument])).assigned ⊆
      names.map some)
    (evaluated : Frames names (expression argument)) :
    Frames names (expression (.invocation token name [target, argument])) := by
  have literal := Node.literal_of_assignment assigns
  simp only [expression]
  split
  case isTrue set =>
    have literal := literal (by rw [isAssignment, set, Bool.true_or])
    exact targetName_frames literal fun _ known => evaluated.bind fun value => .assign known value
  case isFalse =>
    split
    case isTrue incr =>
      have literal := literal (by rw [isAssignment, incr, Bool.or_true])
      exact targetName_frames literal fun _ known =>
        evaluated.bind fun value => .increment known value
    case isFalse => exact .throw _

end Commands

mutual

/-- Evaluating an expression assigns what is assigned in it. -/
theorem expression_frames {names : List String} : (e : Expression) → AssignOnly names e.nodes →
    Frames names (expression e)
  | .identifier _ name isVariable _ => fun _ => by
    simp only [expression]
    split
    · exact .still (.read name)
    · exact .pure _
  | .invalid .. | .number .. | .string .. | .boolean .. | .address .. | .list .. => fun _ => by
    simp only [expression]
    exact .pure _
  | .handler .. | .namespaced .. | .stringOperation .. | .classCommand .. | .regsub ..
  | .target .. | .hash .. | .mapping .. | .regex .. => fun _ => by
    simp only [expression]
    exact .throw _
  | .unary _ _ operand => fun only => by
    simp only [Expression.nodes, assignOnly_cons] at only
    simp only [expression]
    exact (expression_frames operand only.2).bind fun _ => .ofResult _
  | .binary _ left _ right => fun only => by
    simp only [Expression.nodes, assignOnly_cons, assignOnly_append] at only
    simp only [expression]
    refine (expression_frames left only.2.1).bind fun first => ?_
    split
    · exact .pure _
    · exact (expression_frames right only.2.2).bind fun _ => .ofResult _
  | .group _ inner | .computed _ inner => fun only => by
    simp only [Expression.nodes, assignOnly_cons] at only
    simp only [expression]
    exact expression_frames inner only.2
  | .bracket _ commands | .substitution _ commands => fun only => by
    simp only [Expression.nodes, assignOnly_cons] at only
    simp only [expression]
    exact sequence_frames commands only.2 _
  | .element _ array key => fun only => by
    simp only [Expression.nodes, assignOnly_cons, assignOnly_append] at only
    rw [expression_element]
    refine .bind ?_ fun base => (expression_frames key only.2.2).bind fun _ => .still (.read _)
    unfold arrayName
    split
    · exact .pure _
    · exact (expression_frames array only.2.1).bind fun _ => .pure _
  | .interpolated _ _ parts => fun only => by
    simp only [Expression.nodes, assignOnly_cons] at only
    simp only [expression]
    exact (texts_frames parts only.2).bind fun _ => .pure _
  | .call _ _ arguments => fun only => by
    simp only [Expression.nodes, assignOnly_cons, assignOnly_append] at only
    simp only [expression]
    exact (integers_frames arguments only.2.2 _).bind fun _ => .ofResult _
  | .invocation _ _ [] | .invocation _ _ (_ :: _ :: _ :: _) => fun _ => by
    simp only [expression]
    exact .throw _
  | .invocation _ _ [_] => fun only => command_frames (only _ (by simp [Expression.nodes]))
  | .invocation _ _ [_, argument] => fun only => by
    simp only [Expression.nodes, nodesOf, assignOnly_cons, assignOnly_append] at only
    exact command_frames_with only.1 (expression_frames argument only.2.2.2.1)

theorem sequence_frames {names : List String} : (commands : List Expression) →
    AssignOnly names (nodesOf commands) → (last : Value) → Frames names (sequence last commands)
  | [] => fun _ last => .pure last
  | command :: later => fun only _ => by
    simp only [nodesOf, assignOnly_append] at only
    exact (expression_frames command only.1).bind fun value => sequence_frames later only.2 value

theorem texts_frames {names : List String} : (parts : List Expression) →
    AssignOnly names (nodesOf parts) → Frames names (texts parts)
  | [] => fun _ => .pure _
  | part :: later => fun only => by
    simp only [nodesOf, assignOnly_append] at only
    exact (expression_frames part only.1).bind fun _ =>
      (texts_frames later only.2).bind fun _ => .pure _

theorem integers_frames {names : List String} : (arguments : List Expression) →
    AssignOnly names (nodesOf arguments) → (function : String) →
    Frames names (integers function arguments)
  | [] => fun _ _ => .pure _
  | argument :: later => fun only function => by
    simp only [nodesOf, assignOnly_append] at only
    refine (expression_frames argument only.1).bind fun value => ?_
    split
    · exact .throw _
    · exact (integers_frames later only.2 function).bind fun _ => .pure _

end

/-! ## Statements -/

mutual

/-- Executing a statement assigns what is assigned in it. -/
theorem statement_frames {names : List String} : (s : Statement) → AssignOnly names s.nodes →
    Frames names (statement s)
  | .set _ _ value => fun only => by
    simp only [Statement.nodes, assignOnly_cons, assignOnly_append] at only
    simp only [statement]
    exact targetName_frames only.1 fun _ known =>
      (expression_frames value only.2.2).bind fun given =>
        (Frames.assign known given).bind fun _ => .pure _
  | .returning _ none => fun _ => by
    simp only [statement]
    exact .pure _
  | .returning _ (some value) => fun only => by
    simp only [Statement.nodes, assignOnly_cons] at only
    simp only [statement]
    exact (expression_frames value only.2).bind fun _ => .pure _
  | .expression _ value => fun only => by
    simp only [Statement.nodes, assignOnly_cons] at only
    simp only [statement]
    exact (expression_frames value only.2).bind fun _ => .pure _
  | .block body => fun only => by
    simp only [Statement.nodes, assignOnly_cons] at only
    simp only [statement]
    exact block_frames body only.2
  | .conditional _ condition consequence none => fun only => by
    simp only [Statement.nodes, assignOnly_cons, assignOnly_append] at only
    simp only [statement]
    refine (expression_frames condition only.2.1).bind fun value => ?_
    split
    · exact block_frames consequence only.2.2
    · exact .pure _
  | .conditional _ condition consequence (some alternative) => fun only => by
    simp only [Statement.nodes, assignOnly_cons, assignOnly_append] at only
    simp only [statement]
    refine (expression_frames condition only.2.1).bind fun value => ?_
    split
    · exact block_frames consequence only.2.2.1
    · exact statement_frames alternative only.2.2.2
  | .switch _ options value cases => fun only => by
    simp only [Statement.nodes, assignOnly_cons, assignOnly_append] at only
    simp only [statement]
    split
    · exact .throw _
    refine (expression_frames value only.2.1).bind fun subject => ?_
    refine (selected_frames cases only.2.2 _ _).bind fun flow => ?_
    split
    · exact .pure _
    · exact defaultCase_frames cases only.2.2
  | .foreach _ targets items body => fun only => by
    simp only [Statement.nodes, assignOnly_cons, assignOnly_append] at only
    rw [statement_foreach]
    refine loopNames_frames only.1 fun assigned known => .bind ?_ fun words => ?_
    · unfold loopWords
      split
      · exact .pure _
      · exact (expression_frames items only.2.2.1).bind fun _ => .pure _
    · split
      · exact .pure _
      · exact .forGroups known (block_frames body only.2.2.2) _
  | .rule .. => fun _ => by
    simp only [statement]
    exact .throw _

theorem block_frames {names : List String} : (body : Block) → AssignOnly names body.nodes →
    Frames names (block body)
  | .mk _ body => fun only => by
    simp only [Block.nodes] at only
    simp only [block]
    exact statements_frames body only _

theorem statements_frames {names : List String} : (body : List Statement) →
    AssignOnly names (statementNodes body) → (last : Value) → Frames names (statements last body)
  | [] => fun _ _ => .pure _
  | first :: later => fun only _ => by
    simp only [statementNodes, assignOnly_append] at only
    refine (statement_frames first only.1).bind fun flow => ?_
    split
    · exact statements_frames later only.2 _
    · exact .pure _

theorem selected_frames {names : List String} : (cases : List Case) →
    AssignOnly names (caseNodes cases) → (options : SwitchOptions) → (subject : String) →
    Frames names (selected options subject cases)
  | [] => fun _ _ _ => .pure _
  | .mk _ none _ :: later => fun only options subject => by
    simp only [caseNodes, assignOnly_append] at only
    simp only [selected]
    exact selected_frames later only.2 options subject
  | .mk _ (some _) body :: later => fun only options subject => by
    simp only [caseNodes, assignOnly_append] at only
    simp only [selected]
    split
    · exact (block_frames body only.1).bind fun _ => .pure _
    · exact selected_frames later only.2 options subject

theorem defaultCase_frames {names : List String} : (cases : List Case) →
    AssignOnly names (caseNodes cases) → Frames names (defaultCase cases)
  | [] => fun _ => .pure _
  | .mk _ none body :: _ => fun only => by
    simp only [caseNodes, assignOnly_append] at only
    simp only [defaultCase]
    exact block_frames body only.1
  | .mk _ (some _) _ :: later => fun only => by
    simp only [caseNodes, assignOnly_append] at only
    simp only [defaultCase]
    exact defaultCase_frames later only.2

end

/-- Running statements assigns what is assigned in them, wherever it stops. -/
theorem script_frame {names : List String} {body : List Statement}
    (only : AssignOnly names (statementNodes body)) (last : Value) (environment : Environment) :
    Frame names environment (script last environment body).2 := by
  induction body generalizing last environment with
  | nil => exact .refl names environment
  | cons first later ih =>
    simp only [statementNodes, assignOnly_append] at only
    have frame := statement_frames first only.1 environment
    simp only [script]
    split <;> rename_i after runs <;> rw [runs] at frame
    · exact frame.trans (ih only.2 _ after)
    · exact frame
    · exact frame

/-! ## Assignments that fail -/

/-- When the evaluation fails, no more was assigned than by evaluating these words in
order. -/
def FailsAfter {α : Type} (words : List Expression) (action : Eval α) : Prop :=
  ∀ environment error after, action.run.run environment = (.error error, after) →
    after = ((sequence .empty words).run.run environment).2

section FailsAfter

variable {α : Type} {words : List Expression}

theorem sequence_environment (last : Value) (words : List Expression) (environment : Environment) :
    ((sequence last words).run.run environment).2 =
      ((sequence .empty words).run.run environment).2 := by
  cases words with
  | nil => rfl
  | cons word later => simp only [sequence]

theorem FailsAfter.word {word : Expression} {next : Value → Eval α}
    (rest : ∀ value, FailsAfter words (next value)) :
    FailsAfter (word :: words) (expression word >>= next) := by
  intro environment error after fails
  simp only [sequence]
  rcases runs : (expression word).run.run environment with ⟨stopped | value, middle⟩
  · rw [run_bind_error runs] at fails ⊢
    cases fails
    rfl
  · rw [run_bind_ok runs] at fails ⊢
    rw [sequence_environment]
    exact rest value middle error after fails

theorem FailsAfter.still {action : Eval α} (still : Still action) : FailsAfter [] action := by
  intro environment error after fails
  have same := still environment
  rw [fails] at same
  exact same

theorem FailsAfter.assign (name : String) (value : Value) :
    FailsAfter [] (Eval.assign name value) := by
  intro environment error after fails
  cases fails

/-- A sum that cannot be formed is not assigned. -/
theorem FailsAfter.increment (name : String) (step : Value) :
    FailsAfter [] (Eval.increment name step) := by
  intro environment error after fails
  have looked : (get : Eval Environment).run.run environment = (.ok environment, environment) := rfl
  rw [Eval.increment, run_bind_ok looked] at fails
  dsimp only at fails
  split at fails
  case h_1 first second _ _ =>
    rcases sum : fitted "incr" (first.toInt + second.toInt) with overflow | total
    · rw [sum] at fails
      cases fails
      rfl
    · rw [sum] at fails
      cases fails
  case h_2 =>
    cases fails
    rfl

/-- A literal target, too, is the text of what it evaluates to. -/
theorem targetName_eq (target : Expression) :
    targetName target (expression target) = Value.written <$> expression target := by
  unfold targetName
  split
  · simp [expression, Value.written]
  · rw [bind_pure_comp]

/-- The words that `set` and `incr` evaluate: none if their number is wrong. -/
def assignmentWords : List Expression → List Expression
  | [target] => [target]
  | [target, argument] => [target, argument]
  | _ => []

variable {token : Token} {name target value : Expression} {arguments : List Expression}

theorem command_failsAfter (assignment : isAssignment (Expression.commandText token name) = true) :
    FailsAfter (assignmentWords arguments) (expression (.invocation token name arguments)) := by
  match arguments with
  | [] | _ :: _ :: _ :: _ =>
    simp only [expression, assignmentWords]
    exact .still fun _ => rfl
  | [target] =>
    simp only [expression, assignmentWords, targetName_eq, bind_map_left]
    split
    · exact .word fun assigned => .still (.read _)
    · split
      · exact .word fun assigned => .increment _ _
      · simp_all [isAssignment]
  | [target, argument] =>
    simp only [expression, assignmentWords, targetName_eq, bind_map_left]
    split
    · exact .word fun assigned => .word fun value => .assign _ _
    · split
      · exact .word fun assigned => .word fun value => .increment _ _
      · simp_all [isAssignment]

theorem set_failsAfter : FailsAfter [target, value] (statement (.set token target value)) := by
  simp only [statement, targetName_eq, bind_map_left]
  exact .word fun assigned => .word fun value environment error after fails => nomatch fails

end FailsAfter

end Eval

/-- Running a rule whose assignments all have names for targets changes no other variables
than those, and unsets none, whether it ends with a value or with an error. A `set` or
`incr` that fails has assigned nothing itself. -/
theorem run_assigns_targets {script : Script} (literal : none ∉ script.assigned)
    (environment : Environment) :
    let after := (script.run environment).2
    (∀ name, some name ∉ script.assigned → after.lookup name = environment.lookup name) ∧
      (∀ name, environment.contains name → after.contains name) ∧
      (∀ token name arguments, isAssignment (Expression.commandText token name) →
        Eval.FailsAfter (Eval.assignmentWords arguments)
          (Eval.expression (.invocation token name arguments))) ∧
      ∀ token target value, Eval.FailsAfter [target, value]
        (Eval.statement (.set token target value)) := by
  intro after
  have only : AssignOnly script.assigned.reduceOption script.nodes := by
    intro node member target assigned
    have found : target ∈ script.assigned := List.mem_flatMap.2 ⟨node, member, assigned⟩
    cases target with
    | none => exact absurd found literal
    | some name =>
      exact List.mem_map_of_mem (List.reduceOption_mem_iff.2 found)
  have frame := Eval.script_frame only .empty environment
  refine ⟨fun name foreign => frame.unchanged name ?_, frame.kept, ?_, ?_⟩
  · exact fun assigned => foreign (List.reduceOption_mem_iff.1 assigned)
  · exact fun _ _ _ => Eval.command_failsAfter
  · exact fun _ _ _ => Eval.set_failsAfter

/-- `set x [incr n]` with a text in `n` fails, and changes no variable. -/
theorem run_assigns_targets_failing :
    let word (name : String) := Expression.identifier default name false false
    let script : Script :=
      ⟨[.set default (word "x") (.bracket default [.invocation default (word "incr") [word "n"]])]⟩
    let environment : Environment := ⟨[("k", .integer 1), ("n", .text "b")]⟩
    let after := (script.run environment).2
    script.assigned = [some "x", some "n"] ∧
      (script.run environment).1 = .error (.typeMismatch .string "+" .number, 0) ∧
      after.lookup "k" = some (.integer 1) ∧ after.contains "n" ∧ after = environment := by
  intro word script environment after
  have assigned : script.assigned = [some "x", some "n"] := by decide +kernel
  have literal : none ∉ script.assigned := by simp [assigned]
  obtain ⟨unchanged, kept, -⟩ := run_assigns_targets literal environment
  refine ⟨assigned, rfl, ?_, kept "n" rfl, ?_⟩
  · rw [unchanged "k" (by simp [assigned])]
    rfl
  · rfl

end IRule
