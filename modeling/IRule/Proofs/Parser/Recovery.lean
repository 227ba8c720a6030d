import IRule.Proofs.Parser.Contract

/-!
# Verbatim words and recovery

Passing over text ends, and nothing is owed about what was passed over.
-/

namespace IRule.Parser

variable {grammar other : Grammar} {state : State}

theorem drain_reads (calls : Calls grammar other 0 state) :
    Reads (drain grammar) (drain other) state fun _ _ => True := by
  unfold drain
  simp only [Reads.isAhead_bind]
  refine .ite (fun _ => .pure trivial) fun more => .advance_bind ?_
  exact (calls.ahead (by simpa using more)).call .drain

/-- After a braced word has been asked for, either it was found or its absence
was reported. -/
theorem captureBrace_bind {α : Type} {next later : Option (List Char) → Parse α}
    {good : α → State → Prop} (calls : Calls grammar other 1 state)
    (absent : ∀ middle, Passage state middle →
      Reads (next none) (later none) middle fun _ _ => True)
    (present : ∀ word lexer, state.lexer.capture? state.current = some (word, lexer) →
      Passage state (state.afterCapture word lexer) →
      Reads (next (some word.body)) (later (some word.body)) (state.afterCapture word lexer) good) :
    Reads (captureBrace grammar >>= next) (captureBrace other >>= later) state good := by
  unfold captureBrace
  simp only [bind_assoc, Reads.get_bind]
  cases captured : state.lexer.capture? state.current with
  | none =>
    simp only [bind_assoc, pure_bind]
    refine .report_bind (by simp) fun reported passage => ?_
    refine .bind ((calls.after passage).now .drain (by decide)) fun _ middle onward => ?_
    exact (absent middle (passage.trans onward)).mono fun _ _ _ _ _ => trivial
  | some found =>
    obtain ⟨word, lexer⟩ := found
    have passage : Passage state (state.afterCapture word lexer) :=
      .of_step (.capture captured) rfl rfl
    refine .run_bind rfl passage ?_
    exact (present word lexer captured passage).mono fun _ _ _ holds _ => holds

theorem passToken_reads {depth : Nat} (calls : Calls grammar other 1 state) :
    Reads (passToken grammar depth) (passToken other depth) state fun _ _ => True := by
  unfold passToken
  simp only [Reads.current_bind]
  cases state.current.kind with
  | openBrace =>
    refine captureBrace_bind calls (fun _ _ => .pure trivial) fun _ _ _ _ => .pure trivial
  | _ => exact .pure trivial

/-- Passing over one token leaves a place from which anything may be called. -/
theorem passOn_reads {depth : Nat} {next later : Nat → Parse Unit}
    (calls : Calls grammar other 0 state) (more : state.lookahead.kind ≠ .endOfInput)
    (goesOn : ∀ deeper middle, Calls grammar other Production.top middle →
      Reads (next deeper) (later deeper) middle fun _ _ => True) :
    Reads (advance >>= fun _ => passToken grammar depth >>= next)
      (advance >>= fun _ => passToken other depth >>= later) state fun _ _ => True := by
  have onward : Calls grammar other Production.top state.advance := calls.ahead more
  refine .advance_bind (.bind (passToken_reads (onward.lower (by decide))) ?_)
  intro deeper middle passage
  exact (goesOn deeper middle (onward.after passage)).mono fun _ _ _ _ _ => trivial

theorem skipCommand_reads {depth : Nat} (calls : Calls grammar other 0 state) :
    Reads (skipCommand grammar depth) (skipCommand other depth) state fun _ _ => True := by
  unfold skipCommand
  simp only [Reads.get_bind]
  refine .ite (fun _ => .pure trivial) fun more => .ite (fun _ => .pure trivial) fun _ => ?_
  exact passOn_reads calls (fun ended => more (by simp [ended]))
    fun deeper _ onward => onward.call (.skipCommand deeper)

theorem skipToCloseBrace_reads (calls : Calls grammar other 0 state) :
    Reads (skipToCloseBrace grammar) (skipToCloseBrace other) state fun _ _ => True := by
  unfold skipToCloseBrace
  simp only [Reads.get_bind]
  refine .ite (fun _ => .pure trivial) fun more => ?_
  exact passOn_reads calls (fun ended => more (by simp [ended]))
    fun _ _ onward => onward.call .skipToCloseBrace

theorem skipCaseLine_reads (calls : Calls grammar other 0 state) :
    Reads (skipCaseLine grammar) (skipCaseLine other) state fun _ _ => True := by
  unfold skipCaseLine
  simp only [Reads.get_bind]
  refine .ite (fun _ => .pure trivial) fun more => ?_
  exact passOn_reads calls (fun ended => more (by simp [ended]))
    fun _ _ onward => onward.call .skipCaseLine

theorem rawWord_reads {depth : Nat} (calls : Calls grammar other 0 state) :
    Reads (rawWord grammar depth) (rawWord other depth) state fun _ _ => True := by
  unfold rawWord
  simp only [Reads.get_bind]
  refine .ite (fun _ => .pure trivial) fun _ => .ite (fun _ => .pure trivial) fun more => ?_
  exact passOn_reads calls (fun ended => more (by simp [ended]))
    fun deeper _ onward => onward.call (.rawWord deeper)

theorem rawWordText_reads (calls : Calls grammar other 1 state) :
    Reads (rawWordText grammar) (rawWordText other) state fun _ _ => True := by
  unfold rawWordText
  simp only [Reads.current_bind]
  exact .bind (calls.now (.rawWord _) Nat.one_pos) fun _ _ _ => .pure fun _ => trivial

theorem finishCommand_reads {complete : Bool} (calls : Calls grammar other 1 state) :
    Reads (finishCommand grammar complete) (finishCommand other complete) state
      fun _ _ => True := by
  unfold finishCommand
  simp only [Reads.endsCommand_bind]
  refine .ite (fun _ => .pure trivial) fun _ => ?_
  refine .check True (fun _ => .reportAhead (by simp)) (fun _ => trivial) fun middle passage => ?_
  exact ((calls.after passage).now (.skipCommand 0) Nat.one_pos).mono fun _ _ _ _ _ => trivial

end IRule.Parser
