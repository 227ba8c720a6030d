import IRule.Proofs.Parser.Word

/-!
# Blocks and handlers

The statements of a block are valid, and none of them excludes another: each one
was declared in the scope of the block, which never holds rivals.
-/

namespace IRule.Parser

variable {grammar other : Grammar} {state : State}

/-- Statements of a block are read into its scope, which only grows from one to the next.
-/
theorem blockBody_reads {line : Nat} (calls : Calls grammar other 5 state) :
    Reads (blockBody grammar line) (blockBody other line) state
      fun statements last => Collected statements last.scopes.current := by
  unfold blockBody
  simp only [Reads.current_bind]
  split
  case h_1 => exact .pure .nil
  case h_2 => exact .report_bind (by simp) fun _ _ => .pure trivial
  case h_3 _ more =>
    refine .bind (calls.now .statement (by decide)) fun statement middle passage => .advance_bind ?_
    have onward := calls.beyond passage more
    refine .bind (onward.call (.blockBody line)) fun later last reading => .pure ?_
    intro rest first
    exact first.append ((Passage.advance middle).trans reading).kept rest

/-- A block is valid on its own: what it excludes ends with the scope that it was read in.
-/
theorem block_reads (calls : Calls grammar other 0 state)
    (opening : state.current.kind = .openBrace) :
    Reads (block grammar) (block other) state fun body _ => body.Valid := by
  unfold block
  simp only [Reads.current_bind]
  have inner := (calls.openScope.enter .script).advance (by simp [State.enter, opening])
  have body := inner.call (.blockBody state.current.line)
  refine (Reads.inScope (.within (.advance_bind body))).mono ?_
  rintro _ _ - ⟨statements, _, rfl, ⟨inside, collected, rfl⟩, compatible⟩
  exact ⟨collected.valid, collected.within.compatible compatible⟩

/-- A block is read only behind an opening brace; without one there is nothing to be
valid. -/
theorem expectBlock_reads {head : BlockHead} (calls : Calls grammar other 0 state) :
    Reads (expectBlock grammar head) (expectBlock other head) state
      fun result _ => ∀ body ∈ result, body.Valid := by
  unfold expectBlock
  simp only [Reads.isAhead_bind]
  refine .ite (fun ahead => .advance_bind ?_) fun _ => .reportAhead_bind (by simp)
    fun _ _ => .pure trivial
  have kind := beq_iff_eq.1 ahead
  have onward := calls.ahead (State.more_of_kind ahead (by simp))
  refine .bind (block_reads (onward.lower (by decide)) kind) fun body _ _ => .pure ?_
  simp

/-! ## Handlers -/

/-- An event that is not in the table is reported. -/
theorem eventName_reads :
    Reads eventName eventName state fun event _ =>
      event.Valid ∧ ∃ name, event.wordText? = some name ∧ Vocabulary.isEvent name := by
  unfold eventName
  simp only [Reads.current_bind]
  refine .ite (fun known => .pure ⟨trivial, _, rfl, known⟩) fun _ => ?_
  exact .reportHere_bind (by simp) fun _ _ => .pure trivial

/-- A priority is a number behind its word; nothing is owed for it. -/
theorem handlerPriority_reads :
    Reads handlerPriority handlerPriority state fun _ _ => True := by
  unfold handlerPriority
  simp only [Reads.get_bind]
  refine .ite (fun _ => .pure trivial) fun _ => .advance_bind ?_
  simp only [Reads.isAhead_bind]
  refine .ite (fun _ => .advance_bind ?_) fun _ => .reportAhead_bind (by simp)
    fun _ _ => .pure trivial
  simp only [Reads.current_bind]
  exact .pure trivial

/-- A handler that was read without a problem has a known event and a valid block. -/
theorem handler_reads (calls : Calls grammar other 0 state) :
    Reads (handler grammar) (handler other) state
      fun result _ => ∀ value ∈ result, value.Plain := by
  unfold handler
  simp only [Reads.current_bind, Reads.endsCommand_bind, Reads.isAhead_bind]
  refine .ite (fun _ => .reportAhead_bind (by simp) fun _ _ => .pure trivial) fun goesOn => ?_
  have onward := calls.ahead (State.more_of_goesOn fun ends => goesOn (by simp [ends]))
  refine .advance_bind (.bind eventName_reads fun event middle named => ?_)
  refine .bind handlerPriority_reads fun priority later ranked => ?_
  have onward := ((onward.after named).after ranked).lower (Nat.zero_le _)
  refine .bindOption (expectBlock_reads onward)
    (fun _ _ => .pure fun _ _ _ => by simp) fun body _ _ => .pure ?_
  rintro valid - ⟨eventValid, known⟩ value found
  cases found
  exact ⟨⟨known, eventValid, valid body rfl⟩, rfl⟩

end IRule.Parser
