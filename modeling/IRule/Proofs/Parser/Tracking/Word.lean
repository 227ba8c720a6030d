import IRule.Proofs.Parser.Tracking

/-!
# Recovery and words

Text is passed over only after a report. A braced word without its end is
reported before the rest of the input is dropped, and a word is given up only
with one of its pieces.
-/

namespace IRule.Parser

variable {grammar other : Grammar} {permits : List Diagnostic → Prop} {state : State}

/-! ## Recovery -/

/-- The rest of a text is passed over with a problem on record. -/
theorem drain_tracks (answers : Answers grammar other permits state)
    (permitted : permits state.diagnostics) :
    Tracks (drain grammar) (drain other) state fun _ => True := by
  unfold drain
  simp only [Tracks.isAhead_bind]
  refine .ite (fun _ => .pure trivial) fun _ => .advance_bind ?_
  exact (answers.tracks .drain state.advance fun _ => permitted).trivial

/-- A brace without its partner is reported, and only then the rest is passed over. -/
theorem captureBrace_tracks (answers : Answers grammar other permits state) :
    Tracks (captureBrace grammar) (captureBrace other) state (·.isSome) := by
  unfold captureBrace
  simp only [Tracks.get_bind]
  cases state.lexer.capture? state.current with
  | none =>
    refine .record_bind rfl fun middle _ reported => ?_
    exact (answers.recover reported .drain).andThen fun _ _ _ => .pure trivial
  | some found => exact .run rfl (.of_scopes rfl rfl rfl List.prefix_rfl) fun _ => rfl

/-- A brace that is opened on the way is passed over as a whole. -/
theorem passToken_tracks {depth : Nat} (answers : Answers grammar other permits state) :
    Tracks (passToken grammar depth) (passToken other depth) state fun _ => True := by
  unfold passToken
  simp only [Tracks.current_bind]
  cases state.current.kind with
  | openBrace => exact (captureBrace_tracks answers).andThen fun _ _ _ => .pure trivial
  | _ => exact .pure trivial

/-- Passing over one token and going on behind it. -/
theorem passOn_tracks {depth : Nat} {next later : Nat → Parse Unit}
    (answers : Answers grammar other permits state)
    (goesOn : ∀ deeper middle, Frame state middle →
      Tracks (next deeper) (later deeper) middle fun _ => True) :
    Tracks (advance >>= fun _ => passToken grammar depth >>= next)
      (advance >>= fun _ => passToken other depth >>= later) state fun _ => True := by
  have onward := Frame.advance state
  refine .advance_bind ((passToken_tracks (answers.after onward)).andThen ?_)
  exact fun deeper middle frame => goesOn deeper middle (onward.trans frame)

/-- Passing over a command is recovery, and stays permitted up to its end. -/
theorem skipCommand_tracks {depth : Nat} (answers : Answers grammar other permits state)
    (permitted : permits state.diagnostics) :
    Tracks (skipCommand grammar depth) (skipCommand other depth) state fun _ => True := by
  unfold skipCommand
  simp only [Tracks.get_bind]
  refine .ite (fun _ => .pure trivial) fun _ => .ite (fun _ => .pure trivial) fun _ => ?_
  refine passOn_tracks answers fun deeper middle frame => ?_
  exact (answers.tracks (.skipCommand deeper) middle fun _ => answers.still permitted frame).trivial

theorem skipToCloseBrace_tracks (answers : Answers grammar other permits state)
    (permitted : permits state.diagnostics) :
    Tracks (skipToCloseBrace grammar) (skipToCloseBrace other) state fun _ => True := by
  unfold skipToCloseBrace
  simp only [Tracks.get_bind]
  refine .ite (fun _ => .pure trivial) fun _ => passOn_tracks answers fun _ middle frame => ?_
  exact (answers.tracks .skipToCloseBrace middle fun _ => answers.still permitted frame).trivial

theorem skipCaseLine_tracks (answers : Answers grammar other permits state)
    (permitted : permits state.diagnostics) :
    Tracks (skipCaseLine grammar) (skipCaseLine other) state fun _ => True := by
  unfold skipCaseLine
  simp only [Tracks.get_bind]
  refine .ite (fun _ => .pure trivial) fun _ => passOn_tracks answers fun _ middle frame => ?_
  exact (answers.tracks .skipCaseLine middle fun _ => answers.still permitted frame).trivial

/-- A raw word is no recovery: its text is kept. -/
theorem rawWord_tracks {depth : Nat} (answers : Answers grammar other permits state) :
    Tracks (rawWord grammar depth) (rawWord other depth) state fun _ => True := by
  unfold rawWord
  simp only [Tracks.get_bind]
  refine .ite (fun _ => .pure trivial) fun _ => .ite (fun _ => .pure trivial) fun _ => ?_
  exact passOn_tracks answers fun deeper _ _ => (answers.call (.rawWord deeper) rfl).trivial

theorem rawWordText_tracks (answers : Answers grammar other permits state) {inner : State} :
    Tracks (rawWordText grammar) (rawWordText other) inner fun _ => True := by
  unfold rawWordText
  simp only [Tracks.current_bind]
  exact (answers.call (.rawWord _) rfl).andThen fun _ _ _ => .pure trivial

/-- What is left of a command is dropped after a report: of the words left over, or of
the command itself. -/
theorem finishCommand_tracks {complete : Bool} (answers : Answers grammar other permits state)
    (permitted : complete = false → permits state.diagnostics) :
    Tracks (finishCommand grammar complete) (finishCommand other complete) state
      fun _ => True := by
  unfold finishCommand
  simp only [Tracks.endsCommand_bind]
  refine .ite (fun _ => .pure trivial) fun _ => ?_
  cases complete with
  | true =>
    refine .record_bind rfl fun _ _ reported => ?_
    exact (answers.recover reported (.skipCommand 0)).trivial
  | false => exact (answers.tracks (.skipCommand 0) state fun _ => permitted rfl).trivial

/-! ## References and brackets -/

theorem numberLiteral_tracks :
    Tracks numberLiteral numberLiteral state fun _ => True := by
  unfold numberLiteral
  simp only [Tracks.current_bind]
  cases Text.int64? state.current.literal.toList with
  | some value => exact .pure trivial
  | none => exact .giveUp rfl

/-- A reference to an undeclared variable is reported, and kept all the same. -/
theorem checkDeclared_tracks {name : String} {line : Nat} :
    Tracks (checkDeclared name line) (checkDeclared name line) state fun _ => True := by
  unfold checkDeclared
  simp only [Tracks.get_bind]
  exact .ite (fun _ => .record rfl) fun _ => .pure trivial

/-- A reference is kept unless its key was given up, which is reported. -/
theorem variableReference_tracks (answers : Answers grammar other permits state) :
    Tracks (variableReference grammar) (variableReference other) state (·.isSome) := by
  unfold variableReference
  simp only [Tracks.current_bind]
  refine checkDeclared_tracks.andThen fun _ checked _ => ?_
  simp only [Tracks.get_bind]
  refine .ite (fun _ => .advance_bind ?_) fun _ => .pure rfl
  simp only [Tracks.current_bind, Tracks.isAhead_bind]
  refine .ite (fun _ => .record_bind rfl fun _ _ _ => .advance_bind (.pure trivial)) fun _ => ?_
  refine .bind (.within (.advance_bind (answers.call (.word .word) rfl))) fun key _ _ _ => ?_
  simp only [Tracks.isAhead_bind]
  refine .ite (fun _ => .advance_bind (.pure ?_)) fun _ => .giveUp rfl
  exact fun kept => Option.isSome_map.trans kept

/-- A bracket that is left open is reported. -/
theorem bracketCommands_tracks {line : Nat} (answers : Answers grammar other permits state) :
    Tracks (bracketCommands grammar line) (bracketCommands other line) state fun _ => True := by
  unfold bracketCommands
  simp only [Tracks.lookahead_bind]
  split
  case h_1 => exact .advance_bind (.pure trivial)
  case h_2 => exact .giveUp rfl
  case h_3 => exact .giveUp rfl
  case h_4 => exact .advance_bind (answers.call (.bracketCommands line) rfl).trivial
  case h_5 =>
    have onward := answers.after (.advance state)
    refine .advance_bind ((answers.call .commandOrExpression rfl).andThen fun _ _ frame => ?_)
    refine (finishCommand_tracks (onward.after frame) (by simp)).andThen fun _ _ _ => ?_
    exact (answers.call (.bracketCommands line) rfl).andThen fun _ _ _ => .pure trivial

/-- What stands between brackets is inside a construct of its own. -/
theorem bracketed_tracks (answers : Answers grammar other permits state) {inner : State} :
    Tracks (bracketed grammar) (bracketed other) inner fun _ => True := by
  unfold bracketed
  simp only [Tracks.current_bind]
  refine .andThen (.within (answers.call (.bracketCommands _) rfl)) fun _ _ _ => .pure trivial

/-! ## Braced lists -/

theorem listElements_tracks (answers : Answers grammar other permits state) :
    Tracks (listElements grammar) (listElements other) state fun _ => True := by
  unfold listElements
  simp only [Tracks.current_bind]
  refine .ite (fun _ => .pure trivial) fun _ => ?_
  refine (answers.call (.word .word) rfl).andThen fun _ _ _ => .advance_bind ?_
  exact (answers.call .listElements rfl).andThen fun _ _ _ => .pure trivial

/-- A snippet that is kept takes its variables along, and no problem. -/
theorem keepIfClean_tracks {α : Type} {snippet : State} {kept dropped : α} :
    Tracks (keepIfClean snippet kept dropped) (keepIfClean snippet kept dropped) state
      fun _ => True := by
  unfold keepIfClean
  refine .ite (fun _ => ?_) fun _ => .pure trivial
  exact .run rfl (.of_scopes rfl rfl rfl (List.prefix_append _ _)) fun _ => trivial

/-- The items of a list are read by a parser of their own. -/
theorem braceItems_tracks {opening : Token} (answers : Answers grammar other permits state)
    {inner : State} :
    Tracks (braceItems grammar opening) (braceItems other opening) inner fun _ => True := by
  unfold braceItems
  simp only [Tracks.get_bind]
  refine .ite (fun _ => ?_) fun _ => ?_
  · exact (answers.call .hashPairs rfl).andThen fun _ _ _ => .pure trivial
  · exact (answers.call .listElements rfl).andThen fun _ _ _ => .pure trivial

/-- A braced word is kept, raw if its snippet has problems. -/
theorem bracedWord_tracks (answers : Answers grammar other permits state) :
    Tracks (bracedWord grammar) (bracedWord other) state (·.isSome) := by
  unfold bracedWord
  simp only [Tracks.current_bind]
  refine (captureBrace_tracks answers).keep rfl rfl fun body _ _ => ?_
  simp only [Tracks.get_bind]
  refine .andThen (.isolated (braceItems_tracks answers)) fun _ _ _ => ?_
  exact keepIfClean_tracks.andThen fun _ _ _ => .pure rfl

/-! ## Strings -/

/-- The commands of an embedded script are those of a snippet. -/
theorem substitutionCommands_tracks (answers : Answers grammar other permits state) :
    Tracks (substitutionCommands grammar) (substitutionCommands other) state fun _ => True := by
  unfold substitutionCommands
  simp only [Tracks.current_bind]
  split
  case h_1 => exact .pure trivial
  case h_2 => exact .advance_bind (answers.call .substitutionCommands rfl).trivial
  case h_3 =>
    refine (answers.call .commandOrExpression rfl).andThen fun _ _ frame => ?_
    refine (finishCommand_tracks (answers.after frame) (by simp)).andThen fun _ _ _ => ?_
    refine .advance_bind ?_
    exact (answers.call .substitutionCommands rfl).andThen fun _ _ _ => .pure trivial

/-- Problems of an embedded script stay inside of it. -/
theorem substitution_tracks {token : Token} {script : List Char} {line : Nat}
    (answers : Answers grammar other permits state) {inner : State} :
    Tracks (substitution grammar token script line) (substitution other token script line) inner
      fun _ => True := by
  unfold substitution
  simp only [Tracks.get_bind]
  refine .andThen (.isolated (answers.call .substitutionCommands rfl)) fun _ _ _ => ?_
  exact .ite (fun _ => .pure trivial) fun _ => keepIfClean_tracks

/-- Each embedded script of a string is tracked by itself. -/
theorem interpolatedParts_tracks {token : Token} {parts : List Expression}
    {segments : List Segment} (answers : Answers grammar other permits state) {inner : State} :
    Tracks (interpolatedParts grammar token parts segments)
      (interpolatedParts other token parts segments) inner fun _ => True := by
  induction segments generalizing parts inner with
  | nil => exact .pure trivial
  | cons segment later ih =>
    cases segment with
    | text | reference => exact ih
    | command script before =>
      refine (substitution_tracks answers).andThen fun embedded _ _ => ?_
      cases embedded with
      | none | some => exact ih

/-- A string is kept in any case. -/
theorem quotedString_tracks {token : Token} (answers : Answers grammar other permits state) :
    Tracks (quotedString grammar token) (quotedString other token) state fun _ => True := by
  unfold quotedString
  refine (interpolatedParts_tracks answers).andThen fun _ _ _ => ?_
  exact .ite (fun _ => .pure trivial) fun _ => .pure trivial

/-! ## Gluing -/

/-- No piece is dropped but an illegal token, which is reported. -/
theorem piece_tracks (answers : Answers grammar other permits state) :
    Tracks (piece grammar) (piece other) state (·.isSome) := by
  unfold piece
  simp only [Tracks.current_bind]
  split
  case h_1 => exact (bracketed_tracks answers).andThen fun _ _ _ => .pure rfl
  case h_2 => exact bracedWord_tracks answers
  case h_3 => exact (quotedString_tracks answers).andThen fun _ _ _ => .pure rfl
  case h_4 => exact variableReference_tracks answers
  case h_5 => exact numberLiteral_tracks.andThen fun _ _ _ => .pure rfl
  case h_6 => exact .giveUp rfl
  case h_7 => exact .pure rfl

/-- A pair that is broken off is reported. -/
theorem hashPairs_tracks (answers : Answers grammar other permits state) :
    Tracks (hashPairs grammar) (hashPairs other) state fun _ => True := by
  unfold hashPairs
  refine (piece_tracks answers).keep rfl rfl fun key colon toColon => ?_
  simp only [Tracks.isAhead_bind]
  refine .ite (fun _ => .advance_bind ?_) fun _ => .giveUp rfl
  simp only [Tracks.isAhead_bind]
  refine .ite (fun _ => .giveUp rfl) fun _ => .advance_bind ?_
  have onward := ((answers.after toColon).after (.advance colon)).after (.advance _)
  refine (piece_tracks onward).keep rfl rfl fun value _ _ => ?_
  simp only [Tracks.isAhead_bind]
  refine .ite (fun _ => .advance_bind ?_) fun _ => .ite (fun _ => .pure trivial) fun _ => ?_
  · refine .ite (fun _ => .pure trivial) fun _ => .advance_bind ?_
    exact (answers.call .hashPairs rfl).andThen fun _ _ _ => .pure trivial
  · exact .giveUp rfl

/-- A piece that is dropped from a word has been reported. -/
theorem pieces_tracks {glue : Glue} (answers : Answers grammar other permits state) :
    Tracks (pieces grammar glue) (pieces other glue) state fun _ => True := by
  unfold pieces
  simp only [Tracks.get_bind]
  refine .ite (fun _ => .advance_bind ?_) fun _ => .pure trivial
  simp only [Tracks.current_bind]
  refine (piece_tracks (answers.after (.advance state))).andThen fun _ _ _ => ?_
  simp only [Tracks.current_bind]
  exact (answers.call (.pieces glue) rfl).andThen fun _ _ _ => .pure trivial

/-- A word is kept if its first piece is. -/
theorem word_tracks {glue : Glue} (answers : Answers grammar other permits state) :
    Tracks (word grammar glue) (word other glue) state (·.isSome) := by
  unfold word
  simp only [Tracks.current_bind]
  refine (piece_tracks answers).keep rfl rfl fun first _ _ => ?_
  simp only [Tracks.get_bind]
  refine .ite (fun _ => ?_) fun _ => .pure rfl
  refine (answers.call (.pieces glue) rfl).andThen fun _ _ _ => ?_
  simp only [Tracks.get_bind]
  exact .ite (fun _ => .pure rfl) fun _ => .pure rfl

end IRule.Parser
