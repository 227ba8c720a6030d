import IRule.Proofs.Parser.Recovery

/-!
# Words

Every piece of a word is valid, and so is the word. Braced lists and embedded
commands are read as snippets, which are shorter than what is left of the text;
what is kept of them was read without a problem.
-/

namespace IRule.Parser

open Text

/-! ## Embeddings -/

namespace Segment

/-- A script between brackets is part of the text. -/
theorem scriptUpTo?_length {pending text script : List Char}
    (found : scriptUpTo? pending text = some script) : byteLength script ≤ byteLength text := by
  fun_induction scriptUpTo? pending text generalizing script with
  | case1 => simp at found
  | case2 => simp at found
  | case3 pending hidden later ih =>
    obtain ⟨inner, read, rfl⟩ := Option.map_eq_some_iff.1 found
    have := ih read
    simp only [byteLength_cons]
    omega
  | case4 =>
    simp only [Option.some.injEq] at found
    simp [← found]
  | case5 pending char rest =>
    rename_i ih
    obtain ⟨inner, read, rfl⟩ := Option.map_eq_some_iff.1 found
    have := ih read
    simp only [byteLength_cons]
    omega

/-- The script of an embedded command is no longer than the text it is looked for in. -/
theorem script?_length {text script : List Char} (found : script? text = some script) :
    byteLength script ≤ byteLength text := by
  cases text with
  | nil => simp [script?] at found
  | cons char rest =>
    simp only [script?] at found
    split at found
    · exact scriptUpTo?_length found
    · simp at found

/-- An embedded command at a `[` is no longer than the text behind it, whatever stands
before. -/
theorem embedding?_command {before rest script origin : List Char} {char : Char} {length : Nat}
    (found : embedding? before char rest = some (.command script origin, length)) :
    byteLength script ≤ byteLength rest := by
  simp only [embedding?] at found
  split at found
  · simp at found
  · split at found
    · obtain ⟨inner, read, same⟩ := Option.map_eq_some_iff.1 found
      simp only [Prod.mk.injEq, command.injEq] at same
      obtain ⟨⟨rfl, -⟩, -⟩ := same
      exact script?_length read
    · simp at found

/-- Plain text has no embedded commands. -/
theorem command_notMem_ofText {run script origin : List Char} :
    command script origin ∉ ofText run := by
  unfold ofText
  split <;> simp

/-- An embedded script is part of the text. -/
theorem split_command {before run text script origin : List Char} {skip : Nat}
    (mem : .command script origin ∈ split before run skip text) :
    byteLength script ≤ byteLength text := by
  fun_induction split before run skip text with
  | case1 => exact absurd mem command_notMem_ofText
  | case2 before run char rest more ih =>
    have := ih mem
    simp only [byteLength_cons]
    omega
  | case3 => exact absurd mem command_notMem_ofText
  | case4 before run char _ hidden later ih =>
    have := ih mem
    simp only [byteLength_cons]
    omega
  | case5 before run char rest _ segment length found ih =>
    simp only [List.mem_append, List.mem_cons, command_notMem_ofText, false_or] at mem
    simp only [byteLength_cons]
    rcases mem with rfl | mem
    · have := embedding?_command found
      omega
    · have := ih mem
      omega
  | case6 before run char rest _ _ ih =>
    have := ih mem
    simp only [byteLength_cons]
    omega

end Segment

variable {grammar other : Grammar} {state : State}

/-! ## References and brackets -/

/-- The name of a reference without braces is what stands behind the `$`. -/
theorem referenceName_unbraced {name : List Char} (unbraced : name.head? ≠ some '\x7b') :
    referenceName (String.ofList ('$' :: name)) = String.ofList name := by
  cases name with
  | nil => simp [referenceName]
  | cons char rest =>
    have other : char ≠ '\x7b' := by simpa using unbraced
    simp [referenceName, other]

/-- The name of a reference in braces is what stands between them. -/
theorem referenceName_braced (name : List Char) :
    referenceName (String.ofList ('$' :: '\x7b' :: (name ++ ['\x7d']))) = String.ofList name := by
  simp [referenceName]

/-- A number that does not fit is reported; any other is valid as it stands. -/
theorem numberLiteral_reads :
    Reads numberLiteral numberLiteral state fun value _ => value.Plain := by
  unfold numberLiteral
  simp only [Reads.current_bind]
  cases int64? state.current.literal.toList with
  | some value => exact .pure ⟨trivial, rfl⟩
  | none => exact .reportHere_bind (by simp) fun _ _ => .pure trivial

/-- An undeclared variable is reported, and the reference stays what it is. -/
theorem checkDeclared_reads {name : String} {line : Nat} :
    Reads (checkDeclared name line) (checkDeclared name line) state fun _ _ => True := by
  unfold checkDeclared
  simp only [Reads.get_bind]
  exact .ite (fun _ => .report (by simp)) fun _ => .pure trivial

/-- The key of an element is a word, which is read behind the name. -/
theorem variableReference_reads (calls : Calls grammar other 0 state) :
    Reads (variableReference grammar) (variableReference other) state
      fun result _ => ∀ value ∈ result, value.Plain := by
  unfold variableReference
  simp only [Reads.current_bind]
  refine .bind checkDeclared_reads fun _ checked passage => ?_
  simp only [Reads.get_bind]
  refine .ite (fun glued => .advance_bind ?_) fun _ => ?_
  · have onward := (calls.after passage).ahead (State.more_of_parenGlued glued)
    simp only [Reads.current_bind, Reads.isAhead_bind]
    refine .ite (fun _ => .reportHere_bind (by simp) fun _ _ => .advance_bind (.pure trivial))
      fun _ => ?_
    have key := ((onward.enter .index).onward.call (.word .word))
    refine .bind (.within (.advance_bind key)) fun key middle _ => ?_
    simp only [Reads.isAhead_bind]
    refine .ite (fun _ => .advance_bind (.pure ?_)) fun _ => .report_bind (by simp)
      fun _ _ => .pure trivial
    rintro ⟨_, good, -⟩ - value found
    obtain ⟨key, rfl, rfl⟩ := Option.map_eq_some_iff.1 found
    exact ⟨⟨trivial, (good key rfl).valid⟩, rfl⟩
  · exact .pure fun _ => by simpa using ⟨trivial, rfl⟩

/-- Commands between brackets are read one after the other, each nearer to the end. -/
theorem bracketCommands_reads {line : Nat} (calls : Calls grammar other 0 state) :
    Reads (bracketCommands grammar line) (bracketCommands other line) state
      fun commands _ => AllValid commands := by
  unfold bracketCommands
  simp only [Reads.lookahead_bind]
  split
  case h_1 => exact .advance_bind (.pure trivial)
  case h_2 => exact .report_bind (by simp) fun _ _ => .pure trivial
  case h_3 => exact .report_bind (by simp) fun _ _ => .pure trivial
  case h_4 ahead =>
    exact .advance_bind ((calls.ahead (by simp [ahead])).call (.bracketCommands line))
  case h_5 more _ _ =>
    have onward := calls.ahead more
    refine .advance_bind (.bind (onward.call .commandOrExpression) fun command read passage => ?_)
    have onward := onward.after passage
    refine .bind (finishCommand_reads (onward.lower (by decide))) fun _ done finishing => ?_
    refine .bind ((onward.after finishing).call (.bracketCommands line)) fun later _ _ => .pure ?_
    intro rest _ first
    exact allValid_append.2 ⟨allValid_toList.2 fun value found => (first value found).1, rest⟩

/-- A bracket is made of valid commands, and none of them declares anything exclusive
outside of it. -/
theorem bracketed_reads (calls : Calls grammar other 1 state) :
    Reads (bracketed grammar) (bracketed other) state fun value _ => value.Plain := by
  unfold bracketed
  simp only [Reads.current_bind]
  refine .bind (.within ((calls.enter .bracket).now (.bracketCommands _) Nat.one_pos))
    fun commands _ _ => .pure ?_
  rintro ⟨_, valid, -⟩
  exact ⟨valid, rfl⟩

/-! ## Braced lists -/

/-- The elements of a list are words, up to the end of the snippet. -/
theorem listElements_reads (calls : Calls grammar other 2 state) :
    Reads (listElements grammar) (listElements other) state
      fun elements _ => AllValid elements := by
  unfold listElements
  simp only [Reads.current_bind]
  refine .ite (fun _ => .pure trivial) fun more => ?_
  refine .bind (calls.now (.word .word) (by decide)) fun element middle passage => .advance_bind ?_
  have onward := calls.beyond passage (by simpa using more)
  refine .bind (onward.call .listElements) fun later _ _ => .pure ?_
  intro rest first
  exact allValid_append.2 ⟨allValid_toList.2 fun value found => (first value found).valid, rest⟩

theorem simplePiece_plain (token : Token) : (simplePiece token).Plain := by
  unfold simplePiece
  split <;> exact ⟨trivial, rfl⟩

/-- What is kept of a snippet was read without a problem. -/
theorem keepIfClean_reads {α : Type} {snippet : State} {kept dropped : α} :
    Reads (keepIfClean snippet kept dropped) (keepIfClean snippet kept dropped) state
      fun result _ => snippet.diagnostics = [] ∧ result = kept ∨ result = dropped := by
  unfold keepIfClean
  refine .ite (fun clean => ?_) fun _ => .pure (.inr rfl)
  have clean : snippet.diagnostics = [] := by simpa using clean
  have passage : Passage state (state.absorb snippet) := by
    have same : state.absorb snippet =
        { state with declared := Naming.addAll state.declared snippet.declared } := by
      simp [State.absorb, clean]
    rw [same]
    exact .of_step (.declare state snippet.declared) rfl rfl
  exact .run_bind rfl passage (.pure fun _ => .inl ⟨clean, rfl⟩)

/-- A hash has valid pairs and a list valid elements. -/
theorem braceItems_reads {opening : Token} (calls : Calls grammar other Production.top state) :
    Reads (braceItems grammar opening) (braceItems other opening) state
      fun value _ => value.Plain := by
  unfold braceItems
  simp only [Reads.get_bind]
  refine .ite (fun _ => ?_) fun _ => ?_
  · exact .bind (calls.call .hashPairs) fun pairs _ _ => .pure fun valid => ⟨valid, rfl⟩
  · exact .bind (calls.call .listElements) fun elements _ _ => .pure fun valid => ⟨valid, rfl⟩

/-- The body of a braced word is shorter than what is left of the text, so that anything
may be called in it; a body that is not kept is a bare word. -/
theorem bracedWord_reads (calls : Calls grammar other 1 state) :
    Reads (bracedWord grammar) (bracedWord other) state
      fun result _ => ∀ value ∈ result, value.Plain := by
  unfold bracedWord
  simp only [Reads.current_bind]
  refine captureBrace_bind calls (fun _ _ => .pure trivial) fun body lexer captured passage => ?_
  simp only [Reads.get_bind]
  have shorter := calls.coherent.body_lt_remaining captured
  have inner := calls.snippet passage state.current.line .expression shorter
  refine .bind (.isolated (braceItems_reads inner)) fun read middle _ => ?_
  obtain ⟨items, snippet⟩ := read
  refine .bind keepIfClean_reads fun result _ _ => .pure ?_
  rintro (⟨clean, rfl⟩ | rfl) ⟨-, plain⟩ value found
  · cases found
    exact plain clean
  · cases found
    exact ⟨⟨trivial, trivial⟩, rfl⟩

/-! ## Strings -/

/-- The commands of an embedded script are read up to the end of the snippet. -/
theorem substitutionCommands_reads (calls : Calls grammar other 4 state) :
    Reads (substitutionCommands grammar) (substitutionCommands other) state
      fun commands _ => AllValid commands := by
  unfold substitutionCommands
  simp only [Reads.current_bind]
  split
  case h_1 => exact .pure trivial
  case h_2 here =>
    exact .advance_bind ((calls.advance (by simp [here])).call .substitutionCommands)
  case h_3 more _ =>
    refine .bind (calls.now .commandOrExpression (by decide)) fun command read passage => ?_
    refine .bind (finishCommand_reads ((calls.after passage).lower (by decide))) ?_
    intro _ done finishing
    have onward := calls.beyond (passage.trans finishing) more
    refine .advance_bind (.bind (onward.call .substitutionCommands) fun later _ _ => .pure ?_)
    intro rest _ first
    exact allValid_append.2 ⟨allValid_toList.2 fun value found => (first value found).1, rest⟩

/-- An embedded script is read as a snippet of what is left at `origin`. -/
theorem substitution_reads {origin : State} {token : Token} {script : List Char} {line : Nat}
    (calls : Calls grammar other 1 origin) (passage : Passage origin state)
    (shorter : byteLength script < origin.remaining) :
    Reads (substitution grammar token script line) (substitution other token script line) state
      fun result _ => ∀ value ∈ result, value.Valid := by
  unfold substitution
  simp only [Reads.get_bind]
  have inner := calls.snippet passage line .bracket shorter
  refine .bind (.isolated (inner.call .substitutionCommands)) fun read middle _ => ?_
  obtain ⟨commands, snippet⟩ := read
  refine .ite (fun _ => .pure (by simp)) fun _ => ?_
  refine keepIfClean_reads.mono ?_
  rintro result _ - (⟨clean, rfl⟩ | rfl) ⟨-, valid⟩ value found
  · cases found
    exact valid clean
  · cases found

/-- Text may be joined to text, or stand on its own. -/
theorem appendText_valid {token : Token} {parts : List Expression} {text : String}
    (valid : AllValid parts) : AllValid (appendText token parts text) := by
  have before : AllValid parts.dropLast :=
    allValid_iff.2 fun value mem => allValid_iff.1 valid value (List.mem_of_mem_dropLast mem)
  unfold appendText
  split
  · exact allValid_append.2 ⟨before, trivial, trivial⟩
  · exact allValid_append.2 ⟨valid, trivial, trivial⟩

/-- Every embedded script is shorter than what is left of the text around the string, from
which it is read. -/
theorem interpolatedParts_reads {origin : State} {token : Token} {parts : List Expression}
    {segments : List Segment} (calls : Calls grammar other 1 origin)
    (passage : Passage origin state)
    (shorter : ∀ script before, .command script before ∈ segments →
      byteLength script < origin.remaining) :
    Reads (interpolatedParts grammar token parts segments)
      (interpolatedParts other token parts segments) state
      fun result _ => AllValid parts → AllValid result := by
  induction segments generalizing parts state with
  | nil => exact .pure id
  | cons segment later ih =>
    have rest : ∀ script before, .command script before ∈ later →
        byteLength script < origin.remaining :=
      fun script before mem => shorter script before (by simp [mem])
    cases segment with
    | text text =>
      exact (ih passage rest).mono fun _ _ _ holds valid => holds (appendText_valid valid)
    | reference name =>
      refine (ih passage rest).mono fun _ _ _ holds valid => holds ?_
      exact allValid_append.2 ⟨valid, trivial, trivial⟩
    | command script before =>
      have inner := shorter script before (by simp)
      refine .bind (substitution_reads calls passage inner) fun embedded middle onward => ?_
      cases embedded with
      | none =>
        refine (ih (passage.trans onward) rest).mono fun _ _ _ holds _ valid => holds ?_
        exact appendText_valid valid
      | some embedded =>
        refine (ih (passage.trans onward) rest).mono fun _ _ _ holds read valid => holds ?_
        exact allValid_append.2 ⟨valid, read embedded rfl, trivial⟩

/-- The scripts of a string are shorter than its body, and the body than the string. -/
theorem quotedString_reads (calls : Calls grammar other 1 state)
    (string : state.current.kind = .string) :
    Reads (quotedString grammar state.current) (quotedString other state.current) state
      fun value _ => value.Plain := by
  unfold quotedString
  refine .bind (interpolatedParts_reads calls (.refl state) ?_) fun parts middle _ => ?_
  · intro script before mem
    have part := Segment.split_command mem
    have quotes := calls.coherent.quotes string
    have total := calls.coherent.stands.total
    unfold State.remaining
    omega
  · refine .ite (fun _ => .pure fun _ => ⟨trivial, rfl⟩) fun _ => .pure fun valid => ?_
    exact ⟨valid trivial, rfl⟩

/-! ## Gluing -/

/-- Each kind of first token has a piece of its own, and every one of them is valid. -/
theorem piece_reads (calls : Calls grammar other 1 state) :
    Reads (piece grammar) (piece other) state fun result _ => ∀ value ∈ result, value.Plain := by
  unfold piece
  simp only [Reads.current_bind]
  split
  case h_1 =>
    exact .bind (bracketed_reads calls) fun _ _ _ => .pure fun plain => by simpa using plain
  case h_2 => exact bracedWord_reads calls
  case h_3 string =>
    exact .bind (quotedString_reads calls string) fun _ _ _ => .pure fun plain => by
      simpa using plain
  case h_4 => exact variableReference_reads (calls.lower (by decide))
  case h_5 => exact .bind numberLiteral_reads fun _ _ _ => .pure fun plain => by simpa using plain
  case h_6 => exact .reportIllegal
  case h_7 => exact .pure (by simpa using simplePiece_plain state.current)

/-- Keys and values of a hash are pieces; pairs behind a problem are left out. -/
theorem hashPairs_reads (calls : Calls grammar other 1 state) :
    Reads (hashPairs grammar) (hashPairs other) state fun pairs _ => PairsValid pairs := by
  unfold hashPairs
  refine .bindOption (piece_reads calls)
    (fun _ _ => .pure fun _ => trivial) fun key colon toColon => ?_
  simp only [Reads.isAhead_bind]
  refine .ite (fun ahead => ?_) fun _ => .reportAhead_bind (by simp) fun _ _ => .pure trivial
  have onward := (calls.after toColon).ahead (State.more_of_kind ahead (by simp))
  refine .advance_bind ?_
  simp only [Reads.isAhead_bind]
  refine .ite (fun _ => .reportAhead_bind (by simp) fun _ _ => .pure trivial)
    fun _ => .advance_bind ?_
  refine .bindOption (piece_reads (onward.onward.lower (by decide)))
    (fun _ _ => .pure fun _ _ => trivial) fun value comma toComma => ?_
  have onward := onward.onward.after toComma
  have pair : (∀ part ∈ some value, part.Plain) → (∀ part ∈ some key, part.Plain) →
      key.Valid ∧ value.Valid :=
    fun second first => ⟨(first key rfl).valid, (second value rfl).valid⟩
  simp only [Reads.isAhead_bind]
  refine .ite (fun ahead => .advance_bind ?_) fun _ => .ite (fun _ => ?_) fun _ => ?_
  · refine .ite (fun _ => .pure ?_) fun _ => .advance_bind ?_
    · exact fun second first => ⟨(pair second first).1, (pair second first).2, trivial⟩
    · refine .bind (onward.onward.onward.call .hashPairs) fun later _ _ => .pure ?_
      exact fun rest second first => ⟨(pair second first).1, (pair second first).2, rest⟩
  · exact .pure fun second first => ⟨(pair second first).1, (pair second first).2, trivial⟩
  · exact .reportAhead_bind (by simp) fun _ _ => .pure trivial

/-- Pieces that are glued to the first are valid, each by itself. -/
theorem pieces_reads {glue : Glue} (calls : Calls grammar other 0 state) :
    Reads (pieces grammar glue) (pieces other glue) state
      fun pieces _ => ∀ piece ∈ pieces, piece.1.Valid := by
  unfold pieces
  simp only [Reads.get_bind]
  refine .ite (fun glued => .advance_bind ?_) fun _ => .pure (by simp)
  have onward := calls.ahead (State.more_of_glue glued)
  simp only [Reads.current_bind]
  refine .bind (piece_reads (onward.lower (by decide))) fun next middle passage => ?_
  simp only [Reads.current_bind]
  refine .bind ((onward.after passage).call (.pieces glue)) fun later _ _ => .pure ?_
  intro rest first piece mem
  rcases List.mem_append.1 mem with mem | mem
  · obtain ⟨value, rfl, rfl⟩ := Option.map_eq_some_iff.1 (Option.mem_toList.1 mem)
    exact (first value rfl).valid
  · exact rest piece mem

/-- The text of a run is valid, as all text is. -/
theorem textPart_valid {final : State} {run : Option (Token × Span)} :
    AllValid (textPart final run) := by
  unfold textPart
  split
  · exact ⟨trivial, trivial⟩
  · trivial

/-- A bracket that becomes a substitution keeps its commands. -/
theorem embedded_valid {value : Expression} (valid : value.Valid) : (embedded value).Valid := by
  unfold embedded
  split
  · exact valid
  · exact valid

/-- Joining runs of text leaves the other pieces of a word as they are. -/
theorem wordParts_valid {final : State} {run : Option (Token × Span)}
    {pieces : List (Expression × Span)} (valid : ∀ piece ∈ pieces, piece.1.Valid) :
    AllValid (wordParts final run pieces) := by
  induction pieces generalizing run with
  | nil => exact textPart_valid
  | cons piece later ih =>
    obtain ⟨next, span⟩ := piece
    have rest : ∀ piece ∈ later, piece.1.Valid := fun piece mem => valid piece (by simp [mem])
    unfold wordParts
    split
    · split
      · exact ih rest
      · exact ih rest
    · exact allValid_append.2 ⟨textPart_valid,
        embedded_valid (valid (next, span) (by simp)), ih rest⟩

/-- A word is its only piece, a bare word made of text, or an interpolation of valid
parts. -/
theorem word_reads {glue : Glue} (calls : Calls grammar other 1 state) :
    Reads (word grammar glue) (word other glue) state
      fun result _ => ∀ value ∈ result, value.Plain := by
  unfold word
  simp only [Reads.current_bind]
  refine .bindOption (piece_reads calls)
    (fun _ _ => .pure fun _ => by simp) fun first middle passage => ?_
  simp only [Reads.get_bind]
  refine .ite (fun _ => ?_) fun _ => .pure id
  refine .bind ((calls.after passage).now (.pieces glue) Nat.one_pos) fun later final _ => ?_
  simp only [Reads.get_bind]
  refine .ite (fun _ => .pure ?_) fun _ => .pure ?_
  · intro _ _ value found
    cases found
    exact ⟨trivial, rfl⟩
  · intro rest plain value found
    cases found
    refine ⟨wordParts_valid ?_, rfl⟩
    simp only [List.mem_cons, forall_eq_or_imp]
    exact ⟨(plain first rfl).valid, rest⟩

end IRule.Parser
