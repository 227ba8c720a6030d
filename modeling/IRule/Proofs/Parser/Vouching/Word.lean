import IRule.Proofs.Parser.Vouching

/-!
# Calls and flags in words

Words are neither commands nor operations themselves, but hold those between their brackets,
in the keys of array elements and in strings. What stands in a snippet is kept only if
nothing was reported there, and then its flags are listed.
-/

namespace IRule.Parser

variable {transcript : Transcript} {grammar : Grammar} {state : State}

/-- A bare word stands for itself. -/
theorem wordVouched_bareWord (token : Token) (text : String) :
    WordVouched transcript token (bareWord token text) :=
  ⟨by simp [bareWord], rfl, rfl⟩

/-! ## References and brackets -/

/-- A number is a word, also where it does not fit. -/
theorem numberLiteral_vouches :
    Vouches transcript numberLiteral state
      fun value _ => WordVouched transcript state.current value := by
  unfold numberLiteral
  simp only [Vouches.current_bind]
  cases Text.int64? state.current.literal.toList with
  | some value => exact .pure ⟨by simp, rfl, rfl⟩
  | none => exact .after .reportedHere fun _ _ => .pure ⟨by simp, rfl, rfl⟩

/-- The key of an element may hold commands. -/
theorem variableReference_vouches (vouching : Vouching transcript grammar) :
    Vouches transcript (variableReference grammar) state
      fun result _ => ∀ value ∈ result, WordVouched transcript state.current value := by
  have reference (token : Token) (name : String) :
      ∀ value ∈ some (Expression.identifier token name true false),
        WordVouched transcript token value := by
    rintro _ ⟨⟩
    exact ⟨by simp, rfl, rfl⟩
  unfold variableReference
  simp only [Vouches.current_bind]
  refine .after checkDeclared_grows.vouches fun _ _ => ?_
  simp only [Vouches.get_bind]
  refine .ite (fun _ => ?_) fun _ => .pure (reference _ _)
  simp only [Vouches.advance_bind, Vouches.current_bind, Vouches.isAhead_bind]
  refine .ite (fun _ => .after .reportedHere fun _ _ => ?_) fun _ => ?_
  · simp only [Vouches.advance_bind]
    exact .pure (reference _ _)
  refine Vouches.bind (.within vouching.word) fun key _ => ?_
  simp only [Vouches.isAhead_bind]
  have element (token : Token) (name : String) (last : State) :
      Vouches transcript (pure (key.map fun key =>
        Expression.element token (.identifier token name true false) key)) last
        fun result _ => (∀ value ∈ key, AllVouched transcript value.nodes) →
          ∀ value ∈ result, WordVouched transcript token value := by
    refine .pure fun known => ?_
    simp only [Option.mem_def, Option.map_eq_some_iff]
    rintro _ ⟨key, found, rfl⟩
    exact ⟨by simpa using known key found, rfl, rfl⟩
  refine .ite (fun _ => ?_) fun _ => .after .reported fun _ _ => element _ _ _
  simp only [Vouches.advance_bind]
  exact element _ _ _

/-- Commands between brackets are covered one after the other. -/
theorem bracketCommands_vouches {line : Nat} (vouching : Vouching transcript grammar) :
    Vouches transcript (bracketCommands grammar line) state
      fun commands _ => AllVouched transcript (nodesOf commands) := by
  unfold bracketCommands
  simp only [Vouches.lookahead_bind]
  split
  case h_1 => exact .pure (by simp)
  case h_2 | h_3 => exact .after .reported fun _ _ => .pure (by simp)
  case h_4 => exact vouching.vouches (.bracketCommands line) _
  case h_5 =>
    simp only [Vouches.advance_bind]
    refine (vouching.vouches .commandOrExpression _).bind fun command _ => ?_
    refine .after (finishCommand_grows vouching.declares).vouches fun _ _ => ?_
    exact (vouching.vouches (.bracketCommands line) _).bind
      fun later _ => .pure fun rest first => rest.collect first

/-- A bracket starts at its opening one, and is no operation though it may hold some. -/
theorem bracketed_vouches (vouching : Vouching transcript grammar) :
    Vouches transcript (bracketed grammar) state
      fun value _ => WordVouched transcript state.current value := by
  unfold bracketed
  simp only [Vouches.current_bind]
  exact Vouches.bind (.within (vouching.vouches (.bracketCommands _) _))
    fun commands _ => .pure fun (known : AllVouched transcript (nodesOf commands)) =>
      ⟨by simpa using known, rfl, rfl⟩

/-! ## Braced lists -/

/-- The elements of a list are words each. -/
theorem listElements_vouches (vouching : Vouching transcript grammar) :
    Vouches transcript (listElements grammar) state
      fun elements _ => AllVouched transcript (nodesOf elements) := by
  unfold listElements
  simp only [Vouches.current_bind]
  refine .ite (fun _ => .pure (by simp)) fun _ => ?_
  refine vouching.word.bind fun element _ => ?_
  simp only [Vouches.advance_bind]
  exact (vouching.vouches .listElements _).bind
    fun later _ => .pure fun rest first => rest.collect first

/-- What is kept was read without a report. -/
theorem keepIfClean_vouches {α : Type} {snippet : State} {kept dropped : α} :
    Vouches transcript (keepIfClean snippet kept dropped) state
      fun result _ => result = kept ∧ snippet.diagnostics = [] ∨ result = dropped := by
  unfold keepIfClean
  refine .ite (fun clean => ?_) fun _ => .pure (.inr rfl)
  refine .modify_bind (by simp [State.absorb]) (.pure (.inl ⟨rfl, ?_⟩))
  simpa using clean

/-- What stands between braces starts at the opening one. -/
theorem braceItems_vouches {opening : Token} (vouching : Vouching transcript grammar) :
    Vouches transcript (braceItems grammar opening) state
      fun items _ => WordVouched transcript opening items := by
  unfold braceItems
  simp only [Vouches.get_bind]
  refine .ite (fun _ => ?_) fun _ => ?_
  · exact (vouching.vouches .hashPairs _).bind
      fun pairs _ => .pure fun known => ⟨by simpa using known, rfl, rfl⟩
  · exact (vouching.vouches .listElements _).bind
      fun elements _ => .pure fun known => ⟨by simpa using known, rfl, rfl⟩

/-- What is kept of a braced word was read without a report; what is not is raw. -/
theorem bracedWord_vouches (vouching : Vouching transcript grammar) :
    Vouches transcript (bracedWord grammar) state
      fun result _ => ∀ value ∈ result, WordVouched transcript state.current value := by
  unfold bracedWord
  simp only [Vouches.current_bind]
  refine .keepAfter (captureBrace_grows vouching.declares).vouches rfl fun body _ => ?_
  simp only [Vouches.get_bind]
  refine (Vouches.isolated (braceItems_vouches vouching)).bind ?_
  rintro ⟨items, snippet⟩ _
  refine keepIfClean_vouches.bind fun value _ => .pure fun kept known => ?_
  rintro _ ⟨⟩
  rcases kept with ⟨rfl, clean⟩ | rfl
  · exact known clean
  · exact ⟨by simp [bareWord], rfl, rfl⟩

/-! ## Strings -/

/-- The commands of an embedded script are covered by its own parser. -/
theorem substitutionCommands_vouches (vouching : Vouching transcript grammar) :
    Vouches transcript (substitutionCommands grammar) state
      fun commands _ => AllVouched transcript (nodesOf commands) := by
  unfold substitutionCommands
  simp only [Vouches.current_bind]
  split
  case h_1 => exact .pure (by simp)
  case h_2 => exact vouching.vouches .substitutionCommands _
  case h_3 =>
    refine (vouching.vouches .commandOrExpression _).bind fun command _ => ?_
    refine .after (finishCommand_grows vouching.declares).vouches fun _ _ => ?_
    simp only [Vouches.advance_bind]
    exact (vouching.vouches .substitutionCommands _).bind
      fun later _ => .pure fun rest first => rest.collect first

/-- A script that is kept was read without a report. -/
theorem substitution_vouches {token : Token} {script : List Char} {line : Nat}
    (vouching : Vouching transcript grammar) :
    Vouches transcript (substitution grammar token script line) state
      fun result _ => ∀ value ∈ result, AllVouched transcript value.nodes := by
  unfold substitution
  simp only [Vouches.get_bind]
  refine (Vouches.isolated (vouching.vouches .substitutionCommands _)).bind ?_
  rintro ⟨commands, snippet⟩ _
  refine .ite (fun _ => .pure (by simp)) fun _ => ?_
  refine keepIfClean_vouches.mono fun result _ kept known => ?_
  rcases kept with ⟨rfl, clean⟩ | rfl
  · simpa using known clean
  · simp

/-- The parts of a string are covered if those before were. -/
theorem interpolatedParts_vouches {token : Token} {parts : List Expression}
    {segments : List Segment} (vouching : Vouching transcript grammar) :
    Vouches transcript (interpolatedParts grammar token parts segments) state fun all _ =>
      AllVouched transcript (nodesOf parts) → AllVouched transcript (nodesOf all) := by
  fun_induction interpolatedParts grammar token parts segments generalizing state with
  | case1 => exact .pure id
  | case2 parts text later ih =>
    exact ih.mono fun _ _ goesOn before => goesOn (before.rearranged (rearranges_appendText _ _ _))
  | case3 parts name later ih =>
    exact ih.mono fun _ _ goesOn before => goesOn (by simpa using before)
  | case4 parts script front later some none =>
    refine (substitution_vouches vouching).bind fun embedded _ => ?_
    cases embedded with
    | some embedded =>
      refine (some embedded).mono fun _ _ goesOn known before => goesOn ?_
      simpa using ⟨before, known embedded rfl⟩
    | none =>
      exact none.mono fun _ _ goesOn _ before =>
        goesOn (before.rearranged (rearranges_appendText _ _ _))

/-- A string holds the calls and flags of its scripts. -/
theorem quotedString_vouches {token : Token} (vouching : Vouching transcript grammar) :
    Vouches transcript (quotedString grammar token) state
      fun value _ => WordVouched transcript token value := by
  unfold quotedString
  refine (interpolatedParts_vouches vouching).bind fun parts _ => ?_
  refine .ite (fun _ => .pure fun _ => ⟨by simp, rfl, rfl⟩) fun _ => .pure fun known => ?_
  exact ⟨by simpa using known (by simp), rfl, rfl⟩

/-! ## Gluing -/

/-- Each kind of first token has a piece of its own, and none is an operation. -/
theorem piece_vouches (vouching : Vouching transcript grammar) :
    Vouches transcript (piece grammar) state
      fun result _ => ∀ value ∈ result, WordVouched transcript state.current value := by
  unfold piece
  simp only [Vouches.current_bind]
  split
  case h_1 => exact .kept (bracketed_vouches vouching)
  case h_2 => exact bracedWord_vouches vouching
  case h_3 => exact .kept (quotedString_vouches vouching)
  case h_4 => exact variableReference_vouches vouching
  case h_5 => exact .kept numberLiteral_vouches
  case h_6 => exact .grows reportIllegal_grows
  case h_7 =>
    refine .pure ?_
    rintro _ ⟨⟩
    unfold simplePiece
    split <;> exact ⟨by simp, rfl, rfl⟩

/-- Keys and values are pieces; a pair that is broken off is left out. -/
theorem hashPairs_vouches (vouching : Vouching transcript grammar) :
    Vouches transcript (hashPairs grammar) state
      fun pairs _ => AllVouched transcript (pairNodes pairs) := by
  unfold hashPairs
  refine (piece_vouches vouching).bind fun key _ => ?_
  cases key with
  | none => exact .pure (by simp)
  | some key =>
    simp only [Vouches.isAhead_bind]
    refine .ite (fun _ => ?_) fun _ => .after .reportedAhead fun _ _ => .pure (by simp)
    simp only [Vouches.advance_bind, Vouches.isAhead_bind]
    refine .ite (fun _ => .after .reportedAhead fun _ _ => .pure (by simp)) fun _ => ?_
    simp only [Vouches.advance_bind]
    refine (piece_vouches vouching).bind fun value _ => ?_
    cases value with
    | none => exact .pure (by simp)
    | some value =>
      have one {start next : Token}
          (second : ∀ shown ∈ some value, WordVouched transcript next shown)
          (first : ∀ shown ∈ some key, WordVouched transcript start shown) :
          AllVouched transcript (pairNodes [(key, value)]) := by
        simpa using ⟨(first key rfl).nodes, (second value rfl).nodes⟩
      simp only [Vouches.isAhead_bind]
      refine .ite (fun _ => ?_) fun _ => ?_
      · simp only [Vouches.advance_bind, Vouches.isAhead_bind]
        refine .ite (fun _ => .pure one) fun _ => ?_
        simp only [Vouches.advance_bind]
        refine (vouching.vouches .hashPairs _).bind fun later _ => .pure fun rest second first => ?_
        simpa using ⟨(first key rfl).nodes, (second value rfl).nodes, rest⟩
      · exact .ite (fun _ => .pure one) fun _ => .after .reportedAhead fun _ _ => .pure one

/-- Pieces that are glued to a word are covered each. -/
theorem pieces_vouches {glue : Glue} (vouching : Vouching transcript grammar) :
    Vouches transcript (pieces grammar glue) state
      fun pieces _ => AllVouched transcript (nodesOf (pieces.map Prod.fst)) := by
  unfold pieces
  simp only [Vouches.get_bind]
  refine .ite (fun _ => ?_) fun _ => .pure (by simp)
  simp only [Vouches.advance_bind, Vouches.current_bind]
  refine (piece_vouches vouching).bind fun next _ => ?_
  simp only [Vouches.current_bind]
  refine (vouching.vouches (.pieces glue) _).bind fun later _ => .pure fun rest first => ?_
  have collected := AllVouched.collect rest fun value found => (first value found).nodes
  cases next <;> simpa using collected

/-- A word of more than one piece starts where its first piece does. -/
theorem word_vouches {glue : Glue} (vouching : Vouching transcript grammar) :
    Vouches transcript (word grammar glue) state
      fun result _ => ∀ value ∈ result, WordVouched transcript state.current value := by
  unfold word
  simp only [Vouches.current_bind]
  refine (piece_vouches vouching).keep rfl fun first _ => ?_
  simp only [Vouches.get_bind]
  refine .ite (fun _ => ?_) fun _ => .pure fun known => by simpa using known
  refine (vouching.vouches (.pieces glue) _).bind fun later _ => ?_
  simp only [Vouches.get_bind]
  refine .ite (fun _ => .pure fun _ _ => ?_) fun _ => .pure fun rest known => ?_
  · simpa using wordVouched_bareWord _ _
  · rintro _ ⟨⟩
    have all : AllVouched transcript (nodesOf (first :: later.map Prod.fst)) :=
      allVouched_append.2 ⟨known.nodes, rest⟩
    exact ⟨by simpa using all.rearranged (rearranges_wordParts _ _ ((first, _) :: later)), rfl, rfl⟩

end IRule.Parser
