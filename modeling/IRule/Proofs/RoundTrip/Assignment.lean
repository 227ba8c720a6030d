import IRule.Proofs.RoundTrip.Expression

/-!
# Assignments read back

A `set` is its target and a word. The target is a name that is taken as text, a word that gives
the name, or a bracket that computes it. A loop declares its targets, which may be a list of names.
-/

namespace IRule

namespace Parser

open Lexeme (Severs Spells)

variable {names : Names} {setting : Setting} {rest : List Char}

/-! ## Targets -/

/-- A name in front of a blank goes on with its command, and is taken as text. -/
theorem State.Faces.target {state : State} {name : String}
    (faces : state.Faces setting ([' '] ++ (name.toList ++ ' ' :: rest)))
    (legible : isRawName name) :
    state.endsCommand = false ∧
      state.advance.current.kind ∉ [.openBrace, .openBracket, .reference, .string] := by
  obtain ⟨char, text, written, unnamed, raw⟩ := exists_of_isRawName legible
  rw [written] at faces
  obtain ⟨spacing, plain, named, -⟩ := faces.raw .space raw
  have notReference := named unnamed
  have here : state.advance.current.kind = state.lookahead.kind := rfl
  simp only [List.mem_cons, List.not_mem_nil, or_false, not_or] at plain ⊢
  have goesOn : state.lookahead.kind.isTerminator = false := by
    cases known : state.lookahead.kind <;> simp_all [TokenKind.isTerminator]
  refine ⟨by simp [State.endsCommand, goesOn, spacing], ?_⟩
  rw [here]
  tauto

/-- A legal name is a target, and the variable that it declares. -/
theorem yields_rawTarget {state : State} {name : String} (legible : isRawName name)
    (legal : Naming.isVariableName name) (outside : setting.nesting.head? ≠ some .index)
    (faces : state.Faces setting ([' '] ++ (name.toList ++ ' ' :: rest))) :
    Yields (setTarget language) state.advance fun result last =>
      result = some (bareWord state.advance.current name, some (declaredName name)) ∧
        last.declared = state.declared ∧ last.Stands setting (' ' :: rest) := by
  obtain ⟨-, plain⟩ := faces.target legible
  simp only [List.mem_cons, List.not_mem_nil, or_false, not_or] at plain
  unfold setTarget
  simp only [Yields.current_bind]
  split
  · simp_all
  · simp_all
  · simp_all
  · refine (yields_rawWordText legible outside .space faces).bind ?_
    rintro _ next ⟨rfl, stands, declared⟩
    refine (yields_variableTarget legal).bind ?_
    rintro _ _ ⟨rfl, rfl⟩
    exact .pure ⟨rfl, declared, stands⟩

/-- A target is read back in front of a blank, with the variable that it declares. -/
structure ReadsTarget (names : Names) (target : Expression) : Prop where
  goesOn : ∀ ⦃setting : Setting⦄ ⦃state : State⦄ ⦃rest : List Char⦄,
    state.Faces setting ([' '] ++ (target.written.toList ++ ' ' :: rest)) →
    state.endsCommand = false
  reads : ∀ ⦃setting : Setting⦄ ⦃state : State⦄ ⦃rest : List Char⦄,
    setting.Admits names → setting.nesting.head? ≠ some .index →
    state.Faces setting ([' '] ++ (target.written.toList ++ ' ' :: rest)) →
    Yields (setTarget language) state.advance fun result last =>
      ∃ copy declared, result = some (copy, declared) ∧ copy.shape = target.shape ∧
        declared.toList = target.targetNames ∧
        last.Stands (setting.knowing target.names) (' ' :: rest)
  spared : names.spares target.targetNames

theorem readsTarget_raw {token : Token} {name : String} {isReserved : Bool}
    (legible : isRawName name) (legal : Naming.isVariableName name)
    (spared : names.spares [declaredName name]) :
    ReadsTarget names (.identifier token name false isReserved) where
  goesOn := fun _ _ _ faces => by
    rw [Expression.written, if_neg Bool.false_ne_true] at faces
    exact (faces.target legible).1
  reads := fun setting state rest admits outside faces => by
    rw [Expression.written, if_neg Bool.false_ne_true] at faces
    refine (yields_rawTarget legible legal outside faces).mono ?_
    rintro _ last ⟨rfl, -, stands⟩
    exact ⟨_, _, rfl, rfl, rfl, by simpa [Expression.names, Node.declares] using stands⟩
  spared := spared

/-- The kind of the first token of a word that is a target. -/
def targetKind? : Expression → Option TokenKind
  | .identifier _ _ true _ | .element .. => some .reference
  | .string .. | .interpolated .. => some .string
  | .bracket .. => some .openBracket
  | _ => none

/-- What the text of such a word starts with. -/
theorem opens_of_targetKind? {word : Expression} {kind : TokenKind}
    (legible : word.legibleArgument names) (starts : targetKind? word = some kind)
    (braces brackets : Nat) (severs : Severs rest) :
    ∃ first later, word.written.toList ++ rest = first ++ later ∧
      Spells braces brackets first later kind := by
  unfold targetKind? at starts
  split at starts
  · obtain rfl := Option.some.inj starts
    simp only [Expression.legibleArgument, Bool.and_eq_true] at legible
    exact ⟨_, _, by simp only [Expression.written, if_true],
      spells_referenceText legible.1 severs.breaks⟩
  · rename_i token array key
    obtain rfl := Option.some.inj starts
    rcases array with ⟨_, name, _ | _, _⟩ | _
    case identifier.true =>
      simp only [Expression.legibleArgument, Bool.and_eq_true] at legible
      exact ⟨(referenceText name).toList, '(' :: (key.written.toList ++ ')' :: rest),
        by simp [Expression.written], spells_referenceText legible.1.1
          (by simp [Lexeme.Breaks, Lexeme.isWordChar, Lexeme.isNameChar])⟩
    all_goals simp [Expression.legibleArgument] at legible
  · rename_i token text
    obtain rfl := Option.some.inj starts
    simp only [Expression.legibleArgument, isCutInto, Bool.and_eq_true] at legible
    exact ⟨'"' :: text.toList ++ ['"'], rest, by simp [Expression.written],
      .string (Lexeme.Enclosed.of_isEnclosed legible.1).2⟩
  · rename_i token raw parts
    obtain rfl := Option.some.inj starts
    simp only [Expression.legibleArgument, isCutInto, Bool.and_eq_true] at legible
    exact ⟨'"' :: (writtenParts parts).toList ++ ['"'], rest, by simp [Expression.written],
      .string (Lexeme.Enclosed.of_isEnclosed legible.2.1).2⟩
  · rename_i token commands
    obtain rfl := Option.some.inj starts
    exact ⟨['['], (separated "; " (writtenAll commands)).toList ++ ']' :: rest,
      by simp [Expression.written], .openBracket⟩
  · simp at starts

/-- The first token of a word that is a target. -/
theorem State.Faces.targetWord {state : State} {word : Expression} {kind : TokenKind}
    (faces : state.Faces setting ([' '] ++ (word.written.toList ++ rest)))
    (legible : word.legibleArgument names) (starts : targetKind? word = some kind)
    (severs : Severs rest) : state.advance.current.kind = kind := by
  obtain ⟨first, later, text, spells⟩ :=
    opens_of_targetKind? legible starts setting.braces setting.brackets severs
  rw [text] at faces
  exact (faces.token .space spells).1

theorem not_isBare_of_targetKind? {word : Expression} {kind : TokenKind}
    (starts : targetKind? word = some kind) : word.isBare = false := by
  rcases word with ⟨_, _, _ | _, _⟩ | _ <;> simp_all [targetKind?, Expression.isBare]

theorem readsTarget_word {word : Expression} {kind : TokenKind} (argues : Argues names word)
    (legible : word.legibleArgument names) (starts : targetKind? word = some kind)
    (listed : kind ∈ [.reference, .string]) : ReadsTarget names word where
  goesOn := fun _ _ _ faces => argues.begins.goesOn faces severs_space
  reads := fun setting state rest admits outside faces => by
    have here := faces.targetWord legible starts severs_space
    have declaresNone := Expression.targetNames_of_not_isBare (not_isBare_of_targetKind? starts)
    have wordRead : Yields (language.word .word >>= fun name =>
        pure (name.map fun name => (name, none))) state.advance fun result last =>
        ∃ copy declared, result = some (copy, declared) ∧ copy.shape = word.shape ∧
          declared.toList = word.targetNames ∧
          last.Stands (setting.knowing word.names) (' ' :: rest) := by
      refine (argues.reads admits .space faces (Setting.stops_space .word)).bind ?_
      rintro _ last ⟨copy, rfl, copies, stands⟩
      exact .pure ⟨copy, none, rfl, copies.shape, declaresNone.symm, stands⟩
    unfold setTarget
    simp only [Yields.current_bind]
    simp only [List.mem_cons, List.not_mem_nil, or_false] at listed
    rcases listed with rfl | rfl <;> simpa only [here] using wordRead
  spared := by
    rw [Expression.targetNames_of_not_isBare (not_isBare_of_targetKind? starts)]
    rfl

theorem readsTarget_computed {token inner : Token} {commands : List Expression}
    (embeds : EmbedsAll names commands) :
    ReadsTarget names (.computed token (.bracket inner commands)) where
  goesOn := fun setting state rest faces => by
    have faced : state.Faces setting ([' '] ++ (['['] ++
        ((separated "; " (writtenAll commands)).toList ++ ']' :: ' ' :: rest))) := by
      simpa [Expression.written] using faces
    obtain ⟨kind, -, apart, -⟩ := faced.token .space .openBracket
    simp [State.endsCommand, kind, apart, TokenKind.isTerminator]
  reads := fun setting state rest admits _ faces => by
    have faced : state.Faces setting ([' '] ++
        ((Expression.bracket inner commands).written.toList ++ ' ' :: rest)) := by
      simpa [Expression.written] using faces
    obtain ⟨kind, bracketRead⟩ := yields_bracketed_embeds embeds admits .space faced
    unfold setTarget
    simp only [Yields.current_bind, kind]
    refine bracketRead.bind ?_
    rintro copy last ⟨copies, stands⟩
    refine .pure ⟨_, none, rfl, by simp [Expression.shape, copies.shape], rfl, ?_⟩
    simpa [Expression.names, Node.declares] using stands
  spared := rfl

/-! ## Targets of loops -/

/-- The target of a loop is read back in front of a blank, and declared. -/
structure ReadsLoop (names : Names) (word : Expression) : Prop where
  goesOn : ∀ ⦃setting : Setting⦄ ⦃state : State⦄ ⦃rest : List Char⦄,
    state.Faces setting ([' '] ++ (word.written.toList ++ ' ' :: rest)) →
    state.endsCommand = false
  reads : ∀ ⦃setting : Setting⦄ ⦃state : State⦄ ⦃rest : List Char⦄,
    setting.Admits names → setting.nesting.head? ≠ some .index →
    state.Faces setting ([' '] ++ (word.written.toList ++ ' ' :: rest)) →
    Yields (loopTargets language) state.advance fun result last =>
      ∃ copy : Expression, result = some copy ∧ copy.shape = word.shape ∧
        last.Stands ((setting.knowing word.names).knowing word.loopNames) (' ' :: rest)

theorem readsLoop_raw {token : Token} {name : String} {isReserved : Bool}
    (legible : isRawName name) (legal : Naming.isVariableName name)
    (spared : names.spares [declaredName name]) :
    ReadsLoop names (.identifier token name false isReserved) where
  goesOn := fun _ _ _ faces => by
    rw [Expression.written, if_neg Bool.false_ne_true] at faces
    exact (faces.target legible).1
  reads := fun setting state rest admits outside faces => by
    rw [Expression.written, if_neg Bool.false_ne_true] at faces
    obtain ⟨-, plain⟩ := faces.target legible
    simp only [List.mem_cons, List.not_mem_nil, or_false, not_or] at plain
    unfold loopTargets
    simp only [Yields.current_bind]
    split
    · simp_all
    · simp_all
    · simp_all
    · refine (yields_rawWordText legible outside .space faces).bind ?_
      rintro _ next ⟨rfl, passed, -⟩
      refine (yields_declaredTarget legal (admits.spares spared) passed).bind ?_
      rintro _ last ⟨rfl, stands⟩
      exact .pure ⟨_, rfl, rfl, by simpa [Expression.names, Node.declares, Expression.loopNames,
        Expression.targetNames] using stands⟩

/-- Names in braces are declared one by one. -/
theorem yields_loopVariables {elements : List Expression}
    (legal : ∀ element ∈ elements, element.isBare ∧ Naming.isVariableName element.written)
    (spared : setting.Spares (elements.flatMap Expression.targetNames)) {state : State} {line : Nat}
    (stands : state.Stands setting rest) :
    Yields (loopVariables line ((writtenAll elements).map String.toList)) state fun result last =>
      shapeAll result = shapeAll elements ∧
        last.Stands (setting.knowing (elements.flatMap Expression.targetNames)) rest := by
  induction elements generalizing setting state with
  | nil => exact .pure ⟨rfl, by simpa using stands⟩
  | cons element elements ih =>
    obtain ⟨⟨bare, named⟩, others⟩ := List.forall_mem_cons.1 legal
    obtain ⟨token, name, isReserved, rfl⟩ := exists_of_isBare bare
    rw [Expression.written, if_neg Bool.false_ne_true] at named
    simp only [writtenAll, Expression.written, Bool.false_eq_true, if_false, List.map_cons,
      loopVariables, String.ofList_toList]
    obtain ⟨here, later⟩ : setting.Spares [declaredName name] ∧
        (setting.knowing [declaredName name]).Spares (elements.flatMap Expression.targetNames) :=
      List.forall_mem_append.1 spared
    refine (yields_declaredTarget named here stands).bind ?_
    rintro _ next ⟨rfl, stands⟩
    refine (ih others later stands).bind ?_
    rintro copies last ⟨shapes, stands⟩
    rw [Setting.knowing_knowing] at stands
    exact .pure ⟨by simp [shapeAll, Expression.shape, bareWord, shapes],
      by simpa [Expression.targetNames] using stands⟩

/-- Bare words declare nothing. -/
theorem wordNames_of_isBare {words : List Expression} (bare : ∀ word ∈ words, word.isBare) :
    wordNames words = [] := by
  induction words with
  | nil => rfl
  | cons word words ih =>
    obtain ⟨here, others⟩ := List.forall_mem_cons.1 bare
    obtain ⟨token, name, isReserved, rfl⟩ := exists_of_isBare here
    simp [ih others, Expression.names, Node.declares]

theorem readsLoop_list {token : Token} {elements : List Expression}
    (legible : isLoopList elements)
    (spared : names.spares (elements.flatMap Expression.targetNames)) :
    ReadsLoop names (.list token elements) := by
  have braceFaced {setting : Setting} {state : State} {rest : List Char}
      (faces : state.Faces setting ([' '] ++ ((Expression.list token elements).written.toList ++
        ' ' :: rest))) : state.Faces setting ([' '] ++ (['\x7b'] ++
          ((separated " " (writtenAll elements)).toList ++ '\x7d' :: ' ' :: rest))) := by
    simpa [Expression.written] using faces
  constructor
  · intro setting state rest faces
    obtain ⟨kind, -, apart, -⟩ := (braceFaced faces).token .space .openBrace
    simp [State.endsCommand, kind, apart, TokenKind.isTerminator]
  · intro setting state rest admits _ faces
    simp only [isLoopList, Bool.and_eq_true, List.all_eq_true, beq_iff_eq] at legible
    obtain ⟨⟨legal, words⟩, braced⟩ := legible
    obtain ⟨kind, -, -, opened⟩ := (braceFaced faces).token .space .openBrace
    have here : state.advance.current.kind = .openBrace := kind
    have none : (Expression.list token elements).names = [] := by
      rw [← wordNames_of_isBare fun element inside => (legal element inside).1]
      simp [Expression.names, wordNames, Node.declares]
    simp only [loopTargets, Yields.current_bind, here]
    refine (yields_captureBrace braced here opened).bind ?_
    rintro _ next ⟨rfl, stands, -⟩
    simp only [words]
    refine (yields_loopVariables legal (admits.spares spared) stands).bind ?_
    rintro copies last ⟨shapes, stands⟩
    refine .pure ⟨_, rfl, by simp [Expression.shape, shapes], ?_⟩
    rw [none, Setting.knowing_nil]
    exact stands

theorem readsLoop_word {word : Expression} {kind : TokenKind} (argues : Argues names word)
    (legible : word.legibleArgument names) (starts : targetKind? word = some kind)
    (listed : kind ∈ [.reference, .openBracket]) : ReadsLoop names word where
  goesOn := fun _ _ _ faces => argues.begins.goesOn faces severs_space
  reads := fun setting state rest admits _ faces => by
    have here := faces.targetWord legible starts severs_space
    have declaresNone : word.loopNames = [] := by
      rcases word with ⟨_, _, _ | _, _⟩ | _ <;>
        simp_all [targetKind?, Expression.loopNames, Expression.targetNames]
    have wordRead : Yields (language.word .word) state.advance fun result last =>
        ∃ copy : Expression, result = some copy ∧ copy.shape = word.shape ∧
          last.Stands ((setting.knowing word.names).knowing word.loopNames) (' ' :: rest) := by
      refine (argues.reads admits .space faces (Setting.stops_space .word)).mono ?_
      rintro _ last ⟨copy, rfl, copies, stands⟩
      exact ⟨copy, rfl, copies.shape, by rwa [declaresNone, Setting.knowing_nil]⟩
    unfold loopTargets
    simp only [Yields.current_bind]
    simp only [List.mem_cons, List.not_mem_nil, or_false] at listed
    rcases listed with rfl | rfl <;> simpa only [here] using wordRead

/-! ## Targets and values -/

/-- The parts of a `set` are its target and the word behind it. The variable is declared behind
both. -/
theorem Yields.setParts {state : State} {post : Option (Expression × Expression) → State → Prop}
    {targeted : Expression → Option String → State → Prop} (goesOn : state.endsCommand = false)
    (targetRead : Yields (setTarget language) state.advance fun result next =>
      ∃ name declared, result = some (name, declared) ∧ targeted name declared next)
    (valueRead : ∀ name declared next, targeted name declared next → next.endsCommand = false ∧
      Yields (language.word .word) next.advance fun result last =>
        ∃ value, result = some value ∧ last.endsCommand = true ∧
          Yields (declare declared) last fun _ final => post (some (name, value)) final) :
    Yields (setParts language) state post := by
  simp only [Parser.setParts, Yields.endsCommand_bind, goesOn, Bool.false_eq_true, if_false,
    Yields.advance_bind]
  refine targetRead.bind ?_
  rintro _ next ⟨name, declared, rfl, target⟩
  obtain ⟨goesOn, valueRead⟩ := valueRead name declared next target
  simp only [Yields.endsCommand_bind, goesOn, Bool.false_eq_true, if_false, Yields.advance_bind]
  refine valueRead.bind ?_
  rintro _ last ⟨value, rfl, ends, declares⟩
  simp only [Yields.endsCommand_bind, ends, if_true]
  exact declares.bind fun _ final holds => .pure holds

/-- The parts of a `set` are read back. -/
theorem ReadsTarget.yields {left right : Expression} (reads : ReadsTarget names left)
    (argues : Argues (names.plus left.names) right) {state : State} (admits : setting.Admits names)
    (outside : setting.nesting.head? ≠ some .index) (closes : setting.Closes rest)
    (stands : state.Stands setting ([' '] ++ (left.written.toList ++
      ' ' :: (right.written.toList ++ rest)))) :
    Yields (setParts language) state fun result last =>
      ∃ name value : Expression, result = some (name, value) ∧ name.shape = left.shape ∧
        value.shape = right.shape ∧
        last.Stands (setting.knowing (left.names ++ right.names ++ left.targetNames)) rest := by
  refine Yields.setParts (reads.goesOn stands.toFaces)
    (reads.reads admits outside stands.toFaces) ?_
  rintro name declared next ⟨sameName, named, stands⟩
  have behind : next.Faces (setting.knowing left.names) ([' '] ++ (right.written.toList ++ rest)) :=
    stands.toFaces
  refine ⟨argues.begins.goesOn behind closes.severs, ?_⟩
  refine (argues.reads (admits.knowing _) .space behind ((closes.knowing _).stops .word)).mono ?_
  rintro _ last ⟨value, rfl, copies, stands⟩
  refine ⟨value, rfl, ((closes.knowing _).knowing _).ends last stands.toFaces, ?_⟩
  rw [Setting.knowing_knowing] at stands
  have declares : Yields (declare declared) last fun _ final => final.Stands
      ((setting.knowing (left.names ++ right.names)).knowing left.targetNames) rest := by
    rw [← named]
    cases declared with
    | none => exact .pure (by simpa using stands)
    | some declared =>
      have spared : setting.Spares [declared] := by
        have whole := admits.spares reads.spared
        rwa [← named] at whole
      exact ⟨_, _, rfl, stands.declare spared⟩
  refine declares.mono fun _ final stands => ?_
  rw [Setting.knowing_knowing] at stands
  exact ⟨name, value, rfl, sameName, copies.shape, stands⟩

/-! ## Assignments in the place of commands -/

/-- A `set` is a command, also where the name of its target is the word of an operator. -/
theorem Yields.setCommand {state : State} {post : Option Expression → State → Prop}
    (coherent : state.Coherent) (kind : state.current.kind = .reserved .set)
    (reads : Yields (Parser.setCommand language) state fun result last =>
      ∃ copy, result = some copy ∧ last.Coherent ∧ last.endsCommand = true ∧
        post (some copy) last) :
    Yields language.commandOrExpression state post := by
  have commandRead : Yields (Parser.command language) state fun result last =>
      ∃ copy, result = some copy ∧ last.Coherent ∧ last.endsCommand = true ∧
        post (some copy) last := by
    simp only [Parser.command, Yields.current_bind, commandFamily?, kind]
    exact reads
  change Yields (language.parse .commandOrExpression) _ _
  refine .rule coherent ?_
  change Yields (commandOrExpression language) _ _
  simp only [commandOrExpression, Yields.get_bind]
  split
  · refine commandRead.mono ?_
    rintro _ last ⟨copy, rfl, -, -, holds⟩
    exact holds
  · have expressionRead : Yields (language.expression .lowest) state fun result last =>
        ∃ copy, result = some copy ∧ last.endsCommand = true ∧ post (some copy) last := by
      change Yields (language.parse (.expression .lowest)) _ _
      refine .rule coherent ?_
      change Yields (Parser.expression language .lowest) _ _
      have operandRead : Yields (operand language) state fun result last =>
          ∃ copy, result = some copy ∧ last.Coherent ∧ last.endsCommand = true ∧
            post (some copy) last := by
        unfold operand
        simpa only [Yields.current_bind, kind] using commandRead
      refine operandRead.bind ?_
      rintro _ last ⟨copy, rfl, coherent, ends, holds⟩
      change Yields (language.parse (.operatorChain copy .lowest)) _ _
      refine .rule coherent ?_
      change Yields (operatorChain language copy .lowest) _ _
      simp only [operatorChain, Yields.get_bind, ends, if_true]
      exact .pure ⟨copy, rfl, ends, holds⟩
    refine expressionRead.bind ?_
    rintro _ last ⟨copy, rfl, ends, holds⟩
    simp only [Yields.endsCommand_bind, ends, if_true]
    exact .pure holds

/-- Assignments between brackets are read back. -/
theorem readsCommand_set {token inner : Token} {isReserved : Bool} {left right : Expression}
    (reads : ReadsTarget names left) (argues : Argues (names.plus left.names) right) :
    ReadsCommand names (.invocation token (.identifier inner "set" false isReserved)
      [left, right]) := by
  intro setting state gap rest spacing admits gapped faces closes outside _
  have faced : state.Faces setting (gap ++ ("set".toList ++ ([' '] ++ (left.written.toList ++
      ' ' :: (right.written.toList ++ rest))))) := by
    simpa [Expression.written, writtenAll, spacedWords_eq_followed] using faces
  obtain ⟨kind, text, -, stands⟩ := faced.name gapped (by decide) breaks_space
  refine .setCommand stands.coherent (kind.trans (by decide)) ?_
  simp only [setCommand, Yields.current_bind]
  refine (reads.yields argues admits outside closes stands).bind ?_
  rintro _ last ⟨name, value, rfl, sameName, sameValue, stands⟩
  refine .pure ⟨_, rfl, stands.coherent, (closes.knowing _).ends last stands.toFaces, _,
    rfl, ?_, ?_⟩
  · simp [Expression.shape, shapeAll, bareWord, sameName, sameValue, text]
  · simp only [Expression.exclusives, Setting.after, Setting.excluding_empty]
    refine stands.retain fun name inside => ?_
    simp only [Expression.names, Expression.nodes, nodesOf, declaredBy_cons, declaredBy_append,
      Node.declares, beq_self_eq_true, if_true, List.head?_cons, Option.elim_some, declaredBy_nil,
      List.nil_append, List.append_nil, List.mem_append] at inside ⊢
    tauto

end Parser

end IRule
