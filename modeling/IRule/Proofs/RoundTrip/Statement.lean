import IRule.Proofs.RoundTrip.Arms

/-!
# Statements read back

Every legible statement, written and read again, gives a copy of itself.
-/

namespace IRule

namespace Parser

open Lexeme (Breaks Severs Spells)

variable {names : Names} {setting : Setting} {rest : List Char}

/-! ## Assignments -/

/-- A `set`, whose value is read as a word up to the end of the command. It declares its
target, and of other variables what its value does. -/
theorem yields_setWord {reported : List Diagnostic → Prop} {accepts : Expression → Prop}
    {state : State} {gap text : List Char} {spacing : Spacing} {name : String}
    (kept : List String → Prop) (legible : isRawName name)
    (legal : Naming.isVariableName name) (spared : setting.Spares [declaredName name])
    (gapped : Gap gap spacing) (scripted : setting.nesting.head? = some .script)
    (faces : state.Faces setting (gap ++ ("set".toList ++ ([' '] ++ (name.toList ++
      ' ' :: (text ++ rest))))))
    (ends : setting.Ends rest) (begins : Begins text) (keeps : kept state.declared)
    (reads : ∀ later : State, later.Stands setting ([' '] ++ (text ++ rest)) →
      kept later.declared →
      Yields (language.word .word) later.advance fun result last =>
        ∃ value, result = some value ∧ (accepts value ∧ kept last.declared) ∧
          last.Awaits reported setting rest) :
    Yields language.statement state.advance fun result last =>
      ∃ copy, result = some copy ∧
        ((∃ token place value, copy = .set token (bareWord place name) value ∧ accepts value) ∧
          ∃ before, kept before ∧ last.declared = Naming.add before (declaredName name)) ∧
        last.Awaits reported (setting.knowing [declaredName name]) rest := by
  have closes : setting.Closes rest := by simpa [Setting.after] using ends.closes .empty []
  have closed : (setting.knowing [declaredName name]).Closes rest := by
    simpa [Setting.after] using ends.closes .empty [declaredName name]
  obtain ⟨kind, -, -, stands⟩ := faces.name gapped (by decide) breaks_space
  have here : state.advance.current.kind = .reserved .set := kind.trans (by decide)
  have targetRead : Yields (setTarget language) state.advance.advance fun result next =>
      ∃ target declared, result = some (target, declared) ∧
        (target = bareWord state.advance.advance.current name ∧
          declared = some (declaredName name) ∧
          kept next.declared ∧ next.Stands setting (' ' :: (text ++ rest))) := by
    refine (yields_rawTarget legible legal (by simp [scripted]) stands.toFaces).mono ?_
    rintro _ next ⟨rfl, same, stands⟩
    exact ⟨_, _, rfl, rfl, rfl, by rw [same]; exact keeps, stands⟩
  have partsRead : Yields (setParts language) state.advance fun result last =>
      ∃ value, result = some (bareWord state.advance.advance.current name, value) ∧
        accepts value ∧
        (∃ before, kept before ∧ last.declared = Naming.add before (declaredName name)) ∧
        last.Awaits reported (setting.knowing [declaredName name]) rest := by
    refine .setParts (stands.toFaces.target legible).1 targetRead ?_
    rintro _ _ next ⟨rfl, rfl, keeps, stands⟩
    refine ⟨begins.goesOn (show next.Faces setting ([' '] ++ (text ++ rest)) from stands.toFaces)
      closes.severs, (reads _ stands keeps).mono ?_⟩
    rintro _ last ⟨value, rfl, ⟨accepted, keeps⟩, awaits⟩
    exact ⟨value, rfl, closes.ends last.quiet awaits.stands.toFaces, _, _, rfl, value,
      rfl, accepted, ⟨_, keeps, rfl⟩, awaits.declare spared⟩
  have bodyRead : Yields (statementBody language) state.advance fun result last =>
      ∃ copy, result = some copy ∧
        (((∃ token place value, copy = .set token (bareWord place name) value ∧ accepts value) ∧
          ∃ before, kept before ∧ last.declared = Naming.add before (declaredName name)) ∧
        last.Awaits reported (setting.knowing [declaredName name]) rest) ∧
        last.endsCommand = true := by
    simp only [statementBody, setStatement, Yields.current_bind, here]
    refine partsRead.bind ?_
    rintro _ last ⟨value, rfl, accepted, declared, awaits⟩
    have ended : last.endsCommand = true := closed.ends last.quiet awaits.stands.toFaces
    exact .pure ⟨_, rfl, ⟨⟨⟨_, _, value, rfl, accepted⟩, declared⟩, awaits⟩, ended⟩
  exact .finished stands.coherent (by simp [here]) bodyRead

/-- The same with a value that is read back. -/
theorem yields_set {state : State} {gap text : List Char} {spacing : Spacing} {name : String}
    (value : Expression) (kept : List String → Prop) (legible : isRawName name)
    (legal : Naming.isVariableName name) (spared : setting.Spares [declaredName name])
    (gapped : Gap gap spacing) (scripted : setting.nesting.head? = some .script)
    (faces : state.Faces setting (gap ++ ("set".toList ++ ([' '] ++ (name.toList ++
      ' ' :: (text ++ rest))))))
    (ends : setting.Ends rest) (begins : Begins text) (keeps : kept state.declared)
    (reads : ∀ later : State, later.Faces setting ([' '] ++ (text ++ rest)) → kept later.declared →
      Yields (language.word .word) later.advance fun result last =>
        ∃ copy, result = some copy ∧ (copy.shape = value.shape ∧ kept last.declared) ∧
          last.Stands setting rest) :
    Yields language.statement state.advance fun result last =>
      ∃ copy, result = some copy ∧
        (copy.shape = .set default (.identifier default name false false) value.shape ∧
          ∃ before, kept before ∧ last.declared = Naming.add before (declaredName name)) ∧
        last.Stands (setting.knowing [declaredName name]) rest := by
  simp only [← State.awaits_iff_stands] at reads ⊢
  refine (yields_setWord kept legible legal spared gapped scripted faces ends begins keeps
    fun later stands => reads later stands.toFaces).mono ?_
  rintro _ last ⟨_, rfl, ⟨⟨_, _, copy, rfl, same⟩, declared⟩, awaits⟩
  exact ⟨_, rfl, ⟨by simp [Statement.shape, Expression.shape, bareWord, same], declared⟩, awaits⟩

/-- Assignments are read back. -/
theorem readsStatement_set {token : Token} {left right : Expression}
    (reads : ReadsTarget names left) (argues : Argues (names.plus left.names) right) :
    ReadsStatement names (.set token left right) := by
  intro setting state gap rest spacing admits gapped scripted faces ends _
  have closes : setting.Closes rest := by simpa [Setting.after] using ends.closes .empty []
  have faced : state.Faces setting (gap ++ ("set".toList ++ ([' '] ++ (left.written.toList ++
      ' ' :: (right.written.toList ++ rest))))) := by
    simpa [Statement.written] using faces
  obtain ⟨kind, -, -, stands⟩ := faced.name gapped (by decide) breaks_space
  have here : state.advance.current.kind = .reserved .set := kind.trans (by decide)
  refine .statement stands.coherent (by simp [here]) (ends.closes _ _) ?_
  simp only [statementBody, setStatement, Yields.current_bind, here]
  refine (reads.yields argues admits (by simp [scripted]) closes stands).bind ?_
  rintro _ last ⟨name, value, rfl, sameName, sameValue, stands⟩
  refine .pure ⟨_, rfl, by simp [Statement.shape, sameName, sameValue], ?_⟩
  simp only [Statement.exclusives, Setting.after, Setting.excluding_empty]
  refine stands.retain fun name inside => ?_
  simp only [Statement.names, Statement.nodes, declaredBy_cons, declaredBy_append, Node.declares,
    Expression.names, List.mem_append] at inside ⊢
  tauto

/-! ## Simple statements -/

theorem readsStatement_return {token : Token} :
    ReadsStatement names (.returning token none) := by
  intro setting state gap rest spacing admits gapped scripted faces ends _
  have closes : setting.Closes rest := by simpa [Setting.after] using ends.closes .empty []
  have faced : state.Faces setting (gap ++ ("return".toList ++ rest)) := by
    simpa [Statement.written] using faces
  obtain ⟨kind, -, -, stands⟩ := faced.name gapped (by decide) closes.breaks
  have here : state.advance.current.kind = .reserved .returnWord := kind.trans (by decide)
  refine .statement stands.coherent (by simp [here]) (ends.closes _ _) ?_
  simp only [statementBody, returnStatement, Yields.current_bind, here, Yields.endsCommand_bind,
    closes.ends _ stands.toFaces, if_true]
  refine .pure ⟨_, rfl, by simp [Statement.shape], ?_⟩
  simpa [Setting.after, Statement.exclusives, Statement.names, Node.declares] using stands

/-- A `return` with a value, which is read as a word up to the end of the command. -/
theorem yields_returning {state : State} {gap text : List Char} {spacing : Spacing}
    {value : Expression} {ending : Setting} (gapped : Gap gap spacing)
    (faces : state.Faces setting (gap ++ ("return".toList ++ ([' '] ++ (text ++ rest)))))
    (closes : ending.Closes rest) (begins : Begins text)
    (reads : ∀ later : State, later.Faces setting ([' '] ++ (text ++ rest)) →
      Yields (language.word .word) later.advance fun result last =>
        ∃ copy, result = some copy ∧ copy.shape = value.shape ∧ last.Stands ending rest) :
    Yields language.statement state.advance fun result last =>
      ∃ copy : Statement, result = some copy ∧
        copy.shape = .returning default (some value.shape) ∧ last.Stands ending rest := by
  obtain ⟨kind, -, -, stands⟩ := faces.name gapped (by decide) breaks_space
  have here : state.advance.current.kind = .reserved .returnWord := kind.trans (by decide)
  have goesOn := begins.goesOn stands.toFaces closes.severs
  refine .statement stands.coherent (by simp [here]) closes ?_
  simp only [statementBody, returnStatement, Yields.current_bind, here, Yields.endsCommand_bind,
    goesOn, Bool.false_eq_true, if_false, Yields.advance_bind]
  refine (reads _ stands.toFaces).bind ?_
  rintro _ last ⟨copy, rfl, same, stands⟩
  exact .pure ⟨_, rfl, by simp [Statement.shape, same], stands⟩

theorem readsStatement_returning {token : Token} {value : Expression}
    (argues : Argues names value) :
    ReadsStatement names (.returning token (some value)) := by
  intro setting state gap rest spacing admits gapped scripted faces ends _
  have closes : setting.Closes rest := by simpa [Setting.after] using ends.closes .empty []
  have faced : state.Faces setting (gap ++ ("return".toList ++ ([' '] ++ (value.written.toList ++
      rest)))) := by
    simpa [Statement.written] using faces
  have same : setting.after (Statement.returning token (some value)).exclusives
      (Statement.returning token (some value)).names = setting.knowing value.names := by
    simp [Setting.after, Statement.exclusives, Statement.names, Expression.names, Node.declares]
  rw [same]
  have reading := yields_returning gapped faced (closes.knowing value.names) argues.begins
    fun later faces => (argues.reads admits .space faces (closes.stops .word)).mono (by
      rintro _ _ ⟨copy, kept, copies, stands⟩
      exact ⟨copy, kept, copies.shape, stands⟩)
  refine reading.mono ?_
  rintro _ last ⟨copy, rfl, shape, stands⟩
  exact ⟨copy, rfl, by simp [shape, Statement.shape], stands⟩

theorem readsStatement_block {body : Block} (reads : ReadsBlock names body) :
    ReadsStatement names (.block body) := by
  intro setting state gap rest spacing admits gapped scripted faces ends _
  have faced : state.Faces setting (gap ++ (body.written.toList ++ rest)) := by
    simpa [Statement.written] using faces
  obtain ⟨kind, bodyRead⟩ := reads.faced admits gapped faced
  have here : state.advance.current.kind = .openBrace := kind
  refine .statement faces.ahead.advance (by simp [here]) (ends.closes _ _) ?_
  simp only [statementBody, Yields.current_bind, here]
  refine bodyRead.bind ?_
  rintro copy last ⟨same, stands⟩
  refine .pure ⟨_, rfl, by simp [Statement.shape, same], ?_⟩
  simpa [Setting.after, Statement.exclusives, Statement.names, Node.declares, Block.names]
    using stands

/-! ## Commands and expressions as statements -/

/-- What is read where a command may stand is a statement, if it ends with its command. -/
theorem yields_commandStatement {state : State} {accepts : Expression → State → Prop}
    (coherent : state.Coherent) (here : state.current.kind ∉ structureKinds)
    (read : Yields language.commandOrExpression state fun result last =>
      ∃ copy, result = some copy ∧ accepts copy last ∧ last.endsCommand = true) :
    Yields language.statement state fun result last =>
      ∃ statement, result = some statement ∧
        ∃ token copy, statement = .expression token copy ∧ accepts copy last := by
  have commandRead : Yields (expressionStatement language) state fun result last =>
      ∃ statement, result = some statement ∧
        (∃ token copy, statement = .expression token copy ∧ accepts copy last) ∧
          last.endsCommand = true := by
    simp only [expressionStatement, Yields.current_bind]
    refine read.bind ?_
    rintro _ last ⟨copy, rfl, accepted, ends⟩
    exact .pure ⟨_, rfl, ⟨_, copy, rfl, accepted⟩, ends⟩
  simp only [structureKinds, List.mem_cons, List.not_mem_nil, or_false, not_or] at here
  have notRule : (state.current.kind == .reserved .ltm) = false := by simp [here]
  refine .finished coherent (by simp [here]) ?_
  unfold statementBody
  simp only [Yields.current_bind]
  split
  case h_10 =>
    simp only [Yields.isAhead_bind, notRule, Bool.false_and, Bool.false_eq_true, if_false]
    exact commandRead
  all_goals simp_all

/-- Commands and expressions are read back as statements. -/
theorem readsStatement_expression {token : Token} {value : Expression}
    (legible : value.legibleCommand names ∨ value.legibleExpression names)
    (opens : value.opensStatement) (reads : ReadsCommand names value) :
    ReadsStatement names (.expression token value) := by
  intro setting state gap rest spacing admits gapped scripted faces ends free
  have closes : setting.Closes rest := by simpa [Setting.after] using ends.closes .empty []
  have closed := ends.closes value.exclusives value.names
  have faced : state.Faces setting (gap ++ (value.written.toList ++ rest)) := by
    simpa [Statement.written] using faces
  have here : state.advance.current.kind ∉ structureKinds := by
    obtain ⟨kind, first, later, text, spells, other⟩ :=
      opens_of_opensStatement legible opens setting.braces setting.brackets closes.severs
    rw [text] at faced
    have known : state.advance.current.kind = kind := (faced.token gapped spells).1
    rwa [known]
  have read : Yields language.commandOrExpression state.advance fun result last =>
      ∃ copy : Expression, result = some copy ∧ (copy.shape = value.shape ∧
        last.Stands (setting.after value.exclusives value.names) rest) ∧
          last.endsCommand = true := by
    refine (reads admits gapped faced closes (by simp [scripted]) free).mono ?_
    rintro _ last ⟨copy, rfl, same, stands⟩
    exact ⟨copy, rfl, ⟨same, stands⟩, closed.ends last stands.toFaces⟩
  refine (yields_commandStatement faces.ahead.advance here read).mono ?_
  rintro _ last ⟨_, rfl, _, copy, rfl, same, stands⟩
  refine ⟨_, rfl, by simp [Statement.shape, same], ?_⟩
  simpa [Statement.exclusives, Statement.names, Expression.names, Node.declares] using stands

/-! ## Handlers -/

/-- No event is an operator. -/
theorem isOperatorWord_of_isEvent {event : String} (known : Vocabulary.isEvent event) :
    isOperatorWord event = false := by
  have none : ∀ other ∈ Vocabulary.events, isOperatorWord other = false := by decide
  exact none event (by simpa [Vocabulary.isEvent] using known)

theorem breaks_priorityText (priority : Option Int64) :
    Breaks ((priorityText priority).toList ++ ' ' :: rest) := by
  cases priority <;> simp [priorityText, Breaks, Lexeme.isWordChar, Lexeme.isNameChar]

/-- The number behind `priority` is the priority, if it fits. -/
theorem yields_numeralPriority {numeral : List Char} {state : State}
    (spells : Spells setting.braces setting.brackets numeral (' ' :: '\x7b' :: rest) .number)
    (stands : state.Stands setting ([' '] ++ ("priority".toList ++ ([' '] ++ (numeral ++
      ' ' :: '\x7b' :: rest))))) :
    Yields handlerPriority state fun result last =>
      result = Text.int64? numeral ∧ last.Stands setting (' ' :: '\x7b' :: rest) := by
  obtain ⟨-, literal, -, named⟩ := stands.toFaces.name .space (by decide) breaks_space
  have here : state.lookahead.literal = "priority" := literal
  have goesOn := endsCommand_of_starts stands.toFaces (starts_of_isBareWord (by decide))
  obtain ⟨number, spelled, -, numbered⟩ := named.toFaces.token .space spells
  rw [Lexeme.literalOf_eq _ (by simp)] at spelled
  have text : state.advance.advance.current.literal.toList = numeral := by
    rw [show state.advance.advance.current.literal = _ from spelled, String.toList_ofList]
  simp only [handlerPriority, Yields.get_bind, here, goesOn, bne_self_eq_false, Bool.false_or,
    Bool.false_eq_true, if_false, Yields.advance_bind, Yields.isAhead_bind, number,
    beq_self_eq_true, if_true, Yields.current_bind, text]
  exact .pure ⟨rfl, numbered⟩

/-- Priorities are read back. -/
theorem yields_handlerPriority {priority : Option Int64} {state : State}
    (stands : state.Stands setting ((priorityText priority).toList ++ ' ' :: '\x7b' :: rest)) :
    Yields handlerPriority state fun result last =>
      result = priority ∧ last.Stands setting (' ' :: '\x7b' :: rest) := by
  cases priority with
  | none =>
    have faced : state.Stands setting ([' '] ++ (['\x7b'] ++ rest)) := by
      simpa [priorityText] using stands
    obtain ⟨-, literal, -, -⟩ := faced.toFaces.token .space .openBrace
    have other : (state.lookahead.literal != "priority") = true := by
      rw [literal]
      decide
    simp only [handlerPriority, Yields.get_bind, other, Bool.true_or, if_true]
    exact .pure ⟨rfl, faced⟩
  | some priority =>
    have faced : state.Stands setting ([' '] ++ ("priority".toList ++ ([' '] ++
        ((Text.int64Text priority).toList ++ ' ' :: '\x7b' :: rest)))) := by
      simpa [priorityText] using stands
    rw [← Text.int64?_int64Text priority]
    exact yields_numeralPriority (.number priority breaks_space) faced

/-- A handler is its event, the priority that is read behind it, and a block. -/
theorem yields_handler {event : String} {priority : Option Int64} {accepts : Block → Prop}
    {state : State} {gap behind opened : List Char} {spacing : Spacing} {final : Setting}
    (legible : isLegibleWord event) (known : Vocabulary.isEvent event) (gapped : Gap gap spacing)
    (breaks : Breaks behind)
    (faces : state.Faces setting (gap ++ ("when".toList ++ ([' '] ++ (event.toList ++ behind)))))
    (priorityRead : ∀ next : State, next.Stands setting behind →
      Yields handlerPriority next fun result last =>
        result = priority ∧ last.Stands setting opened)
    (blockRead : ∀ next : State, next.Stands setting opened →
      Yields (expectBlock language .eventName) next fun result last =>
        ∃ copy, result = some copy ∧ accepts copy ∧ last.Stands final rest)
    (closes : final.Closes rest) :
    Yields language.statement state.advance fun result last =>
      ∃ statement, result = some statement ∧
        (∃ token outer inner copy, statement = .expression token
          (.handler outer (bareWord inner event) priority copy) ∧ accepts copy) ∧
        last.Stands final rest := by
  simp only [isLegibleWord, Bool.and_eq_true] at legible
  have bare := legible.1.1
  obtain ⟨kind, -, -, stands⟩ := faces.name gapped (by decide) breaks_space
  have here : state.advance.current.kind = .reserved .when := kind.trans (by decide)
  obtain ⟨eventKind, eventText, -, named⟩ := stands.toFaces.name .space bare breaks
  have goesOn := endsCommand_of_starts stands.toFaces (starts_of_isBareWord bare)
  have notOperator : Precedence.isStatementOperator state.advance.lookahead = false := by
    rw [← isOperatorWord_of_isEvent known, isOperatorWord]
    exact isStatementOperator_congr eventKind eventText
  have notBrace : (state.advance.lookahead.kind == .openBrace) = false := by
    have inner := (stands.toFaces.startsPiece .space (starts_of_isBareWord bare)).1
    rw [beq_eq_false_iff_ne]
    intro same
    simp [same, Lexeme.boundaries] at inner
  have eventRead : Yields eventName state.advance.advance fun result last =>
      result = bareWord state.advance.advance.current event ∧ last = state.advance.advance := by
    simp only [eventName, Yields.current_bind, eventText, known, if_true]
    exact .pure ⟨rfl, rfl⟩
  have handlerRead : Yields (handler language) state.advance fun result last =>
      ∃ copy, result = some (.handler state.advance.current
          (bareWord state.advance.advance.current event) priority copy) ∧
        accepts copy ∧ last.Stands final rest := by
    simp only [handler, Yields.current_bind, Yields.endsCommand_bind, Yields.isAhead_bind, goesOn,
      notBrace, Bool.or_self, Bool.false_eq_true, if_false, Yields.advance_bind]
    refine eventRead.bind ?_
    rintro _ _ ⟨rfl, rfl⟩
    refine (priorityRead _ named).bind ?_
    rintro _ next ⟨rfl, stands⟩
    refine (blockRead next stands).bind ?_
    rintro _ last ⟨copy, rfl, accepted, stands⟩
    exact .pure ⟨copy, rfl, accepted, stands⟩
  have commandRead : Yields language.commandOrExpression state.advance fun result last =>
      ∃ copy, result = some (.handler state.advance.current
          (bareWord state.advance.advance.current event) priority copy) ∧
        accepts copy ∧ last.Stands final rest := by
    refine .command stands.coherent (by simp [startsCommand, here]) (by simp [notOperator]) ?_
    simp only [command, Yields.current_bind, commandFamily?, here]
    exact handlerRead
  refine .statement stands.coherent (by simp [here]) closes ?_
  simp only [statementBody, Yields.current_bind, here, Yields.isAhead_bind]
  have notRule : (TokenKind.reserved .when == TokenKind.reserved .ltm) = false := by decide
  simp only [notRule, Bool.false_and, Bool.false_eq_true, if_false, expressionStatement,
    Yields.current_bind]
  refine commandRead.bind ?_
  rintro _ last ⟨copy, rfl, accepted, stands⟩
  exact .pure ⟨_, rfl, ⟨_, _, _, copy, rfl, accepted⟩, stands⟩

/-- Handlers are read back. -/
theorem readsStatement_handler {token outer inner : Token} {event : String} {isReserved : Bool}
    {priority : Option Int64} {body : Block} (legible : isLegibleWord event)
    (known : Vocabulary.isEvent event) (reads : ReadsBlock names body) :
    ReadsStatement names (.expression token
      (.handler outer (.identifier inner event false isReserved) priority body)) := by
  intro setting state gap rest spacing admits gapped scripted faces ends _
  obtain ⟨inner, text, bodyRead⟩ := reads
  have faced : state.Faces setting (gap ++ ("when".toList ++ ([' '] ++ (event.toList ++
      ((priorityText priority).toList ++ ' ' :: '\x7b' :: (inner ++ rest)))))) := by
    simpa [Statement.written, Expression.written, text] using faces
  have blockRead : ∀ next : State, next.Stands setting (' ' :: '\x7b' :: (inner ++ rest)) →
      Yields (expectBlock language .eventName) next fun result last =>
        ∃ copy : Block, result = some copy ∧ copy.shape = body.shape ∧
          last.Stands (setting.knowing body.names) rest := by
    intro next stands
    have behind : next.Faces setting ([' '] ++ (['\x7b'] ++ (inner ++ rest))) := stands.toFaces
    obtain ⟨ahead, -, -, opened⟩ := behind.token .space .openBrace
    exact yields_expectBlock ahead (bodyRead admits opened)
  have closes : (setting.knowing body.names).Closes rest := by
    simpa [Setting.after] using ends.closes .empty body.names
  refine (yields_handler legible known gapped (breaks_priorityText priority) faced
    (fun _ stands => yields_handlerPriority stands) blockRead closes).mono ?_
  rintro _ last ⟨_, rfl, ⟨token, outer, inner, copy, rfl, same⟩, stands⟩
  refine ⟨_, rfl, by simp [Statement.shape, Expression.shape, bareWord, same], ?_⟩
  simpa [Setting.after, Statement.exclusives, Expression.exclusives, Statement.names, Block.names,
    Node.declares] using stands

/-! ## Conditions -/

/-- A condition in braces is what is read between them. -/
theorem yields_bracedCondition {before after : List Diagnostic → Prop}
    {accepts : Expression → Prop} {text : List Char} {state : State} {ending : Setting}
    (starts : text.head?.any Lexeme.startsOperand)
    (reads : ∀ inner : State,
      inner.Awaits before ((setting.delimit .openBrace).inside .expression)
        ([] ++ (text ++ '\x7d' :: rest)) →
      Yields (language.expression .lowest) inner.advance fun result last =>
        ∃ tested, result = some tested ∧ accepts tested ∧
          last.Awaits after ((ending.delimit .openBrace).inside .expression) ('\x7d' :: rest))
    (awaits : state.Awaits before setting ([' '] ++ (['\x7b'] ++ ([] ++ (text ++
      '\x7d' :: rest))))) :
    Yields (condition language) state fun result last =>
      ∃ tested, result = some tested ∧ accepts tested ∧ last.Awaits after ending rest := by
  obtain ⟨kind, -, spacing, opened⟩ := awaits.token .space .openBrace
  have here : (state.advance.current.kind == .openBrace) = true := by
    have known : state.advance.current.kind = .openBrace := kind
    simp [known]
  have goesOn : state.endsCommand = false := by
    simp [State.endsCommand, kind, TokenKind.isTerminator, spacing]
  have notClosed : (state.advance.lookahead.kind == .closeBrace) = false := by
    have inner : state.advance.lookahead.kind ∉ Lexeme.closers :=
      (opened.stands.toFaces.startsOperand .none starts).1
    rw [beq_eq_false_iff_ne]
    intro same
    simp [same, Lexeme.closers] at inner
  have ahead : ∀ {place : Setting} (last : State), 0 < place.braces →
      last.Awaits after place ('\x7d' :: rest) → (last.lookahead.kind == .closeBrace) = true ∧
        last.advance.Awaits after (place.delimit .closeBrace) rest := by
    intro place last deep awaits
    have faced : last.Awaits after place ([] ++ (['\x7d'] ++ rest)) := awaits
    obtain ⟨kind, -, -, closed⟩ := faced.token .none (.closeBrace deep)
    exact ⟨by simp [kind], closed⟩
  have testedRead : Yields (within .expression do
      advance
      let tested ← language.expression .lowest
      unless (← isAhead .closeBrace) || (← isAhead .endOfInput) do
        reportAhead .strayInCondition
        language.skipToCloseBrace
      return tested) state.advance fun result last =>
        ∃ tested, result = some tested ∧ accepts tested ∧
          last.Awaits after (ending.delimit .openBrace) ('\x7d' :: rest) := by
    refine .within ?_
    rw [Yields.advance_bind]
    refine (reads _ (opened.enter .expression)).bind ?_
    rintro _ last ⟨tested, rfl, accepted, awaits⟩
    obtain ⟨closing, -⟩ := ahead last (Nat.succ_pos _) awaits
    simp only [Yields.isAhead_bind, closing, Bool.true_or, if_true]
    exact .pure ⟨tested, rfl, accepted, awaits.leave⟩
  simp only [condition, Yields.endsCommand_bind, goesOn, Bool.false_eq_true, if_false,
    Yields.advance_bind, Yields.current_bind, here, if_true, bracedCondition, Yields.isAhead_bind,
    notClosed]
  refine testedRead.bind ?_
  rintro _ last ⟨tested, rfl, accepted, awaits⟩
  obtain ⟨closing, closed⟩ := ahead last (Nat.succ_pos _) awaits
  simp only [Yields.isAhead_bind, closing, if_true, Yields.advance_bind]
  exact .pure ⟨tested, rfl, accepted, closed⟩

/-- Conditions in braces are read back. -/
theorem yields_condition {tested : Expression} {state : State} (stated : Stated names tested)
    (admits : setting.Admits names)
    (stands : state.Stands setting ([' '] ++ (['\x7b'] ++ ([] ++ (tested.written.toList ++
      '\x7d' :: rest))))) :
    Yields (condition language) state fun result last =>
      ∃ copy : Expression, result = some copy ∧ copy.shape = tested.shape ∧
        last.Stands (setting.knowing tested.names) rest := by
  have admitted : ((setting.delimit .openBrace).inside .expression).Admits names :=
    ⟨admits.checked, admits.known, admits.barred, by simp [Setting.inside]⟩
  have reads : ∀ inner : State,
      inner.Awaits (· = []) ((setting.delimit .openBrace).inside .expression)
        ([] ++ (tested.written.toList ++ '\x7d' :: rest)) →
      Yields (language.expression .lowest) inner.advance fun result last =>
        ∃ copy : Expression, result = some copy ∧ copy.shape = tested.shape ∧
          last.Awaits (· = [])
            (((setting.knowing tested.names).delimit .openBrace).inside .expression)
            ('\x7d' :: rest) := by
    intro inner awaits
    refine (stated.yields admitted .none (State.awaits_iff_stands.1 awaits).toFaces
      fun _ => Setting.follows_closeBrace (Nat.succ_pos _)).mono ?_
    rintro _ last ⟨copy, rfl, same, stands⟩
    exact ⟨copy, rfl, same, State.awaits_iff_stands.2 stands⟩
  refine (yields_bracedCondition stated.starts reads (State.awaits_iff_stands.2 stands)).mono ?_
  rintro _ last ⟨copy, rfl, same, awaits⟩
  exact ⟨copy, rfl, same, State.awaits_iff_stands.1 awaits⟩

/-- A condition, its block and what is read behind the block make a statement. -/
theorem Yields.conditional {tests : Expression → State → Prop} {holds : Block → State → Prop}
    {ends : Option Statement → State → Prop} {state : State} (coherent : state.Coherent)
    (testedRead : Yields (condition language) state fun result last =>
      ∃ tested, result = some tested ∧ tests tested last)
    (blockRead : ∀ tested next, tests tested next → next.lookahead.kind ≠ .word ∧
      Yields (expectBlock language .ifCondition) next fun result last =>
        ∃ body, result = some body ∧ holds body last)
    (goesOn : ∀ body next, holds body next → Yields (alternative language) next ends) :
    Yields language.conditional state fun result last =>
      ∃ tested body otherwise, result = some (.conditional state.current tested body otherwise) ∧
        (∃ next, tests tested next) ∧ (∃ next, holds body next) ∧ ends otherwise last := by
  change Yields (language.parse .conditional) _ _
  refine .rule coherent ?_
  change Yields (Parser.conditional language) _ _
  simp only [Parser.conditional, Yields.current_bind]
  refine testedRead.bind ?_
  rintro _ next ⟨tested, rfl, tests⟩
  obtain ⟨notWord, blockRead⟩ := blockRead tested next tests
  simp only [Yields.lookahead_bind, beq_eq_false_iff_ne.2 notWord, Bool.false_and,
    Bool.false_eq_true, if_false]
  refine blockRead.bind ?_
  rintro _ later ⟨body, rfl, holds⟩
  refine (goesOn body later holds).bind ?_
  rintro otherwise last ends
  exact .pure ⟨tested, body, otherwise, rfl, ⟨next, tests⟩, ⟨later, holds⟩, ends⟩

/-- A condition and its block are read back, with what is read behind the block. -/
theorem yields_conditional {tested : Expression} {consequence : Block}
    {otherwise : Option Statement} {token : Token} {state : State} {text : List Char}
    {final : Setting} (stated : Stated names tested)
    (reads : ReadsBlock (names.plus tested.names) consequence) (admits : setting.Admits names)
    (stands : state.Stands setting ([' '] ++ (['\x7b'] ++ ([] ++ (tested.written.toList ++
      '\x7d' :: ([' '] ++ (consequence.written.toList ++ text)))))))
    (goesOn : ∀ next : State,
      next.Stands ((setting.knowing tested.names).knowing consequence.names) text →
      Yields (alternative language) next fun result last =>
        result.map Statement.shape = otherwise.map Statement.shape ∧ last.Stands final rest) :
    Yields language.conditional state fun result last =>
      ∃ copy : Statement, result = some copy ∧
        copy.shape = (Statement.conditional token tested consequence otherwise).shape ∧
        last.Stands final rest := by
  have blockRead : ∀ (copy : Expression) (next : State),
      copy.shape = tested.shape ∧ next.Stands (setting.knowing tested.names)
        ([' '] ++ (consequence.written.toList ++ text)) →
      next.lookahead.kind ≠ .word ∧
        Yields (expectBlock language .ifCondition) next fun result last =>
          ∃ body : Block, result = some body ∧ body.shape = consequence.shape ∧
            last.Stands ((setting.knowing tested.names).knowing consequence.names) text := by
    rintro _ next ⟨-, stands⟩
    obtain ⟨ahead, read⟩ := reads.faced (admits.knowing _) .space stands.toFaces
    exact ⟨by simp [ahead], yields_expectBlock ahead read⟩
  refine (Yields.conditional stands.coherent (yields_condition stated admits stands) blockRead
    fun _ next ⟨_, stands⟩ => goesOn next stands).mono ?_
  rintro _ last ⟨first, body, result, rfl, ⟨_, same, -⟩, ⟨_, bodySame, -⟩, alike, stands⟩
  refine ⟨_, rfl, ?_, stands⟩
  cases result <;> cases otherwise <;> simp_all [Statement.shape]

/-- A condition is read back behind its keyword, which is `if` or `elseif`. -/
def ReadsConditional (names : Names) (statement : Statement) : Prop :=
  ∀ ⦃setting : Setting⦄ ⦃state : State⦄ ⦃text rest : List Char⦄, setting.Admits names →
    statement.written.toList ++ rest = "if".toList ++ ([' '] ++ (['\x7b'] ++ text)) →
    state.Stands setting ([' '] ++ (['\x7b'] ++ text)) → setting.Ends rest →
    Yields language.conditional state fun result last =>
      ∃ copy : Statement, result = some copy ∧ copy.shape = statement.shape ∧
        last.Stands (setting.knowing statement.names) rest

section Alternatives

variable {token : Token} {tested : Expression} {consequence : Block}

theorem readsConditional_none (stated : Stated names tested)
    (reads : ReadsBlock (names.plus tested.names) consequence) :
    ReadsConditional names (.conditional token tested consequence none) := by
  intro setting state text rest admits written stands ends
  obtain rfl : tested.written.toList ++ '\x7d' :: ([' '] ++ (consequence.written.toList ++ rest)) =
      text := by
    simpa [Statement.written] using written
  have declares : (Statement.conditional token tested consequence none).names =
      tested.names ++ consequence.names := by
    simp [Statement.names, Node.declares, Expression.names, Block.names]
  rw [declares]
  refine yields_conditional stated reads admits stands fun next stands => ?_
  rw [Setting.knowing_knowing] at stands
  have final := ends.final .empty (tested.names ++ consequence.names) next
    (by simpa [Setting.after] using stands.toFaces)
  unfold alternative
  simp only [Yields.lookahead_bind]
  split
  · simp_all
  · simp_all
  · exact .pure ⟨rfl, stands⟩

/-- Variables of a condition with an alternative. -/
theorem names_otherwise (otherwise : Statement) :
    (Statement.conditional token tested consequence (some otherwise)).names =
      tested.names ++ consequence.names ++ otherwise.names := by
  simp [Statement.names, Node.declares, Expression.names, Block.names]

theorem readsConditional_else {body : Block} (stated : Stated names tested)
    (reads : ReadsBlock (names.plus tested.names) consequence)
    (otherwise : ReadsBlock ((names.plus tested.names).plus consequence.names) body) :
    ReadsConditional names (.conditional token tested consequence (some (.block body))) := by
  intro setting state text rest admits written stands ends
  obtain rfl : tested.written.toList ++ '\x7d' :: ([' '] ++ (consequence.written.toList ++
      ([' '] ++ ("else".toList ++ ([' '] ++ (body.written.toList ++ rest)))))) = text := by
    simpa [Statement.written] using written
  have declares : (Statement.block body).names = body.names := by
    simp [Statement.names, Node.declares, Block.names]
  rw [names_otherwise, declares, ← Setting.knowing_knowing, ← Setting.knowing_knowing]
  refine yields_conditional stated reads admits stands fun next stands => ?_
  obtain ⟨kind, -, -, named⟩ := stands.toFaces.name .space (by decide) breaks_space
  have here : next.lookahead.kind = .reserved .elseWord := kind.trans (by decide)
  obtain ⟨ahead, read⟩ := otherwise.faced ((admits.knowing _).knowing _) .space named.toFaces
  have notIf : (next.advance.lookahead.kind == .reserved .ifWord) = false := by simp [ahead]
  simp only [alternative, Yields.lookahead_bind, here, Yields.advance_bind, Yields.isAhead_bind,
    notIf, Bool.false_eq_true, if_false]
  refine (yields_expectBlock ahead read).bind ?_
  rintro _ last ⟨copy, rfl, same, stands⟩
  exact .pure ⟨by simp [Statement.shape, same], stands⟩

theorem readsConditional_elseIf {inner : Token} {condition : Expression} {body : Block}
    {last : Option Statement} (stated : Stated names tested)
    (reads : ReadsBlock (names.plus tested.names) consequence)
    (otherwise : ReadsConditional ((names.plus tested.names).plus consequence.names)
      (.conditional inner condition body last)) :
    ReadsConditional names (.conditional token tested consequence
      (some (.conditional inner condition body last))) := by
  intro setting state text rest admits written stands ends
  obtain ⟨later, behind⟩ : ∃ later,
      (Statement.conditional inner condition body last).written.toList ++
      rest = "if".toList ++ ([' '] ++ (['\x7b'] ++ later)) := by
    cases last <;> simp [Statement.written]
  obtain rfl : tested.written.toList ++ '\x7d' :: ([' '] ++ (consequence.written.toList ++
      ([' '] ++ ("elseif".toList ++ ([' '] ++ (['\x7b'] ++ later)))))) = text := by
    rw [Statement.written] at written
    simp only [String.toList_append, List.append_assoc, behind] at written
    simpa using written
  rw [names_otherwise, ← Setting.knowing_knowing, ← Setting.knowing_knowing]
  refine yields_conditional stated reads admits stands fun next stands => ?_
  obtain ⟨kind, -, -, named⟩ := stands.toFaces.name .space (by decide) breaks_space
  have here : next.lookahead.kind = .reserved .elseIf := kind.trans (by decide)
  simp only [alternative, Yields.lookahead_bind, here, Yields.advance_bind]
  have ending : ((setting.knowing tested.names).knowing consequence.names).Ends rest := by
    rw [Setting.knowing_knowing]
    simpa [Setting.after] using ends.after .empty (tested.names ++ consequence.names)
  refine (otherwise ((admits.knowing _).knowing _) behind named ending).mono ?_
  rintro _ final ⟨copy, rfl, same, stands⟩
  exact ⟨by simp [same], stands⟩

/-- Conditions are read back. -/
theorem ReadsConditional.statement {otherwise : Option Statement}
    (reads : ReadsConditional names (.conditional token tested consequence otherwise)) :
    ReadsStatement names (.conditional token tested consequence otherwise) := by
  intro setting state gap rest spacing admits gapped scripted faces ends _
  obtain ⟨text, written⟩ : ∃ text, (Statement.conditional token tested consequence
      otherwise).written.toList ++ rest = "if".toList ++ ([' '] ++ (['\x7b'] ++ text)) := by
    cases otherwise <;> simp [Statement.written]
  rw [written] at faces
  obtain ⟨kind, -, -, stands⟩ := faces.name gapped (by decide) breaks_space
  have here : state.advance.current.kind = .reserved .ifWord := kind.trans (by decide)
  refine .statement stands.coherent (by simp [here]) (ends.closes _ _) ?_
  simp only [statementBody, Yields.current_bind, here]
  refine (reads admits written stands ends).mono ?_
  rintro _ last ⟨copy, rfl, same, stands⟩
  exact ⟨copy, rfl, same, by simpa [Setting.after, Statement.exclusives] using stands⟩

end Alternatives

/-! ## Loops and rules -/

theorem readsStatement_foreach {token : Token} {targets items : Expression} {body : Block}
    (reads : ReadsLoop names targets)
    (argues : Argues ((names.plus targets.names).plus targets.loopNames) items)
    (bodyRead : ReadsBlock (((names.plus targets.names).plus targets.loopNames).plus items.names)
      body) :
    ReadsStatement names (.foreach token targets items body) := by
  intro setting state gap rest spacing admits gapped scripted faces ends _
  have faced : state.Faces setting (gap ++ ("foreach".toList ++ ([' '] ++ (targets.written.toList ++
      ' ' :: (items.written.toList ++ ([' '] ++ (body.written.toList ++ rest))))))) := by
    simpa [Statement.written] using faces
  obtain ⟨kind, -, -, stands⟩ := faced.name gapped (by decide) breaks_space
  have here : state.advance.current.kind = .reserved .foreach := kind.trans (by decide)
  refine .statement stands.coherent (by simp [here]) (ends.closes _ _) ?_
  simp only [statementBody, foreachStatement, Yields.current_bind, here, Yields.endsCommand_bind,
    reads.goesOn stands.toFaces, Bool.false_eq_true, if_false, Yields.advance_bind]
  refine (reads.reads admits (by simp [scripted]) stands.toFaces).bind ?_
  rintro _ next ⟨target, rfl, sameTarget, stands⟩
  have behind : next.Faces ((setting.knowing targets.names).knowing targets.loopNames)
      ([' '] ++ (items.written.toList ++ ([' '] ++ (body.written.toList ++ rest)))) :=
        stands.toFaces
  simp only [Yields.endsCommand_bind, argues.begins.goesOn behind severs_space, Bool.false_eq_true,
    if_false, Yields.advance_bind]
  refine (argues.reads ((admits.knowing _).knowing _) .space behind
    (Setting.stops_space .word)).bind ?_
  rintro _ next ⟨copy, rfl, copies, stands⟩
  refine (bodyRead.expected (((admits.knowing _).knowing _).knowing _) .space
    stands.toFaces).bind ?_
  rintro _ last ⟨block, rfl, same, stands⟩
  refine .pure ⟨_, rfl, by simp [Statement.shape, sameTarget, copies.shape, same], ?_⟩
  simp only [Setting.knowing_knowing] at stands
  simp only [Statement.exclusives, Setting.after, Setting.excluding_empty]
  refine stands.retain fun name inside => ?_
  simp only [Statement.names, Statement.nodes, declaredBy_cons, declaredBy_append, Node.declares,
    Expression.names, Block.names, List.mem_append] at inside ⊢
  tauto

theorem readsStatement_rule {token inner : Token} {name : String} {isReserved : Bool} {body : Block}
    (legible : isRawName name) (reads : ReadsBlock names body) :
    ReadsStatement names (.rule token (.identifier inner name false isReserved) body) := by
  intro setting state gap rest spacing admits gapped scripted faces ends _
  have faced : state.Faces setting (gap ++ ("ltm".toList ++ ([' '] ++ ("rule".toList ++ ([' '] ++
      (name.toList ++ ' ' :: (body.written.toList ++ rest))))))) := by
    simpa [Statement.written, Expression.written] using faces
  obtain ⟨kind, -, -, stands⟩ := faced.name gapped (by decide) breaks_space
  have here : state.advance.current.kind = .reserved .ltm := kind.trans (by decide)
  obtain ⟨rule, -, -, named⟩ := stands.toFaces.name .space (by decide) breaks_space
  have isRule : (state.advance.lookahead.kind == .reserved .rule) = true := by
    have known : state.advance.lookahead.kind = .reserved .rule := rule.trans (by decide)
    simp [known]
  obtain ⟨unended, plain⟩ := named.toFaces.target legible
  have notBrace : (state.advance.advance.lookahead.kind == .openBrace) = false := by
    have ahead : state.advance.advance.advance.current.kind =
        state.advance.advance.lookahead.kind :=
      rfl
    simp only [List.mem_cons, not_or] at plain
    simpa [← ahead] using plain.1
  have isLtm : (TokenKind.reserved .ltm == TokenKind.reserved .ltm) = true := by decide
  refine .statement stands.coherent (by simp [here]) (ends.closes _ _) ?_
  simp only [statementBody, ruleStatement, Yields.current_bind, here, Yields.isAhead_bind, isRule,
    isLtm, Bool.and_self, if_true, Yields.advance_bind, Yields.endsCommand_bind, unended, notBrace,
    Bool.or_self, Bool.false_eq_true, if_false]
  refine (yields_rawWordText legible (by simp [scripted]) .space named.toFaces).bind ?_
  rintro _ next ⟨rfl, passed, -⟩
  refine (reads.expected admits .space passed.toFaces).bind ?_
  rintro _ last ⟨block, rfl, same, stands⟩
  refine .pure ⟨_, rfl, by simp [Statement.shape, Expression.shape, bareWord, same], ?_⟩
  simpa [Setting.after, Statement.exclusives, Statement.names, Node.declares, Block.names]
    using stands

/-! ## Switches -/

/-- Switches are read back. -/
theorem readsStatement_switch {token : Token} {options : SwitchOptions} {value : Expression}
    {cases : List Case} (legible : value.legibleArgument names)
    (plain : startsOption value.written.toList = false) (argues : Argues names value)
    (reads : ReadsCases options (names.plus value.names) cases) :
    ReadsStatement names (.switch token options value cases) := by
  intro setting state gap rest spacing admits gapped scripted faces ends _
  have faced : state.Faces setting
      (gap ++ ("switch".toList ++ ((spacedWords options.words).toList ++
      ([' '] ++ (value.written.toList ++ ([' '] ++ (['\x7b'] ++ ((writtenCases cases).toList ++
        '\n' :: '\x7d' :: rest)))))))) := by
    simpa [Statement.written] using faces
  obtain ⟨kind, -, -, stands⟩ := faced.name gapped (by decide) (breaks_spacedWords breaks_space)
  have here : state.advance.current.kind = .reserved .switch := kind.trans (by decide)
  let armed := ((setting.knowing value.names).delimit .openBrace).inside .expression
  have admitted : armed.Admits (names.plus value.names) :=
    ⟨(admits.knowing _).checked, (admits.knowing _).known, admits.barred,
      by simp [armed, Setting.inside]⟩
  have armsRead (inner : State) (line : Nat)
      (opened : inner.Stands armed ((writtenCases cases).toList ++
      '\n' :: '\x7d' :: rest)) :
      Yields (language.cases options line) inner fun result last =>
        shapeCases result = shapeCases cases ∧ last.Stands
          (((((setting.knowing value.names).knowing (declaredBy (caseNodes cases))).delimit
            .openBrace).inside .expression).delimit .closeBrace) rest :=
    reads.yields admitted (Nat.succ_pos _) opened
  refine .statement stands.coherent (by simp [here]) (ends.closes _ _) ?_
  simp only [statementBody, Yields.current_bind, here]
  refine (yields_switchStatement argues admits
    (fun next faces => faces.noOption legible plain severs_space) armsRead stands).mono ?_
  rintro _ last ⟨subject, arms, rfl, same, alike, stands⟩
  refine ⟨_, rfl, by simp [Statement.shape, same, alike], ?_⟩
  rw [Setting.knowing_knowing] at stands
  simpa [Setting.after, Statement.exclusives, Statement.names, Expression.names, Node.declares]
    using stands

/-! ## All statements -/

/-- A statement that starts with a word of its own. -/
theorem Opens.of_word {statement : Statement} (word : String) (later : List Char)
    (written : statement.written.toList = word.toList ++ ' ' :: later)
    (bare : Lexeme.isBareWord word.toList)
    (other : Lexeme.wordKind word.toList ∉
      [.reserved .elseIf, .reserved .elseWord, .closeBrace, .endOfInput, .semicolon]) :
    Opens statement := by
  intro braces brackets rest _
  refine ⟨_, word.toList, ' ' :: (later ++ rest), by simp [written], .bareWord bare ?_, other⟩
  exact breaks_space

/-- The text of a block starts with its brace. -/
theorem opens_block (body : Block) : Opens (.block body) := by
  obtain ⟨token, statements⟩ := body
  intro braces brackets rest _
  refine ⟨.openBrace, ['\x7b'], bodyText statements rest, ?_, .openBrace, by simp⟩
  rw [Statement.written, written_block]

/-- What stands for a command starts with no word of a condition. -/
theorem opens_expression {token : Token} {value : Expression}
    (legible : value.legibleCommand names ∨ value.legibleExpression names)
    (opens : value.opensStatement) : Opens (.expression token value) := by
  intro braces brackets rest severs
  obtain ⟨kind, first, later, text, spells, other⟩ :=
    opens_of_opensStatement legible opens braces brackets severs
  refine ⟨kind, first, later, by rw [Statement.written, text], spells, ?_⟩
  simp only [structureKinds, List.mem_cons, List.not_mem_nil, or_false, not_or] at other ⊢
  tauto

/-- What a legible statement starts with. -/
theorem opens_of_legible {statement : Statement} (legible : statement.legible names) :
    Opens statement := by
  cases statement with
  | set token name value =>
    exact .of_word "set" (name.written.toList ++ ' ' :: value.written.toList)
      (by simp [Statement.written]) (by decide) (by decide)
  | returning token value =>
    cases value with
    | none =>
      exact fun braces brackets rest severs => ⟨_, "return".toList, rest,
        by simp [Statement.written], .bareWord (by decide) severs.breaks, by decide⟩
    | some value =>
      exact .of_word "return" value.written.toList (by simp [Statement.written]) (by decide)
        (by decide)
  | expression token value =>
    cases value with
    | handler outer event priority body =>
      exact .of_word "when" (event.written.toList ++ ((priorityText priority).toList ++
        ' ' :: body.written.toList)) (by simp [Statement.written, Expression.written]) (by decide)
        (by decide)
    | _ =>
      simp only [Statement.legible, Bool.and_eq_true, Bool.or_eq_true] at legible
      exact opens_expression (legible.1.imp_right And.left) legible.2
  | block body => exact opens_block body
  | conditional token tested consequence otherwise =>
    obtain ⟨later, written⟩ : ∃ later, (Statement.conditional token tested consequence
        otherwise).written.toList = "if".toList ++ ' ' :: later := by
      cases otherwise <;> simp [Statement.written]
    exact .of_word "if" later written (by decide) (by decide)
  | switch token options value cases =>
    intro braces brackets rest _
    exact ⟨_, "switch".toList, (spacedWords options.words).toList ++ ' ' :: (value.written.toList ++
      ' ' :: '\x7b' :: ((writtenCases cases).toList ++ '\n' :: '\x7d' :: rest)),
      by simp [Statement.written], .bareWord (by decide) (breaks_spacedWords breaks_space),
        by decide⟩
  | foreach token targets items body =>
    exact .of_word "foreach" (targets.written.toList ++ ' ' :: (items.written.toList ++
      ' ' :: body.written.toList)) (by simp [Statement.written]) (by decide) (by decide)
  | rule token name body =>
    exact .of_word "ltm" ("rule ".toList ++ (name.written.toList ++ ' ' :: body.written.toList))
      (by simp [Statement.written]) (by decide) (by decide)

/-- Whether the statement is an `if`. -/
def isConditional : Statement → Bool
  | .conditional .. => true
  | _ => false

/-- A statement is read back, and behind `else` as well if it is an `if`. -/
structure Restored (names : Names) (statement : Statement) : Prop where
  reads : ReadsStatement names statement
  conditional : isConditional statement → ReadsConditional names statement

mutual

/-- Legible statements are read back. -/
theorem restored_of_legible (names : Names) : (statement : Statement) →
    statement.legible names → statement.Valid → Restored names statement
  | .set _ left right => by
    intro legible valid
    simp only [Statement.legible, Bool.and_eq_true] at legible
    simp only [Statement.Valid] at valid
    exact ⟨readsStatement_set (readsTarget_of_legible names left legible.1 valid.1)
      ((restores_of_legible _ right legible.2 valid.2).argues legible.2), nofun⟩
  | .returning _ none => fun _ _ => ⟨readsStatement_return, nofun⟩
  | .returning _ (some value) => by
    intro legible valid
    simp only [Statement.legible] at legible
    simp only [Statement.Valid] at valid
    exact ⟨readsStatement_returning
      ((restores_of_legible names value legible valid).argues legible), nofun⟩
  | .expression token value => by
    intro legible valid
    simp only [Statement.Valid] at valid
    cases value with
    | handler outer event priority body =>
      simp only [Expression.Valid] at valid
      have reads := fun legible => readsBlock_of_legible names body legible valid.2.2
      rcases event with ⟨_, event, _ | _, _⟩ | _
      case identifier.false =>
        simp only [Statement.legible, Bool.and_eq_true] at legible
        obtain ⟨name, same, known⟩ := valid.1
        obtain rfl : event = name := by simpa [Expression.wordText?] using same
        exact ⟨readsStatement_handler legible.1 known (reads legible.2), nofun⟩
      all_goals simp [Statement.legible, Expression.legibleCommand,
        Expression.legibleExpression] at legible
    | _ =>
      simp only [Statement.legible, Bool.and_eq_true, Bool.or_eq_true] at legible
      obtain ⟨legible | ⟨legible, leads⟩, opens⟩ := legible
      · exact ⟨readsStatement_expression (.inl legible) opens
          (readsCommand_of_legible names _ legible valid), nofun⟩
      · exact ⟨readsStatement_expression (.inr legible) opens (readsCommand_expression
          (stated_of_legible names _ legible valid) legible leads), nofun⟩
  | .block body => by
    intro legible valid
    simp only [Statement.legible] at legible
    simp only [Statement.Valid] at valid
    exact ⟨readsStatement_block (readsBlock_of_legible names body legible valid), nofun⟩
  | .conditional token tested consequence none => by
    intro legible valid
    simp only [Statement.legible, Bool.and_eq_true] at legible
    simp only [Statement.Valid] at valid
    have reads : ReadsConditional names (.conditional token tested consequence none) :=
      readsConditional_none (stated_of_legible names tested legible.1 valid.1)
        (readsBlock_of_legible _ consequence legible.2 valid.2)
    exact ⟨reads.statement, fun _ => reads⟩
  | .conditional token tested consequence (some (.block body)) => by
    intro legible valid
    simp only [Statement.legible, Bool.and_eq_true] at legible
    simp only [Statement.Valid] at valid
    have reads : ReadsConditional names
        (.conditional token tested consequence (some (.block body))) :=
      readsConditional_else (stated_of_legible names tested legible.1.1 valid.1)
        (readsBlock_of_legible _ consequence legible.1.2 valid.2.1)
        (readsBlock_of_legible _ body legible.2 valid.2.2)
    exact ⟨reads.statement, fun _ => reads⟩
  | .conditional token tested consequence (some (.conditional inner condition body otherwise)) => by
    intro legible valid
    rw [Statement.legible] at legible
    simp only [Bool.and_eq_true] at legible
    rw [Statement.Valid] at valid
    have later := restored_of_legible ((names.plus tested.names).plus consequence.names)
      (.conditional inner condition body otherwise) legible.2 valid.2.2
    have reads : ReadsConditional names (.conditional token tested consequence
        (some (.conditional inner condition body otherwise))) :=
      readsConditional_elseIf (stated_of_legible names tested legible.1.1 valid.1)
        (readsBlock_of_legible _ consequence legible.1.2 valid.2.1) (later.conditional rfl)
    exact ⟨reads.statement, fun _ => reads⟩
  | .foreach _ targets items body => by
    intro legible valid
    simp only [Statement.legible, Bool.and_eq_true] at legible
    simp only [Statement.Valid] at valid
    obtain ⟨⟨loop, word⟩, inner⟩ := legible
    exact ⟨readsStatement_foreach (readsLoop_of_legible loop valid.1)
      ((restores_of_legible _ items word valid.2.1).argues word)
      (readsBlock_of_legible _ body inner valid.2.2), nofun⟩
  | .rule _ name body => by
    intro legible valid
    simp only [Statement.Valid] at valid
    have reads := fun legible => readsBlock_of_legible names body legible valid.2
    rcases name with ⟨_, name, _ | _, _⟩ | _
    case identifier.false =>
      simp only [Statement.legible, Bool.and_eq_true] at legible
      exact ⟨readsStatement_rule legible.1 (reads legible.2), nofun⟩
    all_goals simp [Statement.legible] at legible
  | .switch _ options value cases => by
    intro legible valid
    simp only [Statement.legible, Bool.and_eq_true, Bool.not_eq_true'] at legible
    simp only [Statement.Valid] at valid
    obtain ⟨⟨word, plain⟩, arms⟩ := legible
    exact ⟨readsStatement_switch word plain
      ((restores_of_legible names value word valid.1).argues word)
      (readsCases_of_legible options _ cases arms valid.2), nofun⟩
  | .conditional _ _ _ (some (.set ..)) | .conditional _ _ _ (some (.returning ..))
  | .conditional _ _ _ (some (.expression ..)) | .conditional _ _ _ (some (.switch ..))
  | .conditional _ _ _ (some (.foreach ..)) | .conditional _ _ _ (some (.rule ..)) =>
    fun legible => by simp [Statement.legible] at legible

theorem readsBlock_of_legible (names : Names) : (body : Block) → body.legible names → body.Valid →
    ReadsBlock names body
  | .mk _ statements => by
    intro legible valid
    simp only [Block.legible] at legible
    simp only [Block.Valid] at valid
    exact readsBlock (readsEach_of_legible names statements legible valid.1) valid.2

theorem readsEach_of_legible (names : Names) : (statements : List Statement) →
    legibleStatements names statements → StatementsValid statements → ReadsEach names statements
  | [] => fun _ _ => .nil
  | statement :: rest => by
    intro legible valid
    simp only [legibleStatements, Bool.and_eq_true] at legible
    simp only [StatementsValid] at valid
    exact .cons (restored_of_legible names statement legible.1 valid.1).reads
      (opens_of_legible legible.1)
      (readsEach_of_legible (names.plus statement.names) rest legible.2 valid.2)

theorem readsCases_of_legible (options : SwitchOptions) (names : Names) : (cases : List Case) →
    legibleCases options names cases → CasesValid cases → ReadsCases options names cases
  | [] => fun _ _ => .nil
  | .mk _ pattern body :: rest => by
    intro legible valid
    simp only [legibleCases, Bool.and_eq_true] at legible
    simp only [CasesValid] at valid
    exact .cons legible.1.1 (readsBlock_of_legible names body legible.1.2 valid.1)
      (readsCases_of_legible options (names.plus body.names) rest legible.2 valid.2)

end

end Parser

end IRule
