import IRule.Proofs.Parser.Declaring.Statement
import IRule.Proofs.RoundTrip.Word

/-!
# Problems that are certain

Once a problem is on record it stays there, so a computation that meets one ends with it, whatever
comes next. Text in the brackets of a string that is neither a command nor an expression is met in
this way.
-/

namespace IRule

namespace Parser

open Lexeme (Spells)

variable {setting : Setting} {state : State}

/-- If the computation ends, it ends as is said. -/
def Leaves {α : Type} (action : Parse α) (state : State) (post : State → Prop) : Prop :=
  ∀ result last, action state = some (result, last) → post last

namespace Leaves

variable {α β : Type} {action : Parse α} {post later : State → Prop}

theorem pure {value : α} (holds : post state) : Leaves (Pure.pure value) state post := by
  intro result last runs
  cases runs
  exact holds

theorem mono (leaves : Leaves action state post) (weaker : ∀ last, post last → later last) :
    Leaves action state later :=
  fun result last runs => weaker last (leaves result last runs)

theorem bind {next : α → Parse β} (leaves : Leaves action state post)
    (goesOn : ∀ value middle, post middle → Leaves (next value) middle later) :
    Leaves (action >>= next) state later := by
  intro result last runs
  obtain ⟨value, middle, left, right⟩ := bind_eq_some runs
  exact goesOn value middle (leaves value middle left) result last right

theorem rule {production : Production} (coherent : state.Coherent)
    (leaves : Leaves (rules language production) state post) :
    Leaves (language.parse production) state post := by
  intro result last runs
  exact leaves result last ((language_eq coherent).symm.trans runs)

@[simp]
theorem get_bind {next : State → Parse β} :
    Leaves (get >>= next) state post ↔ Leaves (next state) state post := Iff.rfl

@[simp]
theorem current_bind {next : Token → Parse β} :
    Leaves (current >>= next) state post ↔ Leaves (next state.current) state post := Iff.rfl

@[simp]
theorem advance_bind {next : Unit → Parse β} :
    Leaves (advance >>= next) state post ↔ Leaves (next ()) state.advance post := Iff.rfl

end Leaves

/-- What is yielded is left. -/
theorem Yields.leaves {α : Type} {action : Parse α} {accepts : α → State → Prop}
    {post : State → Prop} (yields : Yields action state accepts)
    (holds : ∀ result last, accepts result last → post last) : Leaves action state post := by
  obtain ⟨result, last, runs, accepted⟩ := yields
  intro other after same
  obtain ⟨rfl, rfl⟩ := Prod.mk.inj (Option.some.inj (same.symm.trans runs))
  exact holds _ _ accepted

/-- If the computation ends, a problem is on record. -/
def Complains {α : Type} (action : Parse α) (state : State) : Prop :=
  Leaves action state (·.diagnostics ≠ [])

namespace Complains

variable {α β : Type} {action : Parse α}

theorem pure {value : α} (recorded : state.diagnostics ≠ []) :
    Complains (Pure.pure value) state :=
  Leaves.pure recorded

/-- Problems stay on record. -/
theorem of_reported {known : α → State → Prop} (grows : Grows action state known)
    (reported : state.diagnostics ≠ []) : Complains action state := by
  intro result last runs
  obtain ⟨⟨-, fresh, found, -⟩, -⟩ := grows result last runs
  simp [found, reported]

/-- What comes behind a problem does not matter. -/
theorem bind {next : α → Parse β} (complains : Complains action state)
    (goesOn : ∀ value middle, Grows (next value) middle fun _ _ => True) :
    Complains (action >>= next) state :=
  Leaves.bind complains fun value middle reported => of_reported (goesOn value middle) reported

/-- A problem that follows. -/
theorem bind_apply {next : α → Parse β} {value : α} {middle : State}
    (runs : action state = some (value, middle)) (complains : Complains (next value) middle) :
    Complains (action >>= next) state := by
  intro result last run
  rw [Parser.bind_apply runs] at run
  exact complains result last run

theorem rule {production : Production} (coherent : state.Coherent)
    (complains : Complains (rules language production) state) :
    Complains (language.parse production) state :=
  Leaves.rule coherent complains

theorem within {nesting : Nesting} (inner : Complains action (state.enter nesting)) :
    Complains (within nesting action) state := by
  refine bind_apply rfl (inner.bind fun value middle => ?_)
  exact .run rfl (.of_quiet (List.Subset.refl _) rfl) trivial

@[simp]
theorem get_bind {next : State → Parse β} :
    Complains (get >>= next) state ↔ Complains (next state) state := Iff.rfl

@[simp]
theorem current_bind {next : Token → Parse β} :
    Complains (current >>= next) state ↔ Complains (next state.current) state := Iff.rfl

@[simp]
theorem lookahead_bind {next : Token → Parse β} :
    Complains (lookahead >>= next) state ↔ Complains (next state.lookahead) state := Iff.rfl

@[simp]
theorem endsCommand_bind {next : Bool → Parse β} :
    Complains (endsCommand >>= next) state ↔ Complains (next state.endsCommand) state := Iff.rfl

@[simp]
theorem advance_bind {next : Unit → Parse β} :
    Complains (advance >>= next) state ↔ Complains (next ()) state.advance := Iff.rfl

end Complains

/-- Every production comes to an end. -/
theorem exists_parse (production : Production) (coherent : state.Coherent) :
    ∃ result last, language.parse production state = some (result, last) := by
  obtain ⟨result, last, runs, -⟩ :=
    unfold_reads coherent (Nat.lt_succ_self _) (Nat.lt_succ_self (state.depth production))
  exact ⟨result, last, runs⟩

theorem language_declares : language.Declares :=
  fun production state => unfold_declares (state.depth production + 1) production state

/-- A word with a problem in its first piece. -/
theorem Complains.word {glue : Glue} (coherent : state.Coherent)
    (complains : Complains (piece language) state) : Complains (language.word glue) state := by
  change Complains (language.parse (.word glue)) _
  refine .rule coherent ?_
  change Complains (Parser.word language glue) _
  unfold Parser.word
  simp only [current_bind]
  refine complains.bind fun first middle => ?_
  cases first with
  | none => exact .pure trivial
  | some first =>
    simp only [Grows.get_bind]
    refine .ite (fun _ => ?_) fun _ => .pure trivial
    refine (language_declares (.pieces glue) _).bind fun later last _ _ => ?_
    simp only [Grows.get_bind]
    exact .ite (fun _ => .pure trivial) fun _ => .pure trivial

/-! ## Text that is no script -/

/-- A parenthesis is glued to a token only where it stands right behind it. -/
theorem State.Faces.parenGlued_eq_false {text : List Char} (faces : state.Faces setting text)
    (apart : text.head? ≠ some '(') : state.parenGlued = false := by
  by_contra glued
  simp only [State.parenGlued, Bool.not_eq_false, Bool.and_eq_true, beq_iff_eq] at glued
  obtain ⟨paren, adjacent⟩ := glued
  obtain ⟨kind, -, spacing, -⟩ := faces.next rfl rfl
  rw [spacing] at adjacent
  rw [Lexeme.Trivia.scan_adjacent adjacent, paren] at kind
  cases text with
  | nil => simp [Lexeme.scan] at kind
  | cons char later => simp [Lexeme.scan_openParen kind.symm] at apart

section Idle

variable {text gap : List Char} {spacing : Spacing}

/-- What is ahead of a text that starts with an idle word. -/
theorem State.Faces.idle (idle : startsIdle setting.barred text) (gapped : Gap gap spacing)
    (faces : state.Faces setting (gap ++ text)) :
    state.advance.current.kind = .word ∧ state.advance.current.isPlus = false ∧
      commandFamily? state.advance.current = none ∧ state.advance.parenGlued = false ∧
      Naming.isStandaloneWord state.advance.declared state.advance.current.literal = false := by
  simp only [startsIdle, isIdleWord, Bool.and_eq_true, Bool.or_eq_true, Bool.not_eq_true',
    List.contains_iff_mem, beq_iff_eq, bne_iff_ne] at idle
  obtain ⟨⟨⟨start, ⟨kind, alone⟩, family⟩, barred⟩, apart⟩ := idle
  have whole : text.take (Lexeme.wordLength text) ++ text.drop (Lexeme.wordLength text) = text :=
    List.take_append_drop ..
  have length : (text.take (Lexeme.wordLength text)).length = Lexeme.wordLength text := by
    simpa using Lexeme.wordLength_le_length text
  have first : (headWord text).toList.head?.any Lexeme.isNameStart := by
    cases text with
    | nil => simp at start
    | cons char later =>
      have start : Lexeme.isNameStart char := by simpa using start
      have word : Lexeme.isWordChar char := Lexeme.isWordChar_of_isNameStart start
      have notColon : char ≠ ':' := by
        rintro rfl
        simp [Lexeme.isNameStart] at start
      rw [headWord, Lexeme.wordLength.eq_2 _ _ fun _ _ same => absurd same notColon]
      simp [word, start]
  have spells : Spells setting.braces setting.brackets (headWord text).toList
      (text.drop (Lexeme.wordLength text)) .word := by
    rw [← kind]
    exact .name first (by rw [headWord, String.toList_ofList, whole, length])
  have faced : state.Faces setting
      (gap ++ ((headWord text).toList ++ text.drop (Lexeme.wordLength text))) := by
    rwa [headWord, String.toList_ofList, whole]
  obtain ⟨here, literal, -, stands⟩ := faced.token gapped spells
  rw [Lexeme.literalOf_eq _ (by simp), String.ofList_toList] at literal
  have here : state.advance.current.kind = .word := here
  have spelled : state.advance.current.literal = headWord text := literal
  have notPlus : headWord text ≠ "+" := by
    intro plus
    rw [plus] at first
    exact absurd first (by decide)
  refine ⟨here, by simp [Token.isPlus, spelled, notPlus], ?_,
    stands.toFaces.parenGlued_eq_false apart, ?_⟩
  · rcases family with none | ip
    · simp [commandFamily?, here, spelled, none]
    · simp [commandFamily?, here, spelled, ip]
  · have undeclared : headWord text ∉ state.advance.declared := faces.knows.barred _ barred
    rw [spelled]
    simpa [Naming.isStandaloneWord, undeclared] using alone

/-- A word that is barred is reported. -/
theorem complains_standaloneWord (token : Token)
    (unknown : Naming.isStandaloneWord state.declared token.literal = false) :
    Complains (standaloneWord token) state := by
  simp only [standaloneWord, Complains.get_bind, unknown, Bool.false_eq_true, if_false]
  exact .bind_apply rfl (.pure (by simp [State.record]))

/-- An expression with a problem in its first operand. -/
theorem Complains.expression {precedence : Precedence} (coherent : state.Coherent)
    (complains : Complains (operand language) state) :
    Complains (language.expression precedence) state := by
  change Complains (language.parse (.expression precedence)) _
  refine .rule coherent ?_
  change Complains (Parser.expression language precedence) _
  unfold Parser.expression
  refine complains.bind fun left middle => ?_
  cases left with
  | none => exact .pure trivial
  | some left => exact (language_declares (.operatorChain left precedence) middle).trivial

/-- What is no command has the problem of its first operand. -/
theorem Complains.commandOrExpression (coherent : state.Coherent)
    (asCommand : startsCommand state.current → Complains (command language) state)
    (asOperand : Complains (operand language) state) :
    Complains language.commandOrExpression state := by
  change Complains (language.parse .commandOrExpression) _
  refine .rule coherent ?_
  change Complains (Parser.commandOrExpression language) _
  unfold Parser.commandOrExpression
  simp only [get_bind]
  split
  · rename_i starts
    simp only [Bool.and_eq_true] at starts
    exact asCommand starts.1
  · refine (Complains.expression coherent asOperand).bind fun name middle => ?_
    cases name with
    | none => exact .pure trivial
    | some name =>
      simp only [Grows.endsCommand_bind]
      refine .ite (fun _ => .pure trivial) fun _ => ?_
      exact (language_declares .arguments middle).bind fun _ _ _ _ => .pure trivial

/-- A word that is barred is reported, whether it stands for a command or for an operand. -/
theorem complains_idleWord (idle : startsIdle setting.barred text) (gapped : Gap gap spacing)
    (faces : state.Faces setting (gap ++ text)) :
    Complains language.commandOrExpression state.advance := by
  obtain ⟨kind, notPlus, family, apart, unknown⟩ := faces.idle idle gapped
  have reports := complains_standaloneWord _ unknown
  refine .commandOrExpression faces.ahead.advance (fun _ => ?_) ?_
  · have plain : Complains (plainCommand language) state.advance := by
      simp only [plainCommand, Complains.current_bind]
      refine reports.bind fun name middle => ?_
      refine (language_declares .arguments middle).bind fun given last _ _ => ?_
      exact .run_bind rfl (.of_quiet (fun _ inside => Naming.mem_addAll _ inside) rfl)
        (.pure trivial)
    simp only [command, Complains.current_bind, family, kind]
    exact plain.bind fun _ _ => .pure trivial
  · simp only [operand, Complains.current_bind, kind, notPlus]
    have word : Complains (operandWord state.advance.current) state.advance := by
      simp only [operandWord, Complains.get_bind, apart, Bool.false_eq_true, if_false]
      exact reports
    exact word.bind fun _ _ => .pure trivial

/-- What is ahead of a text that starts with a token that is out of place. -/
theorem State.Faces.stray (stray : startsStray text) (gapped : Gap gap spacing)
    (faces : state.Faces setting (gap ++ text)) : isStrayKind state.lookahead.kind := by
  simp only [startsStray, Bool.and_eq_true] at stray
  obtain ⟨starts, stray⟩ := stray
  have tight : Lexeme.Trivia.scan false ([] ++ text) = .empty := by
    cases text with
    | nil => rfl
    | cons char text =>
      have alone : Lexeme.Trivia.scan false (char :: (text ++ [])) = .empty :=
        Lexeme.trivia_of_startsToken starts
      simpa using alone
  obtain ⟨kind, -, -, -⟩ := faces.next (gapped.scan tight) rfl
  rw [Lexeme.Trivia.ofGap_length, List.drop_left, Lexeme.scan_of_startsToken starts] at kind
  rwa [kind]

/-- A token that is out of place is no operand. -/
theorem complains_stray (stray : startsStray text) (gapped : Gap gap spacing)
    (faces : state.Faces setting (gap ++ text)) :
    Complains language.commandOrExpression state.advance := by
  have stray : isStrayKind state.advance.current.kind := faces.stray stray gapped
  have reports (problem : Problem) : Complains (do
      reportHere problem
      return (none : Option Expression)) state.advance :=
    .bind_apply rfl (.pure (by simp [State.record]))
  have illegal : Complains (do
      reportIllegal
      return (none : Option Expression)) state.advance :=
    .bind_apply rfl (.pure (by simp [State.record]))
  refine .commandOrExpression faces.ahead.advance (fun starts => ?_) ?_
  · cases kind : state.advance.current.kind <;>
      simp [startsCommand, isStrayKind, kind] at starts stray
  · simp only [operand, Complains.current_bind]
    cases kind : state.advance.current.kind <;>
      simp only [kind, isStrayKind, Bool.false_eq_true] at stray
    all_goals first
      | exact illegal
      | simpa using reports _

/-- Commands of a bracket are read behind the first one that has a problem. -/
theorem Complains.bracketCommands {line : Nat} (coherent : state.Coherent)
    (inner : state.lookahead.kind ∉ Lexeme.closers)
    (complains : Complains language.commandOrExpression state.advance) :
    Complains (language.bracketCommands line) state := by
  change Complains (language.parse (.bracketCommands line)) _
  refine .rule coherent ?_
  change Complains (Parser.bracketCommands language line) _
  simp only [Lexeme.closers, List.mem_cons, List.not_mem_nil, or_false, not_or] at inner
  simp only [Parser.bracketCommands, lookahead_bind]
  split
  case h_1 closed => exact absurd closed inner.2.1
  case h_2 ended => exact absurd ended inner.2.2.2.2.2
  case h_3 closed => exact absurd closed inner.1
  case h_4 separated => exact absurd separated inner.2.2.2.1
  case h_5 =>
    refine .advance_bind.2 (complains.bind fun command middle => ?_)
    refine (finishCommand_grows language_declares).bind fun _ last _ _ => ?_
    exact (language_declares (.bracketCommands line) last).bind fun _ _ _ _ => .pure trivial

/-- Commands of a string are read behind the first one that has a problem. -/
theorem Complains.substitutionCommands (coherent : state.Coherent)
    (inner : state.current.kind ∉ Lexeme.closers)
    (complains : Complains language.commandOrExpression state) :
    Complains language.substitutionCommands state := by
  change Complains (language.parse .substitutionCommands) _
  refine .rule coherent ?_
  change Complains (Parser.substitutionCommands language) _
  simp only [Lexeme.closers, List.mem_cons, List.not_mem_nil, or_false, not_or] at inner
  simp only [Parser.substitutionCommands, current_bind]
  split
  case h_1 ended => exact absurd ended inner.2.2.2.2.2
  case h_2 separated => exact absurd separated inner.2.2.2.1
  case h_3 =>
    refine complains.bind fun command middle => ?_
    refine (finishCommand_grows language_declares).bind fun _ last _ _ => .advance_bind ?_
    exact (language_declares .substitutionCommands _).bind fun _ _ _ _ => .pure trivial

/-- What is idle ends nothing. -/
theorem State.Faces.goesOn_of_idle (faces : state.Faces setting (gap ++ text))
    (idle : isIdle setting.barred text) (gapped : Gap gap spacing) :
    state.lookahead.kind ∉ Lexeme.closers := by
  cases text with
  | nil => simp [isIdle, scriptHead, startsStray, Lexeme.startsToken, startsIdle] at idle
  | cons char rest =>
    have operand (starts : Lexeme.startsOperand char) : state.lookahead.kind ∉ Lexeme.closers := by
      have faced : state.Faces setting (gap ++ ([char] ++ rest)) := faces
      exact (faced.startsOperand gapped (by simpa using starts)).1
    by_cases bracket : char = '['
    · subst bracket
      exact operand (by decide)
    · have apart : scriptHead (char :: rest) = char :: rest := by simp [scriptHead, bracket]
      simp only [isIdle, apart, Bool.or_eq_true] at idle
      obtain stray | word := idle
      · have stray := faces.stray stray gapped
        intro closer
        cases kind : state.lookahead.kind <;>
          simp [kind, isStrayKind, Lexeme.closers] at stray closer
      · simp only [startsIdle, Bool.and_eq_true, List.head?_cons, Option.any_some] at word
        exact operand (by simp [Lexeme.startsOperand, Lexeme.startsPiece, word.1.1.1])

/-- A bracket has the problem of the first command in it. -/
theorem Complains.openBracket {script : List Char} (opening : state.current.kind = .openBracket)
    (stands : state.Stands (setting.delimit .openBracket) script)
    (idle : isIdle setting.barred script)
    (reads : ∀ inner : State, inner.Faces ((setting.delimit .openBracket).inside .bracket) script →
      Complains language.commandOrExpression inner.advance) :
    Complains (piece language) state := by
  have opened : (state.enter .bracket).Faces ((setting.delimit .openBracket).inside .bracket)
      ([] ++ script) := (stands.enter .bracket).toFaces
  have bare : isIdle ((setting.delimit .openBracket).inside .bracket).barred script := idle
  have commands : Complains (language.bracketCommands state.current.line) (state.enter .bracket) :=
    .bracketCommands (stands.enter .bracket).coherent (opened.goesOn_of_idle bare .none)
      (reads _ opened)
  have bracket : Complains (bracketed language) state := by
    simp only [bracketed, Complains.current_bind]
    exact (Complains.within commands).bind fun _ _ => .pure trivial
  simp only [piece, Complains.current_bind, opening]
  exact bracket.bind fun _ _ => .pure trivial

/-- An illegal token is reported. -/
theorem complains_illegal (illegal : state.current.kind = .illegal) :
    Complains (piece language) state := by
  simp only [piece, Complains.current_bind, illegal]
  exact .bind_apply rfl (.pure (by simp [State.record]))

/-- What is idle is reported, in however many brackets it stands. -/
theorem complains_idle (idle : isIdle setting.barred text) (gapped : Gap gap spacing)
    (faces : state.Faces setting (gap ++ text)) :
    Complains language.commandOrExpression state.advance := by
  induction text generalizing setting state gap spacing with
  | nil => simp [isIdle, scriptHead, startsStray, Lexeme.startsToken, startsIdle] at idle
  | cons char rest ih =>
    by_cases bracket : char = '['
    · subst bracket
      have bare : isIdle setting.barred rest := by
        simpa [isIdle, scriptHead] using idle
      have within : isIdle ((setting.delimit .openBracket).inside .bracket).barred rest := bare
      have faced : state.Faces setting (gap ++ (['['] ++ rest)) := faces
      obtain ⟨kind, -, -, stands⟩ := faced.token gapped .openBracket
      have here : state.advance.current.kind = .openBracket := kind
      refine .commandOrExpression faces.ahead.advance (fun starts => ?_) ?_
      · simp [startsCommand, here] at starts
      · simp only [operand, Complains.current_bind, here]
        exact .word faces.ahead.advance
          (.openBracket here stands bare fun inner opened => ih within .none opened)
    · have apart : scriptHead (char :: rest) = char :: rest := by
        simp [scriptHead, bracket]
      simp only [isIdle, apart, Bool.or_eq_true] at idle
      rcases idle with stray | word
      · exact complains_stray stray gapped faces
      · exact complains_idleWord word gapped faces

end Idle

end Parser

end IRule
