import IRule.Proofs.Parser.Language
import IRule.Proofs.Parser.Standing
import IRule.Proofs.Script.Legible

/-!
# Words read back

Every legible word, written and read again, gives a copy of itself. What a word
embeds is read back by hypothesis here: the induction over scripts comes last.
-/

namespace IRule

namespace Lexeme

/-- Only the word itself has the kind of a reserved word. -/
theorem text_eq_of_wordKind {word : List Char} {known : ReservedWord}
    (kind : wordKind word = .reserved known) : String.ofList word = known.text := by
  have found : TokenKind.ofText? (String.ofList word) = some (.reserved known) := by
    unfold wordKind at kind
    cases text : TokenKind.ofText? (String.ofList word) <;> simp_all
  unfold TokenKind.ofText? TokenKind.ofPlainWord? at found
  repeat' split at found
  all_goals simp_all
  rename_i entry
  have spelled : known.text = String.ofList word := by simpa using List.find?_some entry
  exact spelled.symm

theorem literalOf_eq {kind : TokenKind} (word : List Char) (notString : kind ≠ .string) :
    literalOf kind word = String.ofList word := by
  simp [literalOf, notString]

theorem wordKind_isWord (word : List Char) : (wordKind word).isWord := by
  unfold wordKind
  cases found : TokenKind.ofText? (String.ofList word) with
  | none => rfl
  | some kind => exact TokenKind.ofText?_isWord found

end Lexeme

namespace Parser

open Lexeme (Spells Breaks Severs)

/-- The setting has the names a text refers to. -/
structure Setting.Admits (setting : Setting) (names : Names) : Prop where
  checked : setting.checked → names.checked
  known : ∀ name ∈ names.known, name ∈ setting.known
  barred : setting.barred = names.barred
  placed : setting.nesting.head? = some .index → names.keyed

namespace Setting.Admits

variable {setting : Setting} {names : Names} (admits : setting.Admits names)
include admits

theorem inside {nesting : Nesting} (outer : nesting ≠ .index) :
    (setting.inside nesting).Admits names :=
  ⟨admits.checked, admits.known, admits.barred, by simp [Setting.inside, outer]⟩

theorem key : (setting.inside .index).Admits names.inKey :=
  ⟨admits.checked, admits.known, admits.barred, fun _ => rfl⟩

/-- Delimiters and exclusions around a text do not matter to its names. -/
theorem congr {changed : Setting} (nesting : changed.nesting = setting.nesting)
    (checked : changed.checked = setting.checked) (known : changed.known = setting.known)
    (barred : changed.barred = setting.barred) : changed.Admits names :=
  ⟨by rw [checked]; exact admits.checked, by rw [known]; exact admits.known,
    by rw [barred]; exact admits.barred, by rw [nesting]; exact admits.placed⟩

theorem knowing (more : List String) : (setting.knowing more).Admits (names.plus more) := by
  refine ⟨admits.checked, fun name inside => ?_, admits.barred, admits.placed⟩
  simp only [Names.plus, Setting.knowing, List.mem_append] at inside ⊢
  exact inside.imp_left (admits.known name)

/-- The names around a snippet are those in it, where no reference is reported. -/
theorem snippet {nesting : Nesting} (outer : nesting ≠ .index) :
    (setting.snippet nesting).Admits names.unchecked :=
  ⟨nofun, admits.known, admits.barred, by simp [Setting.snippet, outer]⟩

/-- Variables that a text may declare are not barred. -/
theorem spares {declared : List String} (spared : names.spares declared) :
    setting.Spares declared := by
  intro name inside barred
  rw [admits.barred] at barred
  simpa [barred] using List.all_eq_true.1 spared name inside

end Setting.Admits

/-- The computation reads a copy of the word and stops in front of `rest`, where the variables
that the word declares are known. -/
def Copied (word : Expression) (setting : Setting) (rest : List Char) (result : Option Expression)
    (last : State) : Prop :=
  ∃ copy, result = some copy ∧ copy.Copies word ∧ last.Stands (setting.knowing word.names) rest

/-- A word without embedded commands declares nothing. -/
theorem copied_of_names {word copy : Expression} {setting : Setting} {rest : List Char}
    {last : State} (plain : word.names = []) (copies : copy.Copies word)
    (stands : last.Stands setting rest) : Copied word setting rest (some copy) last :=
  ⟨copy, rfl, copies, by rwa [plain, Setting.knowing_nil]⟩

/-- A word is read back as one piece, wherever its names are known and nothing is
glued to it. -/
def ReadsBack (names : Names) (word : Expression) : Prop :=
  ∀ ⦃setting : Setting⦄ ⦃state : State⦄ ⦃gap rest : List Char⦄ ⦃spacing : Spacing⦄,
    setting.Admits names → Gap gap spacing →
    state.Faces setting (gap ++ (word.written.toList ++ rest)) → Breaks rest →
    (∀ later : State, later.Faces setting rest → later.parenGlued = false) →
    Yields (piece language) state.advance (Copied word setting rest)

/-! ## Single tokens -/

/-- A word of any kind is a piece on its own. -/
theorem Yields.piece_of_isWord {grammar : Grammar} {state : State}
    {post : Option Expression → State → Prop} (word : state.current.kind.isWord)
    (holds : post (some (simplePiece state.current)) state) :
    Yields (piece grammar) state post := by
  unfold piece
  simp only [Yields.current_bind]
  split
  all_goals first
    | exact .pure holds
    | simp_all [TokenKind.isWord]

theorem simplePiece_of_isWord {token : Token} (word : token.kind.isWord)
    (notTrue : token.kind ≠ .reserved .trueWord) (notFalse : token.kind ≠ .reserved .falseWord) :
    simplePiece token = .identifier token token.literal false token.kind.isReserved := by
  unfold simplePiece
  split <;> simp_all [TokenKind.isWord]

variable {names : Names}

theorem readsBack_bare {token : Token} {name : String} {isReserved : Bool}
    (legible : isLegibleWord name) :
    ReadsBack names (.identifier token name false isReserved) := by
  intro setting state gap rest spacing _ gapped faces breaks _
  simp only [isLegibleWord, Bool.and_eq_true, bne_iff_ne] at legible
  obtain ⟨⟨bare, notTrue⟩, notFalse⟩ := legible
  simp only [Expression.written, Bool.false_eq_true, if_false] at faces
  obtain ⟨kind, literal, -, stands⟩ := faces.token gapped (.bareWord bare breaks)
  have word := Lexeme.wordKind_isWord name.toList
  rw [setting.delimit_of_isWord word] at stands
  have isWord : state.advance.current.kind.isWord := by
    rw [← kind] at word
    exact word
  have notString : Lexeme.wordKind name.toList ≠ .string := by
    intro same
    simp [same, TokenKind.isWord] at word
  rw [Lexeme.literalOf_eq _ notString, String.ofList_toList] at literal
  refine .piece_of_isWord isWord (copied_of_names rfl ?_ stands)
  rw [simplePiece_of_isWord isWord]
  · have same : state.advance.current.literal = name := literal
    exact ⟨by simp [Expression.shape, same], by simp [Expression.wordText?, same,
      Expression.spelledText?]⟩
  · intro same
    refine notTrue ?_
    have text := Lexeme.text_eq_of_wordKind (kind.symm.trans same)
    simpa [ReservedWord.text] using text
  · intro same
    refine notFalse ?_
    have text := Lexeme.text_eq_of_wordKind (kind.symm.trans same)
    simpa [ReservedWord.text] using text

/-- A number that fits is a piece on its own, in any spelling. -/
theorem yields_number {setting : Setting} {state : State} {gap digits rest : List Char}
    {spacing : Spacing} {value : Int64} (gapped : Gap gap spacing)
    (spells : Spells setting.braces setting.brackets digits rest .number)
    (reads : Text.int64? digits = some value)
    (faces : state.Faces setting (gap ++ (digits ++ rest))) :
    Yields (piece language) state.advance fun result last =>
      result = some (.number state.advance.current value) ∧ last = state.advance ∧
        state.advance.current.literal = String.ofList digits ∧ last.Stands setting rest := by
  obtain ⟨kind, literal, -, stands⟩ := faces.token gapped spells
  rw [Lexeme.literalOf_eq _ (by simp)] at literal
  have here : state.advance.current.kind = .number := kind
  have text : state.advance.current.literal = String.ofList digits := literal
  have counted : Yields numberLiteral state.advance fun number last =>
      number = .number state.advance.current value ∧ last = state.advance := by
    simp only [numberLiteral, Yields.current_bind, text, String.toList_ofList, reads]
    exact .pure ⟨rfl, rfl⟩
  simp only [piece, Yields.current_bind, here]
  refine counted.bind ?_
  rintro _ _ ⟨rfl, rfl⟩
  exact .pure ⟨rfl, rfl, text, stands⟩

theorem readsBack_number {token : Token} (value : Int64) :
    ReadsBack names (.number token value) := by
  intro setting state gap rest spacing _ gapped faces breaks _
  simp only [Expression.written] at faces
  refine (yields_number gapped (.number value breaks) (Text.int64?_int64Text value) faces).mono ?_
  rintro _ _ ⟨rfl, rfl, text, stands⟩
  rw [String.ofList_toList] at text
  exact copied_of_names rfl ⟨rfl, by simp [Expression.wordText?, Expression.spelledText?, text]⟩
    stands

theorem readsBack_boolean {token : Token} (value : Bool) :
    ReadsBack names (.boolean token value) := by
  intro setting state gap rest spacing _ gapped faces breaks _
  have bare : Lexeme.isBareWord (if value then "true" else "false").toList := by
    cases value <;> decide
  simp only [Expression.written] at faces
  obtain ⟨kind, literal, -, stands⟩ := faces.token gapped (.bareWord bare breaks)
  have spelled : Lexeme.wordKind (if value then "true" else "false").toList =
      .reserved (if value then .trueWord else .falseWord) := by
    cases value <;> decide
  rw [spelled] at kind literal stands
  rw [Lexeme.literalOf_eq _ (by simp), String.ofList_toList] at literal
  have here : state.advance.current.kind = .reserved (if value then .trueWord else .falseWord) :=
    kind
  have text : state.advance.current.literal = if value then "true" else "false" := literal
  refine .piece_of_isWord (by simp [here, TokenKind.isWord]) (copied_of_names rfl ?_ stands)
  have same : simplePiece state.advance.current = .boolean state.advance.current value := by
    unfold simplePiece
    rw [here]
    cases value <;> rfl
  rw [same]
  exact ⟨rfl, by simp [Expression.wordText?, Expression.spelledText?, text]⟩

/-! ## References -/

/-- A written reference is one token. -/
theorem spells_referenceText {braces brackets : Nat} {name : String} {rest : List Char}
    (legible : isLegibleName name) (breaks : Breaks rest) :
    Spells braces brackets (referenceText name).toList rest .reference := by
  unfold isLegibleName at legible
  unfold referenceText
  split at legible
  · rename_i plain
    rw [if_pos plain]
    simp only [beq_iff_eq] at legible
    have nonempty : name.toList ≠ [] := by
      intro empty
      simp_all [isPlainName]
    simpa using Spells.reference legible nonempty breaks
  · rename_i braced
    rw [if_neg braced]
    simp only [Bool.and_eq_true, Bool.not_eq_true', List.isEmpty_eq_false_iff, List.all_eq_true,
      bne_iff_ne] at legible
    simpa [bracedReference] using Spells.bracedReference legible.1 legible.2

/-- The name of a written reference. -/
theorem referenceName_referenceText (name : String) :
    referenceName (referenceText name) = name := by
  unfold referenceText
  split
  · rename_i plain
    have text : "$" ++ name = String.ofList ('$' :: name.toList) := by simp
    rw [text, referenceName_unbraced, String.ofList_toList]
    intro brace
    obtain ⟨rest, braced⟩ := List.head?_eq_some_iff.1 brace
    simp [isPlainName, braced] at plain
  · simp [referenceName, bracedReference]

/-- A reference that is allowed is not reported. -/
theorem yields_checkDeclared {state : State} {setting : Setting} {rest : List Char} {name : String}
    {line : Nat} (faces : state.Faces setting rest) (admits : setting.Admits names)
    (allowed : names.allow name) :
    Yields (checkDeclared name line) state fun _ last => last = state := by
  have silent : (state.checkVariables && (splitNamespace? name.toList).isNone &&
      !state.declared.contains name) = false := by
    by_contra reported
    simp only [Bool.not_eq_false, Bool.and_eq_true, Bool.not_eq_true', faces.checked] at reported
    obtain ⟨⟨checked, plain⟩, undeclared⟩ := reported
    simp only [Names.allow, admits.checked checked, Bool.not_true, Bool.false_or, Bool.or_eq_true]
      at allowed
    rcases allowed with namespaced | known
    · simp_all
    · have inside := faces.knows.known name (admits.known name (by simpa using known))
      simp_all
  simp only [checkDeclared, Yields.get_bind, silent]
  exact .pure rfl

/-- A reference that is allowed, in any spelling of its name. -/
theorem yields_reference {setting : Setting} {state : State} {gap rest : List Char}
    {spacing : Spacing} {token : Token} {text name : String} {isReserved : Bool}
    (admits : setting.Admits names) (allowed : names.allow name) (gapped : Gap gap spacing)
    (spells : Spells setting.braces setting.brackets text.toList rest .reference)
    (named : referenceName text = name)
    (faces : state.Faces setting (gap ++ (text.toList ++ rest)))
    (noParen : ∀ later : State, later.Faces setting rest → later.parenGlued = false) :
    Yields (piece language) state.advance
      (Copied (.identifier token name true isReserved) setting rest) := by
  obtain ⟨kind, literal, -, stands⟩ := faces.token gapped spells
  rw [Lexeme.literalOf_eq _ (by simp), String.ofList_toList] at literal
  have here : state.advance.current.kind = .reference := kind
  have spelled : state.advance.current.literal = text := literal
  have apart := noParen _ stands.toFaces
  simp only [piece, variableReference, Yields.current_bind, here, spelled, named]
  refine (yields_checkDeclared stands.toFaces admits allowed).bind ?_
  rintro _ _ rfl
  simp only [Yields.get_bind, apart]
  exact .pure (copied_of_names rfl ⟨rfl, rfl⟩ stands)

theorem readsBack_reference {token : Token} {name : String} {isReserved : Bool}
    (legible : isLegibleName name) (allowed : names.allow name) :
    ReadsBack names (.identifier token name true isReserved) := by
  intro setting state gap rest spacing admits gapped faces breaks noParen
  simp only [Expression.written, if_true] at faces
  exact yields_reference admits allowed gapped (spells_referenceText legible breaks)
    (referenceName_referenceText name) faces noParen

/-! ## Words of one piece -/

/-- A piece that nothing glues to is a word. -/
theorem Yields.word {glue : Glue} {setting : Setting} {state : State} {rest : List Char}
    {accepts : Expression → State → Prop} (coherent : state.Coherent)
    (stops : setting.Stops glue rest)
    (read : Yields (piece language) state fun result last =>
      ∃ copy, result = some copy ∧ accepts copy last ∧ last.Stands setting rest) :
    Yields (language.word glue) state fun result last =>
      ∃ copy, result = some copy ∧ accepts copy last ∧ last.Stands setting rest := by
  change Yields (language.parse (.word glue)) _ _
  refine .rule coherent ?_
  change Yields (Parser.word language glue) _ _
  unfold Parser.word
  simp only [Yields.current_bind]
  refine read.bind ?_
  rintro _ last ⟨copy, rfl, accepted, stands⟩
  simp only [Yields.get_bind, stops.apart last stands.toFaces]
  exact .pure ⟨copy, rfl, accepted, stands⟩

theorem ReadsBack.word {word : Expression} (reads : ReadsBack names word) {glue : Glue}
    {setting : Setting} {state : State} {gap rest : List Char} {spacing : Spacing}
    (admits : setting.Admits names) (gapped : Gap gap spacing)
    (faces : state.Faces setting (gap ++ (word.written.toList ++ rest)))
    (stops : setting.Stops glue rest) :
    Yields (language.word glue) state.advance (Copied word setting rest) :=
  Yields.word faces.ahead.advance (stops.knowing word.names)
    (reads admits gapped faces stops.breaks stops.noParen)

/-- A word is read back as a whole, wherever its names are known and it ends behind its last
piece. -/
def ReadsWhole (names : Names) (word : Expression) : Prop :=
  ∀ ⦃setting : Setting⦄ ⦃state : State⦄ ⦃gap rest : List Char⦄ ⦃spacing : Spacing⦄,
    setting.Admits names → Gap gap spacing →
    state.Faces setting (gap ++ (word.written.toList ++ rest)) → setting.Stops .word rest →
    Yields (language.word .word) state.advance (Copied word setting rest)

theorem ReadsBack.whole {word : Expression} (reads : ReadsBack names word) :
    ReadsWhole names word :=
  fun _ _ _ _ _ admits gapped faces stops => reads.word admits gapped faces stops

/-! ## What words begin with -/

/-- Kinds of tokens that no word begins with. -/
def enders : List TokenKind :=
  [.closeBrace, .closeBracket, .closeParen, .semicolon, .endOfInput]

/-- A word begins with the text, in front of what ends the word. -/
def Begins (text : List Char) : Prop :=
  ∀ ⦃setting : Setting⦄ ⦃state : State⦄ ⦃gap rest : List Char⦄ ⦃spacing : Spacing⦄,
    Gap gap spacing → state.Faces setting (gap ++ (text ++ rest)) → Severs rest →
    state.lookahead.kind ∉ enders ∧ state.lookahead.spacing = spacing

theorem begins_of_starts {text : List Char} (starts : Lexeme.Starts text) : Begins text := by
  intro setting state gap rest spacing gapped faces _
  obtain ⟨inner, apart⟩ := faces.startsPiece gapped starts
  refine ⟨?_, apart⟩
  simp only [Lexeme.boundaries, enders, List.mem_cons, List.not_mem_nil, or_false, not_or]
    at inner ⊢
  tauto

/-- A brace begins a list. -/
theorem begins_of_openBrace {text : List Char} (brace : text.head? = some '\x7b') :
    Begins text := by
  intro setting state gap rest spacing gapped faces _
  obtain ⟨later, rfl⟩ := List.head?_eq_some_iff.1 brace
  have faced : state.Faces setting (gap ++ (['\x7b'] ++ (later ++ rest))) := faces
  obtain ⟨kind, -, apart, -⟩ := faced.token gapped .openBrace
  exact ⟨by simp [kind, enders], apart⟩

/-- What begins a word on the same line goes on with the command. -/
theorem Begins.goesOn {text rest : List Char} (begins : Begins text) {setting : Setting}
    {state : State} (faces : state.Faces setting ([' '] ++ (text ++ rest))) (severs : Severs rest) :
    state.endsCommand = false := by
  obtain ⟨inner, spacing⟩ := begins .space faces severs
  have goesOn : state.lookahead.kind.isTerminator = false := by
    cases known : state.lookahead.kind <;> simp_all [TokenKind.isTerminator, enders]
  simp [State.endsCommand, goesOn, spacing]

/-- A word that is read back, and whose text begins one. -/
structure Argues (names : Names) (word : Expression) : Prop where
  reads : ReadsWhole names word
  begins : Begins word.written.toList

/-- Words are read back one behind the other, each where the variables of those before it are
known. -/
inductive ArguesAll : Names → List Expression → Prop where
  | nil {names : Names} : ArguesAll names []
  | cons {names : Names} {word : Expression} {rest : List Expression} (argues : Argues names word)
      (later : ArguesAll (names.plus word.names) rest) : ArguesAll names (word :: rest)

/-- Copies have the shapes of their words. -/
theorem shapeAll_of_copies {copies words : List Expression}
    (alike : List.Forall₂ Expression.Copies copies words) : shapeAll copies = shapeAll words := by
  induction alike with
  | nil => rfl
  | cons same _ ih => simp [shapeAll, same.shape, ih]

/-! ## Elements -/

theorem breaks_space {rest : List Char} : Breaks (' ' :: rest) := by
  simp [Breaks, Lexeme.isWordChar, Lexeme.isNameChar]

theorem severs_space {rest : List Char} : Severs (' ' :: rest) := by
  simp [Severs, Lexeme.isWordChar, Lexeme.isNameChar]

theorem severs_closeParen {rest : List Char} : Severs (')' :: rest) := by
  simp [Severs, Lexeme.isWordChar, Lexeme.isNameChar]

/-- The key of an element ends with its parenthesis. -/
theorem Setting.stops_index {setting : Setting} {rest : List Char} :
    (setting.inside .index).Stops .word (')' :: rest) := by
  have ahead : ∀ state : State, state.Faces (setting.inside .index) (')' :: rest) →
      state.lookahead.kind = .closeParen := by
    intro state faces
    have faced : state.Faces (setting.inside .index) ([] ++ ([')'] ++ rest)) := faces
    exact (faced.token .none .closeParen).1
  refine ⟨severs_closeParen, fun state faces => ?_, fun state faces => ?_⟩
  · simp [Glue.holds, State.glues, ahead state faces, faces.nesting, Setting.inside]
  · simp [State.parenGlued, ahead state faces]

/-- The rest of an element, behind its opening parenthesis. -/
def elementBody (token opening : Token) (array : Expression) : Parse (Option Expression) := do
  let key ← within .index do
    advance
    language.word .word
  if ← isAhead .closeParen then advance
  else report (.unclosed .index opening.line) opening.line
  return key.map fun key => .element token array key

/-- A reference with a parenthesis glued to it is an element. -/
theorem piece_element {setting : Setting} {state : State} {gap word rest : List Char}
    {spacing : Spacing} {text name : String} (admits : setting.Admits names)
    (allowed : names.allow name) (gapped : Gap gap spacing)
    (spells : Spells setting.braces setting.brackets text.toList ('(' :: (word ++ rest)) .reference)
    (named : referenceName text = name)
    (faces : state.Faces setting (gap ++ (text.toList ++ '(' :: (word ++ rest))))
    (begins : Begins word) (severs : Severs rest) :
    state.advance.advance.Stands setting (word ++ rest) ∧
      piece language state.advance =
        elementBody state.advance.current state.advance.advance.current
          (.identifier state.advance.current name true false) state.advance.advance := by
  obtain ⟨kind, literal, -, stands⟩ := faces.token gapped spells
  rw [Lexeme.literalOf_eq _ (by simp), String.ofList_toList] at literal
  have here : state.advance.current.kind = .reference := kind
  have spelled : state.advance.current.literal = text := literal
  have faced : state.advance.Stands setting ([] ++ (['('] ++ (word ++ rest))) := stands
  obtain ⟨paren, -, adjacent, opened⟩ := faced.token .none .openParen
  have glued : state.advance.parenGlued = true := by
    simp [State.parenGlued, paren, adjacent, Spacing.isAdjacent, Spacing.none]
  have notClosed : (state.advance.advance.lookahead.kind == .closeParen) = false := by
    have faced : state.advance.advance.Faces setting ([] ++ (word ++ rest)) := opened.toFaces
    have inner := (begins .none faced severs).1
    rw [beq_eq_false_iff_ne]
    intro same
    simp [same, enders] at inner
  have checked : checkDeclared name state.advance.current.line state.advance =
      some ((), state.advance) := by
    obtain ⟨⟨⟩, _, checked, rfl⟩ := yields_checkDeclared stands.toFaces admits allowed
    exact checked
  refine ⟨opened, ?_⟩
  simp only [piece, variableReference, current_bind_apply, here, spelled, named]
  simp only [bind_apply checked, get_bind_apply, glued, if_true, advance_bind_apply,
    current_bind_apply, isAhead_bind_apply, notClosed, Bool.false_eq_true, if_false, elementBody]

/-- An element, whose key is read as a word up to its parenthesis. -/
theorem yields_element {setting : Setting} {state : State} {gap word rest : List Char}
    {spacing : Spacing} {token inner : Token} {text name : String} {isReserved : Bool}
    {key : Expression} (admits : setting.Admits names) (allowed : names.allow name)
    (gapped : Gap gap spacing)
    (spells : Spells setting.braces setting.brackets text.toList ('(' :: (word ++ ')' :: rest))
      .reference)
    (named : referenceName text = name)
    (faces : state.Faces setting (gap ++ (text.toList ++ '(' :: (word ++ ')' :: rest))))
    (begins : Begins word)
    (reads : ∀ later : State, later.Faces (setting.inside .index) (word ++ ')' :: rest) →
      Yields (language.word .word) later.advance fun result last =>
        ∃ copy, result = some copy ∧ copy.shape = key.shape ∧
          last.Stands ((setting.knowing key.names).inside .index) (')' :: rest)) :
    Yields (piece language) state.advance
      (Copied (.element token (.identifier inner name true isReserved) key) setting rest) := by
  obtain ⟨opened, runs⟩ := piece_element admits allowed gapped spells named faces begins
    severs_closeParen
  have keyRead : Yields (within .index do advance; language.word .word) state.advance.advance
      fun result last => ∃ copy, result = some copy ∧ copy.shape = key.shape ∧
        last.Stands (setting.knowing key.names) (')' :: rest) := by
    refine .within ((reads _ (opened.enter .index).toFaces).mono ?_)
    rintro _ last ⟨copy, rfl, same, stands⟩
    exact ⟨copy, rfl, same, stands.leave⟩
  unfold Yields
  rw [runs]
  change Yields (elementBody _ _ _) _ _
  refine keyRead.bind ?_
  rintro _ last ⟨copy, rfl, same, stands⟩
  have faced : last.Stands (setting.knowing key.names) ([] ++ ([')'] ++ rest)) := stands
  obtain ⟨closing, -, -, closed⟩ := faced.token .none .closeParen
  have names : (Expression.element token (.identifier inner name true isReserved) key).names =
      key.names := by
    simp [Expression.names, Node.declares]
  simp only [Yields.isAhead_bind, closing, beq_self_eq_true, if_true, Yields.advance_bind]
  exact .pure ⟨_, rfl, ⟨by simp [Expression.shape, same], rfl⟩, by rwa [names]⟩

theorem readsBack_element {token inner : Token} {name : String} {isReserved : Bool}
    {key : Expression} (legible : isLegibleName name) (allowed : names.allow name)
    (reads : ReadsWhole names.inKey key) (begins : Begins key.written.toList) :
    ReadsBack names (.element token (.identifier inner name true isReserved) key) := by
  intro setting state gap rest spacing admits gapped faces _ _
  have faced : state.Faces setting (gap ++ ((referenceText name).toList ++
      '(' :: (key.written.toList ++ ')' :: rest))) := by
    simpa [Expression.written] using faces
  have opens : Breaks ('(' :: (key.written.toList ++ ')' :: rest)) := by
    simp [Breaks, Lexeme.isWordChar, Lexeme.isNameChar]
  refine yields_element admits allowed gapped (spells_referenceText legible opens)
    (referenceName_referenceText name) faced begins fun later inside => ?_
  refine (reads admits.key .none inside Setting.stops_index).mono ?_
  rintro _ last ⟨copy, rfl, copies, stands⟩
  exact ⟨copy, rfl, copies.shape, stands⟩

/-! ## Brackets -/

/-- A command is read back where its names are known, a command ends behind it, nothing in the
scope excludes it and it is not the key of an element. -/
def ReadsCommand (names : Names) (command : Expression) : Prop :=
  ∀ ⦃setting : Setting⦄ ⦃state : State⦄ ⦃gap rest : List Char⦄ ⦃spacing : Spacing⦄,
    setting.Admits names → Gap gap spacing →
    state.Faces setting (gap ++ (command.written.toList ++ rest)) → setting.Closes rest →
    setting.nesting.head? ≠ some .index →
    setting.scopes.current.inter command.exclusives.rivals = .empty →
    Yields language.commandOrExpression state.advance fun result last =>
      ∃ copy : Expression, result = some copy ∧ copy.shape = command.shape ∧
        last.Stands (setting.after command.exclusives command.names) rest

/-- A command between others: it excludes none, and its text starts like an operand. -/
structure Embeds (names : Names) (command : Expression) : Prop where
  reads : ReadsCommand names command
  harmless : command.exclusives = .empty
  starts : command.written.toList.head?.any Lexeme.startsOperand

/-- Where a command ends, there is nothing to finish. -/
theorem yields_finishCommand {state : State} {complete : Bool} (ends : state.endsCommand = true) :
    Yields (finishCommand language complete) state fun _ last => last = state := by
  simp only [finishCommand, Yields.endsCommand_bind, ends]
  exact .pure rfl

/-- A command that excludes none leaves the setting as it is, apart from what it declares. -/
theorem Embeds.yields {command : Expression} (embeds : Embeds names command) {setting : Setting}
    {state : State} {gap rest : List Char} {spacing : Spacing} (admits : setting.Admits names)
    (gapped : Gap gap spacing)
    (faces : state.Faces setting (gap ++ (command.written.toList ++ rest)))
    (closes : setting.Closes rest) (placed : setting.nesting.head? ≠ some .index) :
    Yields language.commandOrExpression state.advance fun result last =>
      ∃ copy : Expression, result = some copy ∧ copy.shape = command.shape ∧
        last.Stands (setting.knowing command.names) rest := by
  have free : setting.scopes.current.inter command.exclusives.rivals = .empty := by
    simp [embeds.harmless, Exclusives.inter, Exclusives.rivals, Exclusives.empty]
  refine (embeds.reads admits gapped faces closes placed free).mono ?_
  rintro _ last ⟨copy, rfl, same, stands⟩
  rw [embeds.harmless, Setting.after, Setting.excluding_empty] at stands
  exact ⟨copy, rfl, same, stands⟩

/-- Commands are embedded one behind the other, each where the variables of those before it are
known. -/
inductive EmbedsAll : Names → List Expression → Prop where
  | nil {names : Names} : EmbedsAll names []
  | cons {names : Names} {command : Expression} {rest : List Expression}
      (embeds : Embeds names command) (later : EmbedsAll (names.plus command.names) rest) :
      EmbedsAll names (command :: rest)

section Brackets

variable {setting : Setting} {line : Nat}

/-- What ends nothing starts a command of a bracket, and others may follow where it ends. -/
theorem yields_bracketCommands_command {state : State} {accepts : Expression → State → Prop}
    {holds : List Expression → State → Prop} (coherent : state.Coherent)
    (inner : state.lookahead.kind ∉ Lexeme.closers)
    (read : Yields language.commandOrExpression state.advance fun result next =>
      ∃ copy, result = some copy ∧ accepts copy next ∧ next.endsCommand = true)
    (later : ∀ copy next, accepts copy next →
      Yields (language.bracketCommands line) next fun copies last => holds (copy :: copies) last) :
    Yields (language.bracketCommands line) state holds := by
  change Yields (language.parse (.bracketCommands line)) _ _
  refine .rule coherent ?_
  change Yields (bracketCommands language line) _ _
  simp only [bracketCommands, Yields.lookahead_bind]
  split
  · simp_all [Lexeme.closers]
  · simp_all [Lexeme.closers]
  · simp_all [Lexeme.closers]
  · simp_all [Lexeme.closers]
  · simp only [Yields.advance_bind]
    refine read.bind ?_
    rintro _ next ⟨copy, rfl, accepted, ends⟩
    refine (yields_finishCommand ends).bind ?_
    rintro _ next rfl
    refine (later copy next accepted).bind ?_
    rintro copies last holds
    exact .pure holds

/-- The commands of a bracket end with it. -/
theorem yields_bracketCommands_end {reported : List Diagnostic → Prop} {state : State}
    {rest : List Char} (opened : 0 < setting.brackets)
    (awaits : state.Awaits reported setting (']' :: rest)) :
    Yields (language.bracketCommands line) state fun result last =>
      result = [] ∧ last.Awaits reported (setting.delimit .closeBracket) rest := by
  have faced : state.Awaits reported setting ([] ++ ([']'] ++ rest)) := awaits
  obtain ⟨kind, -, -, closed⟩ := faced.token .none (.closeBracket opened)
  change Yields (language.parse (.bracketCommands line)) _ _
  refine .rule awaits.coherent ?_
  change Yields (bracketCommands language line) _ _
  simp only [bracketCommands, Yields.lookahead_bind, kind, Yields.advance_bind]
  exact .pure ⟨rfl, closed⟩

/-- One command of a bracket, and those behind it. -/
theorem yields_bracketCommands_cons {command : Expression} {commands : List Expression}
    {state : State} {gap text rest : List Char} {spacing : Spacing}
    (embeds : Embeds names command) (admits : setting.Admits names) (gapped : Gap gap spacing)
    (stands : state.Stands setting (gap ++ (command.written.toList ++ text)))
    (closes : setting.Closes text) (placed : setting.nesting.head? ≠ some .index)
    (later : ∀ next : State, next.Stands (setting.knowing command.names) text →
      Yields (language.bracketCommands line) next fun result last =>
        shapeAll result = shapeAll commands ∧ last.Stands
          (((setting.knowing command.names).knowing (wordNames commands)).delimit .closeBracket)
          rest) :
    Yields (language.bracketCommands line) state fun result last =>
      shapeAll result = shapeAll (command :: commands) ∧ last.Stands
        ((setting.knowing (wordNames (command :: commands))).delimit .closeBracket) rest := by
  have inner := (stands.toFaces.startsOperand gapped embeds.starts).1
  have read : Yields language.commandOrExpression state.advance fun result next =>
      ∃ copy : Expression, result = some copy ∧ (copy.shape = command.shape ∧
        next.Stands (setting.knowing command.names) text) ∧ next.endsCommand = true := by
    refine (embeds.yields admits gapped stands.toFaces closes placed).mono ?_
    rintro _ next ⟨copy, rfl, same, stands⟩
    exact ⟨copy, rfl, ⟨same, stands⟩, (closes.knowing _).ends next stands.toFaces⟩
  refine yields_bracketCommands_command stands.coherent inner read ?_
  rintro copy next ⟨same, stands⟩
  refine (later next stands).mono ?_
  rintro copies last ⟨shapes, stands⟩
  rw [Setting.knowing_knowing, ← wordNames_cons] at stands
  exact ⟨by simp [shapeAll, same, shapes], stands⟩

/-- A command ends in front of another one and in front of the closing bracket. -/
theorem closes_followed {commands : List Expression} {rest : List Char}
    (opened : 0 < setting.brackets) :
    setting.Closes ((followed "; " (writtenAll commands)).toList ++ ']' :: rest) := by
  cases commands with
  | nil => simpa [writtenAll] using Setting.closes_bracket opened
  | cons command commands => simpa [writtenAll] using Setting.closes_semicolon

/-- Commands behind another one, up to the closing bracket. -/
theorem yields_bracketCommands {commands : List Expression} {state : State} {rest : List Char}
    (embeds : EmbedsAll names commands) (admits : setting.Admits names)
    (opened : 0 < setting.brackets) (placed : setting.nesting.head? ≠ some .index)
    (stands : state.Stands setting
      ((followed "; " (writtenAll commands)).toList ++ ']' :: rest)) :
    Yields (language.bracketCommands line) state fun result last =>
      shapeAll result = shapeAll commands ∧
        last.Stands ((setting.knowing (wordNames commands)).delimit .closeBracket) rest := by
  induction embeds generalizing setting state with
  | nil =>
    have faced : state.Stands setting (']' :: rest) := by simpa [writtenAll] using stands
    rw [← State.awaits_iff_stands] at faced
    refine (yields_bracketCommands_end opened faced).mono ?_
    rintro _ last ⟨rfl, closed⟩
    exact ⟨rfl, by simpa using State.awaits_iff_stands.1 closed⟩
  | @cons names command commands embeds _ ih =>
    have faced : state.Stands setting ([] ++ ([';'] ++ ([' '] ++ (command.written.toList ++
        ((followed "; " (writtenAll commands)).toList ++ ']' :: rest))))) := by
      simpa [writtenAll] using stands
    obtain ⟨kind, -, -, separated⟩ := faced.token .none .semicolon
    change Yields (language.parse (.bracketCommands line)) _ _
    refine .rule stands.coherent ?_
    change Yields (bracketCommands language line) _ _
    simp only [bracketCommands, Yields.lookahead_bind, kind, Yields.advance_bind]
    exact yields_bracketCommands_cons embeds admits .space separated (closes_followed opened) placed
      fun next stands => ih (admits.knowing _) opened placed stands

/-- All commands of a bracket. -/
theorem yields_bracketCommands_separated {commands : List Expression} {state : State}
    {rest : List Char} (embeds : EmbedsAll names commands)
    (admits : setting.Admits names) (opened : 0 < setting.brackets)
    (placed : setting.nesting.head? ≠ some .index)
    (stands : state.Stands setting
      ((separated "; " (writtenAll commands)).toList ++ ']' :: rest)) :
    Yields (language.bracketCommands line) state fun result last =>
      shapeAll result = shapeAll commands ∧
        last.Stands ((setting.knowing (wordNames commands)).delimit .closeBracket) rest := by
  cases embeds with
  | nil =>
    exact yields_bracketCommands .nil admits opened placed
      (by simpa [writtenAll, separated] using stands)
  | @cons _ command commands embeds later =>
    have faced : state.Stands setting ([] ++ (command.written.toList ++
        ((followed "; " (writtenAll commands)).toList ++ ']' :: rest))) := by
      simpa [writtenAll, separated_cons] using stands
    exact yields_bracketCommands_cons embeds admits .none faced (closes_followed opened) placed
      fun next stands => yields_bracketCommands later (admits.knowing _) opened placed stands

end Brackets

/-- A bracket is the commands that are read in it. -/
theorem yields_bracketed {before after : List Diagnostic → Prop} {holds : List Expression → Prop}
    {setting : Setting} (declared : List String) {state : State} {gap text rest : List Char}
    {spacing : Spacing} (gapped : Gap gap spacing)
    (faces : state.quiet.Faces setting (gap ++ ('[' :: text)))
    (read : ∀ (next : State) (line : Nat),
      next.Awaits before ((setting.delimit .openBracket).inside .bracket) text →
      Yields (language.bracketCommands line) next fun copies last => holds copies ∧
        last.Awaits after ((((setting.knowing declared).delimit .openBracket).inside
          .bracket).delimit .closeBracket) rest)
    (found : before state.diagnostics) :
    state.advance.current.kind = .openBracket ∧
      Yields (bracketed language) state.advance fun result last =>
        ∃ token copies, result = .bracket token copies ∧ holds copies ∧
          last.Awaits after (setting.knowing declared) rest := by
  have faced : state.quiet.Faces setting (gap ++ (['['] ++ text)) := faces
  obtain ⟨kind, -, -, stands⟩ := faced.token gapped .openBracket
  have opened : state.advance.Awaits before (setting.delimit .openBracket) text := ⟨stands, found⟩
  have commandsRead : Yields (within .bracket
      (language.bracketCommands state.advance.current.line)) state.advance fun result last =>
      holds result ∧ last.Awaits after (setting.knowing declared) rest := by
    refine .within ?_
    refine (read _ state.advance.current.line (opened.enter .bracket)).mono ?_
    rintro copies last ⟨held, closed⟩
    exact ⟨held, State.Awaits.leave closed⟩
  refine ⟨kind, ?_⟩
  simp only [bracketed, Yields.current_bind]
  refine commandsRead.bind ?_
  rintro copies last ⟨held, closed⟩
  exact .pure ⟨_, copies, rfl, held, closed⟩

/-- A bracket is a piece of a word. -/
theorem Yields.bracket {accepts : Expression → State → Prop} {state : State}
    (kind : state.current.kind = .openBracket)
    (read : Yields (bracketed language) state accepts) :
    Yields (piece language) state fun result last =>
      ∃ copy, result = some copy ∧ accepts copy last := by
  simp only [piece, Yields.current_bind, kind]
  refine read.bind fun copy last accepted => ?_
  exact .pure ⟨copy, rfl, accepted⟩

/-- The commands of a bracket are read back. -/
theorem yields_bracketed_embeds {token : Token} {commands : List Expression}
    (embeds : EmbedsAll names commands) {setting : Setting} {state : State} {gap rest : List Char}
    {spacing : Spacing} (admits : setting.Admits names) (gapped : Gap gap spacing)
    (faces : state.Faces setting
      (gap ++ ((Expression.bracket token commands).written.toList ++ rest))) :
    state.advance.current.kind = .openBracket ∧
      Yields (bracketed language) state.advance fun copy last =>
        copy.Copies (.bracket token commands) ∧
          last.Stands (setting.knowing (Expression.bracket token commands).names) rest := by
  have faced : state.quiet.Faces setting (gap ++ ('[' ::
      ((separated "; " (writtenAll commands)).toList ++ ']' :: rest))) := by
    simpa [State.quiet_eq faces.clean, Expression.written] using faces
  have opened : (setting.delimit .openBracket).Admits names :=
    admits.congr rfl rfl rfl rfl
  have read : ∀ (next : State) (line : Nat),
      next.Awaits (· = []) ((setting.delimit .openBracket).inside .bracket)
        ((separated "; " (writtenAll commands)).toList ++ ']' :: rest) →
      Yields (language.bracketCommands line) next fun copies last =>
        shapeAll copies = shapeAll commands ∧ last.Awaits (· = [])
          ((((setting.knowing (wordNames commands)).delimit .openBracket).inside .bracket).delimit
            .closeBracket) rest := by
    intro next line awaits
    simp only [State.awaits_iff_stands] at awaits ⊢
    exact yields_bracketCommands_separated embeds (opened.inside (by decide)) (Nat.succ_pos _)
      (by simp [Setting.inside]) awaits
  obtain ⟨kind, bracketRead⟩ := yields_bracketed _ gapped faced read faces.clean
  refine ⟨kind, bracketRead.mono ?_⟩
  rintro _ last ⟨_, copies, rfl, shapes, awaits⟩
  have names : (Expression.bracket token commands).names = wordNames commands := by
    simp [Expression.names, wordNames, Node.declares]
  exact ⟨⟨by simp [Expression.shape, shapes], rfl⟩,
    by simpa [names] using State.awaits_iff_stands.1 awaits⟩

/-- Bracketed commands are read back. -/
theorem readsBack_bracket {token : Token} {commands : List Expression}
    (embeds : EmbedsAll names commands) : ReadsBack names (.bracket token commands) := by
  intro setting state gap rest spacing admits gapped faces _ _
  obtain ⟨kind, read⟩ := yields_bracketed_embeds embeds admits gapped faces
  exact read.bracket kind

end Parser

end IRule
