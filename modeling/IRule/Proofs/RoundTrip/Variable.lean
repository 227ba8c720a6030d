import IRule.Proofs.Parser.Declarations
import IRule.Proofs.RoundTrip.Script
import IRule.Proofs.Script.Names
import Mathlib.Data.List.TakeWhile

/-!
# Variables read back

What is read of a rule that assigns a variable and returns a reference to it. The key
of an element is read as a word: letters and digits make one token, unless a number
stands in front of the letters.
-/

namespace IRule

namespace Parser

open Lexeme (Spells Breaks EndsDigits Severs)

variable {names : Names} {setting : Setting} {state : State} {rest : List Char}

/-! ## Keys -/

theorem isLiteral_simplePiece (token : Token) : (simplePiece token).isLiteral := by
  unfold simplePiece
  split <;> rfl

theorem breaks_closeParen : Breaks (')' :: rest) := by
  simp [Breaks, Lexeme.isWordChar, Lexeme.isNameChar]

/-- No piece glues onto a key in front of its parenthesis. -/
theorem yields_noPieces (stands : state.Stands (setting.inside .index) (')' :: rest)) :
    Yields (language.pieces .word) state fun result last => result = [] ∧ last = state := by
  change Yields (language.parse (.pieces .word)) _ _
  refine .rule stands.coherent ?_
  change Yields (pieces language .word) _ _
  simp only [pieces, Yields.get_bind, Setting.stops_index.apart state stands.toFaces]
  exact .pure ⟨rfl, rfl⟩

/-- Adjacent words glue. -/
theorem glues_of_isWord (word : state.lookahead.kind.isWord)
    (adjacent : state.lookahead.spacing = .none) : Glue.word.holds state = true := by
  cases kind : state.lookahead.kind <;>
    simp_all [Glue.holds, State.glues, TokenKind.isWord, TokenKind.isTerminator,
      Spacing.isAdjacent, Spacing.none]

/-- A bare word glues onto what stands in front of it, and nothing glues onto it. -/
theorem yields_gluedWord {letters : List Char} (bare : Lexeme.isBareWord letters)
    (stands : state.Stands (setting.inside .index) (letters ++ ')' :: rest)) :
    Glue.word.holds state = true ∧
      Yields (language.pieces .word) state fun result last =>
        (∀ piece ∈ result, piece.1.isLiteral) ∧ last.source = state.source ∧
          last.Stands (setting.inside .index) (')' :: rest) := by
  have faced : state.Stands (setting.inside .index) ([] ++ (letters ++ ')' :: rest)) := stands
  obtain ⟨kind, -, adjacent, next⟩ := faced.token .none (.bareWord bare breaks_closeParen)
  have word := Lexeme.wordKind_isWord letters
  rw [(setting.inside .index).delimit_of_isWord word] at next
  rw [← kind] at word
  have glued := glues_of_isWord word adjacent
  have isWord : state.advance.current.kind.isWord := word
  have here : Yields (piece language) state.advance fun result last =>
      result = some (simplePiece state.advance.current) ∧ last = state.advance :=
    .piece_of_isWord isWord ⟨rfl, rfl⟩
  refine ⟨glued, ?_⟩
  change Yields (language.parse (.pieces .word)) _ _
  refine .rule stands.coherent ?_
  change Yields (pieces language .word) _ _
  simp only [pieces, Yields.get_bind, glued, if_true, Yields.advance_bind, Yields.current_bind]
  refine here.bind ?_
  rintro _ _ ⟨rfl, rfl⟩
  simp only [Yields.current_bind]
  refine (yields_noPieces next).bind ?_
  rintro _ _ ⟨rfl, rfl⟩
  exact .pure ⟨by simp [isLiteral_simplePiece], rfl, next⟩

/-- Digits and the letters glued to them are one word, as it is written. -/
theorem yields_gluedKey {digits letters : List Char} {value : Int64}
    (digit : ∀ char ∈ digits, char.isDigit) (nonempty : digits ≠ [])
    (bare : Lexeme.isBareWord letters) (ends : EndsDigits (letters ++ ')' :: rest))
    (fits : Text.int64? digits = some value)
    (faces : state.Faces (setting.inside .index) (digits ++ (letters ++ ')' :: rest))) :
    Yields (language.word .word) state.advance fun result last =>
      result = some (bareWord state.advance.current (String.ofList (digits ++ letters))) ∧
        last.Stands (setting.inside .index) (')' :: rest) := by
  have faced : state.Faces (setting.inside .index) ([] ++ (digits ++ (letters ++ ')' :: rest))) :=
    faces
  have spells : Spells (setting.inside .index).braces (setting.inside .index).brackets digits
      (letters ++ ')' :: rest) .number := (Spells.digits digit nonempty ends).1
  change Yields (language.parse (.word .word)) _ _
  refine .rule faces.ahead.advance ?_
  change Yields (word language .word) _ _
  simp only [word, Yields.current_bind]
  refine (yields_number .none spells fits faced).bind ?_
  rintro _ _ ⟨rfl, rfl, text, stands⟩
  obtain ⟨glued, pieces⟩ := yields_gluedWord bare stands
  simp only [Yields.get_bind, glued, if_true]
  refine pieces.bind ?_
  rintro all last ⟨literal, source, stands⟩
  have same : last.source = state.source := source
  have trivia :
      Lexeme.Trivia.scan false ([] ++ (digits ++ letters ++ ')' :: rest)) = ⟨0, 0, .none⟩ := by
    rw [List.append_assoc]
    exact Gap.none.scan spells.tight
  have raw : last.slice ⟨state.advance.current.span.start, last.current.span.stop⟩ = _ :=
    stands.slice_eq same (by simpa using faces) (congrArg _ trivia)
  have literals : all.all (fun piece => piece.1.isLiteral) = true := List.all_eq_true.2 literal
  simp only [Yields.get_bind, raw, List.all_cons, literals]
  exact .pure ⟨rfl, stands⟩

/-- A key of digits only is a number. -/
theorem yields_digitsKey {digits : List Char} {value : Int64}
    (digit : ∀ char ∈ digits, char.isDigit) (nonempty : digits ≠ [])
    (fits : Text.int64? digits = some value)
    (faces : state.Faces (setting.inside .index) (digits ++ ')' :: rest)) :
    Yields (language.word .word) state.advance fun result last =>
      ∃ copy, result = some copy ∧ copy.shape = (Expression.number default value).shape ∧
        last.Stands (setting.inside .index) (')' :: rest) := by
  have faced : state.Faces (setting.inside .index) ([] ++ (digits ++ ')' :: rest)) := faces
  have spells : Spells (setting.inside .index).braces (setting.inside .index).brackets digits
      (')' :: rest) .number := (Spells.digits digit nonempty breaks_closeParen.endsDigits).1
  refine .word faces.ahead.advance Setting.stops_index ?_
  refine (yields_number .none spells fits faced).mono ?_
  rintro _ _ ⟨rfl, rfl, -, stands⟩
  exact ⟨_, rfl, rfl, stands⟩

/-- A key that starts with a letter is a word, or a boolean. -/
theorem yields_bareKey {key : String} (bare : Lexeme.isBareWord key.toList)
    (noNumber : Text.int64? key.toList = none)
    (faces : state.Faces (setting.inside .index) (key.toList ++ ')' :: rest)) :
    Yields (language.word .word) state.advance fun result last =>
      ∃ copy, result = some copy ∧ copy.shape = (Variable.keyNode key).shape ∧
        last.Stands (setting.inside .index) (')' :: rest) := by
  have admits : (setting.inside .index).Admits { barred := setting.barred, keyed := true } :=
    ⟨fun _ => rfl, by simp, rfl, fun _ => rfl⟩
  have reads : ReadsBack { barred := setting.barred, keyed := true } (Variable.keyNode key) ∧
      (Variable.keyNode key).written = key := by
    unfold Variable.keyNode
    simp only [noNumber]
    split
    · exact ⟨readsBack_boolean true, by simp_all [Expression.written]⟩
    · split
      · exact ⟨readsBack_boolean false, by simp_all [Expression.written]⟩
      · rename_i notTrue notFalse
        exact ⟨readsBack_bare (by simp [isLegibleWord, bare, notTrue, notFalse]),
          by simp [Expression.written]⟩
  have faced : state.Faces (setting.inside .index)
      ([] ++ ((Variable.keyNode key).written.toList ++ ')' :: rest)) := by
    rw [reads.2]
    exact faces
  refine (reads.1.word admits .none faced Setting.stops_index).mono ?_
  rintro _ last ⟨copy, rfl, copies, stands⟩
  exact ⟨copy, rfl, copies.shape, stands.forget⟩

/-- The digits in front of the letters of a key are a number of their own. -/
theorem endsDigits_letters {key : String} (plain : ∀ char ∈ key.toList, char.isAlphanum) :
    EndsDigits (key.toList.dropWhile Char.isDigit ++ ')' :: rest) := by
  cases letters : key.toList.dropWhile Char.isDigit with
  | nil => exact breaks_closeParen.endsDigits
  | cons letter later =>
    have some : key.toList.dropWhile Char.isDigit ≠ [] := by simp [letters]
    have notDigit : letter.isDigit = false := by
      simpa [letters] using List.head_dropWhile_not Char.isDigit some
    have inside : letter ∈ key.toList.dropWhile Char.isDigit := by simp [letters]
    have alphanum := plain letter ((List.dropWhile_suffix _).subset inside)
    rintro char ⟨⟩
    refine ⟨notDigit, ?_⟩
    rintro rfl
    simp at alphanum

/-- A key of letters and digits is read up to its parenthesis, if the digits that it
starts with fit an integer. -/
theorem yields_key {key : String} (nonempty : key.toList ≠ [])
    (plain : ∀ char ∈ key.toList, char.isAlphanum)
    (fits : Variable.leadingDigits key = [] ∨ (Text.int64? (Variable.leadingDigits key)).isSome)
    (faces : state.Faces (setting.inside .index) (key.toList ++ ')' :: rest)) :
    Yields (language.word .word) state.advance fun result last =>
      ∃ copy, result = some copy ∧ copy.shape = (Variable.keyNode key).shape ∧
        last.Stands (setting.inside .index) (')' :: rest) := by
  have digit : ∀ char ∈ Variable.leadingDigits key, char.isDigit := fun _ =>
    List.mem_takeWhile_imp
  have parts : Variable.leadingDigits key ++ key.toList.dropWhile Char.isDigit = key.toList :=
    List.takeWhile_append_dropWhile
  cases letters : key.toList.dropWhile Char.isDigit with
  | nil =>
    rw [letters, List.append_nil] at parts
    rw [parts] at fits digit
    obtain ⟨value, reads⟩ := Option.isSome_iff_exists.1 (fits.resolve_left nonempty)
    have node : Variable.keyNode key = .number default value := by simp [Variable.keyNode, reads]
    rw [node]
    exact yields_digitsKey digit nonempty reads faces
  | cons letter later =>
    have notDigit : letter.isDigit = false := by
      have some : key.toList.dropWhile Char.isDigit ≠ [] := by simp [letters]
      simpa [letters] using List.head_dropWhile_not Char.isDigit some
    rw [letters] at parts
    have inside : ∀ char ∈ letter :: later, char ∈ key.toList := fun char there => by
      rw [← parts]
      exact List.mem_append_right _ there
    have bare := Lexeme.isBareWord_of_alphanum (fun char there => plain char (inside char there))
      notDigit
    have noNumber : Text.int64? key.toList = none :=
      Text.int64?_eq_none plain (inside letter (List.mem_cons_self ..)) notDigit
    by_cases digits : Variable.leadingDigits key = []
    · rw [digits, List.nil_append] at parts
      rw [parts] at bare
      exact yields_bareKey bare noNumber faces
    · obtain ⟨value, reads⟩ := Option.isSome_iff_exists.1 (fits.resolve_left digits)
      have ends : EndsDigits (letter :: later ++ ')' :: rest) := by
        rw [← letters]
        exact endsDigits_letters plain
      have node : Variable.keyNode key = .identifier default key false false := by
        have notTrue : key ≠ "true" := by
          rintro rfl
          exact digits (by decide)
        have notFalse : key ≠ "false" := by
          rintro rfl
          exact digits (by decide)
        simp [Variable.keyNode, noNumber, notTrue, notFalse]
      rw [← parts, List.append_assoc] at faces
      refine (yields_gluedKey digit digits bare ends reads faces).mono ?_
      rintro _ last ⟨rfl, stands⟩
      refine ⟨_, rfl, ?_, stands⟩
      rw [parts, String.ofList_toList, node]
      rfl

/-! ## References -/

variable {assigned : Variable} {gap : List Char} {spacing : Spacing}

theorem referenceName_bracedReference (name : String) :
    referenceName (bracedReference name) = name := by
  simp [referenceName, bracedReference]

theorem spells_bracedReference {braces brackets : Nat} (legal : assigned.isLegal) :
    Spells braces brackets (bracedReference assigned.name).toList rest .reference := by
  obtain ⟨first, later, written, -⟩ := exists_of_isRawName (Variable.isRawName_name legal)
  have plain : ∀ char ∈ assigned.name.toList, char ≠ '\x7d' ∧ char ≠ '\n' := by
    intro char inside
    have known := Variable.chars_of_isLegal legal char inside
    constructor <;> rintro rfl <;> simp [Lexeme.isNameChar] at known
  simpa [bracedReference] using Spells.bracedReference (by simp [written]) plain

theorem spells_plainReference {braces brackets : Nat} {name : String}
    (whole : Naming.Whole name.toList) (breaks : Breaks rest) :
    Spells braces brackets ("$" ++ name).toList rest .reference := by
  simpa using Spells.reference whole.length whole.nonempty breaks

theorem starts_reference (assigned : Variable) (braced : Bool) :
    Lexeme.Starts (assigned.reference braced).toList := by
  refine ⟨'$', (assigned.reference braced).toList.tail, ?_, by decide⟩
  cases braced <;> simp [Variable.reference, bracedReference]

theorem starts_key {key : String} (nonempty : key.toList ≠ [])
    (plain : ∀ char ∈ key.toList, char.isAlphanum) : Lexeme.Starts key.toList := by
  obtain ⟨first, later, spelled⟩ := List.exists_cons_of_ne_nil nonempty
  refine ⟨first, later, spelled, ?_⟩
  have here := plain first (by simp [spelled])
  simp only [Char.isAlphanum, Bool.or_eq_true] at here
  simp only [Lexeme.startsPiece, Lexeme.startsLiteral, Lexeme.isNameStart, Bool.or_eq_true]
  tauto

/-- A reference that is accepted is read without a problem. -/
theorem yields_variable {braced : Bool} (legal : assigned.isLegal)
    (accepted : assigned.isAccepted braced) (admits : setting.Admits { known := [assigned.base] })
    (gapped : Gap gap spacing) (stops : setting.Stops .word rest)
    (faces : state.Faces setting (gap ++ ((assigned.reference braced).toList ++ rest))) :
    Yields (language.word .word) state.advance fun result last =>
      ∃ copy, result = some copy ∧ copy.shape = (assigned.node braced).shape ∧
        last.Stands setting rest := by
  refine .word faces.ahead.advance stops ?_
  have copied {node : Expression}
      (read : Yields (piece language) state.advance (Copied node setting rest)) :
      Yields (piece language) state.advance fun result last =>
        ∃ copy, result = some copy ∧ copy.shape = node.shape ∧ last.Stands setting rest :=
    read.mono fun _ _ ⟨copy, kept, copies, stands⟩ => ⟨copy, kept, copies.shape, stands.forget⟩
  have whole := Variable.whole_of_isLegal legal
  cases braced with
  | true =>
    have allowed : ({ known := [assigned.base] } : Names).allow assigned.name := by
      cases assigned with
      | scalar name => simp [Names.allow, Variable.base, Variable.name]
      | element array key => exact (Variable.allow_name_element legal).trans accepted
    have node : assigned.node true = .identifier default assigned.name true false := by
      cases assigned <;> rfl
    rw [node]
    exact copied (yields_reference admits allowed gapped (spells_bracedReference legal)
      (referenceName_bracedReference _) faces stops.noParen)
  | false =>
    have allowed : ({ known := [assigned.base] } : Names).allow assigned.base := by
      simp [Names.allow]
    cases assigned with
    | scalar name =>
      exact copied (yields_reference admits allowed gapped
        (spells_plainReference whole stops.breaks)
        (Naming.referenceName_plain whole) faces stops.noParen)
    | element array key =>
      obtain ⟨nonempty, plain⟩ := Variable.key_of_isLegal legal
      have opens : Breaks ('(' :: (key.toList ++ ')' :: rest)) := by
        simp [Breaks, Lexeme.isWordChar, Lexeme.isNameChar]
      have faced : state.Faces setting (gap ++ (("$" ++ array).toList ++
          '(' :: (key.toList ++ ')' :: rest))) := by
        simpa [Variable.reference, Variable.name] using faces
      have fits : Variable.leadingDigits key = [] ∨
          (Text.int64? (Variable.leadingDigits key)).isSome := by
        simpa [Variable.isAccepted, Variable.fitsKey] using accepted
      have keyRead (later : State)
          (inside : later.Faces (setting.inside .index) (key.toList ++ ')' :: rest)) :
          Yields (language.word .word) later.advance fun result last =>
            ∃ copy, result = some copy ∧ copy.shape = (Variable.keyNode key).shape ∧
              last.Stands ((setting.knowing (Variable.keyNode key).names).inside .index)
                (')' :: rest) := by
        rw [Variable.names_keyNode, Setting.knowing_nil]
        exact yields_key nonempty plain fits inside
      exact copied (yields_element admits allowed gapped (spells_plainReference whole opens)
        (Naming.referenceName_plain whole) faced (begins_of_starts (starts_key nonempty plain))
        keyRead)

/-! ## Assigning and returning -/

/-- The second line, which returns the reference. -/
def returnLine (assigned : Variable) (braced : Bool) : List Char :=
  '\n' :: ("return".toList ++ ([' '] ++ ((assigned.reference braced).toList ++ [])))

theorem ends_returnLine (assigned : Variable) (braced : Bool) :
    ({} : Setting).Ends (returnLine assigned braced) := by
  have spells : Spells 0 0 "return".toList ([' '] ++ ((assigned.reference braced).toList ++ []))
      (Lexeme.wordKind "return".toList) := .bareWord (by decide) breaks_space
  exact Setting.ends_line rfl spells (by decide)

/-- The assignment is read as it is written. It declares the base of the variable, and
nothing else is declared. -/
theorem yields_assignment {value : Int64} {braced : Bool} (legal : assigned.isLegal)
    {start : State} (undeclared : start.declared = [])
    (faces : start.Faces {} (assigned.program value braced).toList) :
    Yields language.statement start.advance fun result last =>
      ∃ copy, result = some copy ∧
        (copy.shape = .set default (.identifier default assigned.name false false)
            (.number default value) ∧ last.declared = [assigned.base]) ∧
        last.Stands (({} : Setting).knowing [assigned.base]) (returnLine assigned braced) := by
  have faced : start.Faces {} ([] ++ ("set".toList ++ ([' '] ++ (assigned.name.toList ++
      ' ' :: ((Text.int64Text value).toList ++ returnLine assigned braced))))) := by
    simpa [Variable.program, returnLine] using faces
  have ends := ends_returnLine assigned braced
  have closes : ({} : Setting).Closes (returnLine assigned braced) := by
    simpa [Setting.after] using ends.closes .empty []
  have legible : (Expression.number default value).legibleArgument {} := by
    simp [Expression.legibleArgument]
  have begins : Begins (Text.int64Text value).toList := by
    simpa [Expression.written] using begins_of_legibleArgument legible
  rw [← Variable.declaredName_name legal]
  refine (yields_set (.number default value) (· = []) (Variable.isRawName_name legal)
    (Variable.isVariableName_of_isLegal legal) (by simp [Setting.Spares]) .none rfl faced ends
    begins undeclared ?_).mono ?_
  · intro later faces undeclared
    refine .word faces.ahead.advance (closes.stops .word) ?_
    refine (yields_number .space (.number value closes.breaks) (Text.int64?_int64Text value)
      faces).mono ?_
    rintro _ _ ⟨rfl, rfl, -, stands⟩
    exact ⟨_, rfl, ⟨rfl, undeclared⟩, stands⟩
  · rintro _ last ⟨copy, rfl, ⟨shape, before, rfl, declared⟩, stands⟩
    exact ⟨copy, rfl, ⟨shape, declared⟩, stands⟩

/-- An accepted reference is returned as it is written. -/
theorem yields_return {braced : Bool} (legal : assigned.isLegal)
    (accepted : assigned.isAccepted braced)
    (stands : state.Stands (({} : Setting).knowing [assigned.base]) (returnLine assigned braced)) :
    Yields language.script state.advance fun copies last =>
      shapeStatements copies = [.returning default (some (assigned.node braced).shape)] ∧
        Finished 0 last := by
  have admits : (({} : Setting).knowing [assigned.base]).Admits { known := [assigned.base] } :=
    ⟨fun _ => rfl, fun _ inside => inside, rfl, by simp [Setting.knowing]⟩
  have faces : state.Faces (({} : Setting).knowing [assigned.base]) (['\n'] ++ ("return".toList ++
      ([' '] ++ ((assigned.reference braced).toList ++ [])))) := stands.toFaces
  have more : state.advance.current.kind ≠ .endOfInput := by
    have kind : state.advance.current.kind = _ := (faces.name .line (by decide) breaks_space).1
    rw [kind]
    decide
  have first := yields_returning .line faces Setting.closes_nil
    (begins_of_starts (starts_reference assigned braced)) fun later faces =>
      yields_variable legal accepted admits .space (Setting.closes_nil.stops .word) faces
  refine .script faces.ahead.advance more first ?_
  rintro copy next ⟨shape, stands⟩
  refine (yields_script_nil stands.toFaces).mono ?_
  rintro _ last ⟨rfl, finished⟩
  exact ⟨by simp [shapeStatements, shape], finished⟩

/-! ## Problems -/

/-- A number that is too large. -/
theorem complains_number {digits : List Char} (gapped : Gap gap spacing)
    (spells : Spells setting.braces setting.brackets digits rest .number)
    (large : Text.int64? digits = none) (faces : state.Faces setting (gap ++ (digits ++ rest))) :
    Complains (piece language) state.advance := by
  obtain ⟨kind, literal, -, stands⟩ := faces.token gapped spells
  rw [Lexeme.literalOf_eq _ (by simp)] at literal
  have here : state.advance.current.kind = .number := kind
  have text : state.advance.current.literal = String.ofList digits := literal
  have reports : Complains numberLiteral state.advance := by
    simp only [numberLiteral, Complains.current_bind, text, String.toList_ofList, large]
    exact .bind_apply rfl (.pure (by simp [State.record]))
  simp only [piece, Complains.current_bind, here]
  exact reports.bind fun _ _ => .pure trivial

/-- A name that is not declared. -/
theorem complains_reference {text name : String} (gapped : Gap gap spacing)
    (spells : Spells setting.braces setting.brackets text.toList rest .reference)
    (named : referenceName text = name) (faces : state.Faces setting (gap ++ (text.toList ++ rest)))
    (checked : setting.checked) (plain : splitNamespace? name.toList = none)
    (undeclared : name ∉ state.declared)
    (noParen : ∀ later : State, later.Faces setting rest → later.parenGlued = false) :
    Complains (piece language) state.advance := by
  obtain ⟨kind, literal, -, stands⟩ := faces.token gapped spells
  rw [Lexeme.literalOf_eq _ (by simp), String.ofList_toList] at literal
  have here : state.advance.current.kind = .reference := kind
  have spelled : state.advance.current.literal = text := literal
  have apart : (state.advance.record ((Problem.undeclaredVariable name).diagnostic
      state.advance.current.line)).parenGlued = false := noParen state.advance stands.toFaces
  have reports : checkDeclared name state.advance.current.line state.advance =
      some ((), state.advance.record ((Problem.undeclaredVariable name).diagnostic
        state.advance.current.line)) := by
    have checks : state.advance.checkVariables = true := stands.checked.trans checked
    have missing : state.advance.declared.contains name = false := by
      rw [List.contains_eq_mem, decide_eq_false_iff_not]
      exact undeclared
    simp only [checkDeclared, get_bind_apply, checks, plain, missing]
    rfl
  simp only [piece, variableReference, Complains.current_bind, here, spelled, named]
  refine .bind_apply reports ?_
  simp only [Complains.get_bind, apart]
  exact .pure (by simp [State.record])

/-- An element with a problem in its key. -/
theorem complains_element {word : List Char} {text name : String} (admits : setting.Admits names)
    (allowed : names.allow name) (gapped : Gap gap spacing)
    (spells : Spells setting.braces setting.brackets text.toList ('(' :: (word ++ rest)) .reference)
    (named : referenceName text = name)
    (faces : state.Faces setting (gap ++ (text.toList ++ '(' :: (word ++ rest))))
    (begins : Begins word) (severs : Severs rest)
    (complains : ∀ later : State, later.Faces (setting.inside .index) (word ++ rest) →
      Complains (language.word .word) later.advance) :
    Complains (piece language) state.advance := by
  obtain ⟨opened, runs⟩ := piece_element admits allowed gapped spells named faces begins severs
  unfold Complains Leaves
  rw [runs]
  change Complains (elementBody _ _ _) _
  have inner : Complains (within .index do advance; language.word .word) state.advance.advance :=
    .within (.bind_apply rfl (complains _ (opened.enter .index).toFaces))
  refine inner.bind fun key middle => ?_
  simp only [Grows.isAhead_bind]
  exact .ite (fun _ => .advance_bind (.pure trivial)) fun _ =>
    .record_bind rfl (spares_problem (by simp)) (.pure trivial)

/-- A key is not read if it starts with a number that is too large. -/
theorem complains_key {key : String} (plain : ∀ char ∈ key.toList, char.isAlphanum)
    (nonempty : Variable.leadingDigits key ≠ [])
    (large : Text.int64? (Variable.leadingDigits key) = none)
    (faces : state.Faces (setting.inside .index) (key.toList ++ ')' :: rest)) :
    Complains (language.word .word) state.advance := by
  have digit : ∀ char ∈ Variable.leadingDigits key, char.isDigit := fun _ =>
    List.mem_takeWhile_imp
  have parts : Variable.leadingDigits key ++ key.toList.dropWhile Char.isDigit = key.toList :=
    List.takeWhile_append_dropWhile
  rw [← parts, List.append_assoc] at faces
  have faced : state.Faces (setting.inside .index) ([] ++ (Variable.leadingDigits key ++
      (key.toList.dropWhile Char.isDigit ++ ')' :: rest))) := faces
  exact .word faces.ahead.advance
    (complains_number .none (Spells.digits digit nonempty (endsDigits_letters plain)).1 large faced)

/-- A reference that is not accepted is not read without a problem. -/
theorem complains_variable {braced : Bool} (legal : assigned.isLegal)
    (refused : assigned.isAccepted braced = false) (declared : state.declared = [assigned.base])
    (admits : setting.Admits { known := [assigned.base] }) (checked : setting.checked)
    (gapped : Gap gap spacing) (stops : setting.Stops .word rest)
    (faces : state.Faces setting (gap ++ ((assigned.reference braced).toList ++ rest))) :
    Complains (language.word .word) state.advance := by
  refine .word faces.ahead.advance ?_
  cases assigned with
  | scalar name => simp [Variable.isAccepted] at refused
  | element array key =>
    obtain ⟨nonempty, plain⟩ := Variable.key_of_isLegal legal
    cases braced with
    | true =>
      have unknown := Variable.allow_name_element legal
      rw [show (splitNamespace? array.toList).isSome = false from refused] at unknown
      simp only [Names.allow, Bool.or_eq_false_iff] at unknown
      refine complains_reference gapped (spells_bracedReference legal)
        (referenceName_bracedReference _) faces checked (by simpa using unknown.1.2) ?_
        stops.noParen
      simpa [declared, Variable.base] using unknown.2
    | false =>
      have whole := Variable.whole_of_isLegal legal
      have allowed : ({ known := [array] } : Names).allow array := by simp [Names.allow]
      have opens : Breaks ('(' :: (key.toList ++ ')' :: rest)) := by
        simp [Breaks, Lexeme.isWordChar, Lexeme.isNameChar]
      have faced : state.Faces setting (gap ++ (("$" ++ array).toList ++
          '(' :: (key.toList ++ ')' :: rest))) := by
        simpa [Variable.reference, Variable.name] using faces
      simp only [Variable.isAccepted, Variable.fitsKey, Bool.false_eq_true, if_false,
        Bool.or_eq_false_iff, List.isEmpty_eq_false_iff, Option.isSome_eq_false_iff,
        Option.isNone_iff_eq_none] at refused
      exact complains_element admits allowed gapped (spells_plainReference whole opens)
        (Naming.referenceName_plain whole) faced (begins_of_starts (starts_key nonempty plain))
        severs_closeParen fun _ inside => complains_key plain refused.1 refused.2 inside

/-- A reference that is not accepted is not returned without a problem. -/
theorem complains_return {braced : Bool} (legal : assigned.isLegal)
    (refused : assigned.isAccepted braced = false) (declared : state.declared = [assigned.base])
    (stands : state.Stands (({} : Setting).knowing [assigned.base]) (returnLine assigned braced)) :
    Complains language.script state.advance := by
  have admits : (({} : Setting).knowing [assigned.base]).Admits { known := [assigned.base] } :=
    ⟨fun _ => rfl, fun _ inside => inside, rfl, by simp [Setting.knowing]⟩
  have faces : state.Faces (({} : Setting).knowing [assigned.base]) (['\n'] ++ ("return".toList ++
      ([' '] ++ ((assigned.reference braced).toList ++ [])))) := stands.toFaces
  obtain ⟨kind, -, -, returns⟩ := faces.name .line (by decide) breaks_space
  have here : state.advance.current.kind = .reserved .returnWord := kind.trans (by decide)
  have goesOn := endsCommand_of_starts returns.toFaces (starts_reference assigned braced)
  have word : Complains (language.word .word) state.advance.advance :=
    complains_variable legal refused declared admits rfl .space (Setting.closes_nil.stops .word)
      returns.toFaces
  have body : Complains (statementBody language) state.advance := by
    simp only [statementBody, returnStatement, Complains.current_bind, here,
      Complains.endsCommand_bind, goesOn, Bool.false_eq_true, if_false, Complains.advance_bind]
    refine word.bind fun value middle => ?_
    cases value <;> exact .pure trivial
  have statement : Complains (language.parse .statement) state.advance := by
    refine .rule returns.coherent ?_
    change Complains (statement language) _
    simp only [statement, Complains.current_bind, here]
    exact body.bind fun _ _ => (finishCommand_grows language_declares).bind fun _ _ _ _ =>
      .pure trivial
  change Complains (language.parse .script) _
  refine .rule returns.coherent ?_
  change Complains (script language) _
  simp only [script, Complains.current_bind, here]
  exact statement.bind fun _ _ => .advance_bind ((language_declares .script _).bind fun _ _ _ _ =>
    .pure trivial)

/-! ## Whole rules -/

/-- The shape of a rule that assigns a number to the variable and returns a reference. -/
def programShape (assigned : Variable) (value : Int64) (braced : Bool) : List Statement :=
  [.set default (.identifier default assigned.name false false) (.number default value),
    .returning default (some (assigned.node braced).shape)]

/-- The rule is read from its first word on, with nothing declared. -/
theorem start_program (assigned : Variable) (value : Int64) (braced : Bool) :
    ∃ start : State, State.start (assigned.program value braced).toList [] = start.advance ∧
      start.declared = [] ∧ start.Faces {} (assigned.program value braced).toList ∧
      start.advance.current.kind ≠ .endOfInput := by
  obtain ⟨start, same, faces⟩ := start_faces (assigned.program value braced).toList
    (Setting.knows_nothing rfl rfl (Naming.addAll [] []))
  have faced : start.Faces {} ([] ++ ("set".toList ++ ' ' :: (assigned.name.toList ++
      ' ' :: ((Text.int64Text value).toList ++ returnLine assigned braced)))) := by
    simpa [Variable.program, returnLine] using faces
  have kind : start.advance.current.kind = _ := (faced.name .none (by decide) breaks_space).1
  refine ⟨start, same, congrArg State.declared same.symm, faces, ?_⟩
  rw [kind]
  decide

/-- A rule with an accepted reference is read without a problem, and as it is written. -/
theorem parse_program (value : Int64) {braced : Bool} (legal : assigned.isLegal)
    (accepted : assigned.isAccepted braced) :
    (parse (assigned.program value braced)).diagnostics = [] ∧
      shapeStatements (parse (assigned.program value braced)).script.statements =
        programShape assigned value braced := by
  obtain ⟨start, same, undeclared, faces, more⟩ := start_program assigned value braced
  have reads : Yields language.script (.start (assigned.program value braced).toList [])
      fun result last => shapeStatements result = programShape assigned value braced ∧
        Finished 0 last := by
    rw [same]
    refine .script faces.ahead.advance more (yields_assignment legal undeclared faces) ?_
    rintro copy next ⟨⟨shape, -⟩, stands⟩
    refine (yields_return legal accepted stands).mono ?_
    rintro copies last ⟨shapes, finished⟩
    exact ⟨by simp [shapeStatements, shape, shapes, programShape], finished⟩
  exact reads.parsed

/-- With any other reference there is a problem. -/
theorem parse_program_refused (value : Int64) {braced : Bool} (legal : assigned.isLegal)
    (refused : assigned.isAccepted braced = false) :
    (parse (assigned.program value braced)).diagnostics ≠ [] := by
  obtain ⟨start, same, undeclared, faces, more⟩ := start_program assigned value braced
  have complains :
      Complains language.script (.start (assigned.program value braced).toList []) := by
    rw [same]
    change Complains (language.parse .script) _
    refine .rule faces.ahead.advance ?_
    change Complains (script language) _
    simp only [script, Complains.current_bind, beq_eq_false_iff_ne.2 more]
    obtain ⟨_, next, runs, copy, rfl, ⟨-, declared⟩, stands⟩ :=
      yields_assignment legal undeclared faces
    refine .bind_apply runs ?_
    simp only [Complains.advance_bind]
    exact (complains_return legal refused declared stands).bind fun _ _ => .pure trivial
  obtain ⟨statements, last, runs, outcome⟩ :=
    exists_language [] (assigned.program value braced)
  obtain ⟨fresh, reported, -⟩ := last.growth_balanced.reported
  have parsed : parse (assigned.program value braced) = _ := outcome
  simp [parsed, reported, complains statements last runs]

end Parser

end IRule
