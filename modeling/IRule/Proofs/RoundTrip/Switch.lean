import IRule.Proofs.Parser.Declaring
import IRule.Proofs.RoundTrip.Script
import IRule.Proofs.Script.Arms

/-!
# Switches read back

The arms of a `switch` are read in the order in which they are written. Arms with a
dash are collected in front of the body that they lead to.
-/

namespace IRule

namespace Parser

open Lexeme (Apart Breaks Spells)

variable {names : Names} {setting : Setting} {rest : List Char}

/-! ## Written arms -/

/-- A pattern as it is written in an arm, none for the word `default`, with what stands
in front of it and behind it. -/
structure ArmHead where
  lead : List Char := ['\n']
  pattern : Option String
  gap : List Char := [' ']
deriving DecidableEq, Repr

/-- A block and its text. -/
structure BlockText where
  text : List Char
  block : Block

namespace ArmHead

def spelled (head : ArmHead) : List Char :=
  match head.pattern with
  | none => "default".toList
  | some text => '"' :: text.toList ++ ['"']

def written (head : ArmHead) : List Char :=
  head.lead ++ (head.spelled ++ head.gap)

/-- The kind of the token of the pattern. -/
def kind (head : ArmHead) : TokenKind :=
  match head.pattern with
  | none => .reserved .defaultWord
  | some _ => .string

/-- The text of the pattern, where `default` is one like any other. -/
def text (head : ArmHead) : String :=
  head.pattern.getD "default"

/-- The parts of a head are separate tokens. -/
structure Formed (head : ArmHead) : Prop where
  lead : Apart head.lead
  gap : Apart head.gap
  enclosed : ∀ text ∈ head.pattern, Lexeme.Enclosed text.toList

theorem Formed.spells {head : ArmHead} (formed : head.Formed) {braces brackets : Nat} :
    Spells braces brackets head.spelled (head.gap ++ rest) head.kind := by
  have breaks := formed.gap.breaks rest
  obtain ⟨lead, pattern, gap⟩ := head
  cases pattern with
  | none =>
    have word : Lexeme.isBareWord "default".toList := by decide
    have kind : Lexeme.wordKind "default".toList = .reserved .defaultWord := by decide
    have spells : Spells braces brackets _ (gap ++ rest) _ := .bareWord word breaks
    rw [kind] at spells
    exact spells
  | some text => exact .string (formed.enclosed text rfl)

/-- The pattern with what stands around it. -/
def patternText (head : ArmHead) : PatternText :=
  ⟨head.lead, head.spelled, head.kind, head.gap⟩

theorem kind_delimit (head : ArmHead) : setting.delimit head.kind = setting := by
  unfold kind
  split <;> rfl

end ArmHead

/-- The text of an arm: its pattern, then its block or a dash. -/
def armWritten (arm : Arm ArmHead BlockText) : List Char :=
  arm.pattern.written ++
    match arm.body with
    | some body => body.text
    | none => ['-']

/-- The text of a switch, whose arms end in front of `closing` and the brace. -/
def switchWritten (value : Expression) (arms : List (Arm ArmHead BlockText))
    (closing : List Char) : List Char :=
  "switch".toList ++ ' ' :: (value.written.toList ++ ' ' :: '\x7b' ::
    (arms.flatMap armWritten ++ (closing ++ ['\x7d'])))

theorem fall_written (body : BlockText) (first : ArmHead) (later : List ArmHead) :
    (Arm.falling body (first :: later)).flatMap armWritten =
      first.written ++ PatternText.fall body.text (later.map ArmHead.patternText) := by
  induction later generalizing first with
  | nil => simp [Arm.falling, armWritten, PatternText.fall]
  | cons second later ih =>
    simp [Arm.falling, armWritten, PatternText.fall, ih, ArmHead.patternText, ArmHead.written,
      PatternText.written]

/-! ## Arms that are read back -/

/-- The text is read as the block, wherever its names are known. -/
def ReadsText (names : Names) (body : BlockText) : Prop :=
  ∃ inner, body.text = '\x7b' :: inner ∧
    ∀ ⦃setting : Setting⦄ ⦃state : State⦄ ⦃rest : List Char⦄, setting.Admits names →
      state.Stands (setting.delimit .openBrace) (inner ++ rest) →
      Yields (block language) state fun copy last =>
        copy.shape = body.block.shape ∧ last.Stands (setting.knowing body.block.names) rest

/-- The written form of a legible block is read as the block. -/
theorem readsText_of_legible {body : Block} (legible : body.legible names) (valid : body.Valid) :
    ReadsText names ⟨body.written.toList, body⟩ :=
  readsBlock_of_legible names body legible valid

/-- What is in the arms is read back, each block where the names of those in front of it
are known too. -/
def ReadsArms (names : Names) : List (Arm ArmHead BlockText) → Prop
  | [] => True
  | arm :: later =>
    (∀ body ∈ arm.body, ReadsText names body) ∧
      ReadsArms (names.plus (arm.body.elim [] fun body => body.block.names)) later

theorem readsArms_falling {body : BlockText} {first : ArmHead} {others : List ArmHead}
    {later : List (Arm ArmHead BlockText)} :
    ReadsArms names (Arm.falling body (first :: others) ++ later) ↔
      ReadsText names body ∧ ReadsArms (names.plus body.block.names) later := by
  induction others generalizing first with
  | nil => simp [Arm.falling, ReadsArms]
  | cons second others ih => simpa [Arm.falling, ReadsArms, Names.plus] using ih

/-! ## Patterns -/

/-- A word of one token with a gap behind it is taken as text. -/
theorem yields_wordText {state : State} {lead word gap : List Char} {kind : TokenKind}
    (faces : state.Faces setting (lead ++ (word ++ (gap ++ rest)))) (apart : Apart lead)
    (spells : Spells setting.braces setting.brackets word (gap ++ rest) kind)
    (plain : kind ∉ [.openBrace, .closeBrace, .openBracket, .closeBracket]) (behind : Apart gap) :
    Yields (rawWordText language) state.advance fun text last =>
      text = String.ofList word ∧ last.Stands setting (gap ++ rest) := by
  obtain ⟨here, -, stands⟩ := faces.apart apart spells
  rw [setting.delimit_of_plain plain] at stands
  have notBracket : (state.advance.current.kind == .openBracket) = false := by
    have same : state.advance.current.kind = kind := here
    rw [same, beq_eq_false_iff_ne]
    rintro rfl
    simp at plain
  have rawRead : Yields (language.rawWord 0) state.advance fun _ last => last = state.advance := by
    change Yields (language.parse (.rawWord 0)) _ _
    refine .rule stands.coherent ?_
    change Yields (rawWord language 0) _ _
    simp only [rawWord, Yields.get_bind, stands.toFaces.not_glues behind]
    exact .pure rfl
  simp only [rawWordText, Yields.current_bind, notBracket]
  refine rawRead.bind ?_
  rintro _ _ rfl
  simp only [Yields.get_bind]
  exact .pure ⟨stands.slice_eq rfl faces (apart.passed _ spells.tight), stands⟩

/-- The pattern of an arm is read where it stands, `default` as a text. -/
theorem yields_casePattern {state : State} {head : ArmHead} (formed : head.Formed)
    (faces : state.Faces setting (head.written ++ rest)) :
    Yields (casePattern language {}) state.advance fun result last =>
      ∃ pattern : Pattern, result = some pattern ∧ pattern.text = head.text ∧
        last.Stands setting (head.gap ++ rest) := by
  have faced : state.Faces setting (head.lead ++ (head.spelled ++ (head.gap ++ rest))) := by
    simpa [ArmHead.written] using faces
  obtain ⟨kind, literal, stands⟩ := faced.apart formed.lead formed.spells
  rw [head.kind_delimit] at stands
  obtain ⟨lead, pattern, gap⟩ := head
  cases pattern with
  | none =>
    have here : state.advance.current.kind = .reserved .defaultWord := kind
    have read := yields_wordText faced formed.lead formed.spells (by simp [ArmHead.kind]) formed.gap
    simp only [casePattern, Yields.current_bind, here, TokenKind.isTerminator, Bool.false_eq_true,
      if_false]
    refine read.bind ?_
    rintro _ last ⟨rfl, stands⟩
    exact .pure ⟨_, rfl, rfl, stands⟩
  | some text =>
    have here : state.advance.current.kind = .string := kind
    have written : state.advance.current.literal = text := by
      have same : state.advance.current.literal = _ := literal
      rw [same]
      simp [ArmHead.kind, ArmHead.spelled, Lexeme.literalOf, unquote]
    simp only [casePattern, Yields.current_bind, here]
    exact .pure ⟨_, rfl, written, stands⟩

/-- Heads of arms are read as patterns. -/
theorem ArmHead.Formed.reads {head : ArmHead} (formed : head.Formed) :
    head.patternText.Reads {} fun pattern => pattern.text = head.text := by
  refine ⟨formed.lead, formed.gap, ?_, fun setting state rest faces => ?_,
    fun setting state rest faces => yields_casePattern formed faces⟩
  · simp only [patternText, kind]
    split <;> simp
  · have faced : state.Faces setting (head.lead ++ (head.spelled ++ (head.gap ++ rest))) := by
      simpa [PatternText.written, patternText] using faces
    exact (faced.apart formed.lead formed.spells).1

/-! ## Arms -/

/-- What the patterns of arms are read as: the first may be the word `default`. -/
def readPatterns (first : ArmHead) (later : List ArmHead) : List (Option String) :=
  first.pattern :: later.map fun head => some head.text

theorem patterns_collected (token : Token) (single : Pattern) (patterns : List Pattern) :
    (collected token single patterns).patterns = single :: patterns := by
  cases patterns <;> rfl

/-- Patterns with the texts of the heads are what the heads are read as. -/
theorem texts_of_alike {later : List ArmHead} {patterns : List Pattern}
    (alike : List.Forall₂ (fun head pattern => Pattern.text pattern = head.text) later patterns) :
    patterns.map (fun pattern => some pattern.text) = later.map fun head => some head.text := by
  induction alike with
  | nil => rfl
  | cons text _ ih => simp [text, ih]

/-- The patterns of arms that lead to one body. -/
theorem yields_armPatterns {state : State} {first : ArmHead} {later : List ArmHead}
    {text : List Char} (formed : ∀ head ∈ first :: later, head.Formed)
    (alone : first.pattern = none → later = [])
    (faces : state.Faces setting (first.written ++
      (PatternText.fall ('\x7b' :: text) (later.map ArmHead.patternText) ++ rest))) :
    Yields (casePatterns language {}) state.advance fun result last =>
      ∃ pattern behind, result = some pattern ∧
        (∀ token block, (Case.mk token pattern block).patterns = readPatterns first later) ∧
        Apart behind ∧ last.Stands setting (behind ++ (['\x7b'] ++ (text ++ rest))) := by
  obtain ⟨firstFormed, laterFormed⟩ := List.forall_mem_cons.1 formed
  cases pattern : first.pattern with
  | none =>
    obtain rfl := alone pattern
    have faced : state.Faces setting (first.lead ++ ("default".toList ++
        (first.gap ++ (['\x7b'] ++ (text ++ rest))))) := by
      simpa [ArmHead.written, ArmHead.spelled, pattern, PatternText.fall] using faces
    refine (yields_casePatterns_default firstFormed.lead firstFormed.gap faced).2.mono ?_
    rintro _ last ⟨rfl, stands⟩
    exact ⟨none, first.gap, rfl, by simp [Case.patterns, readPatterns, pattern], firstFormed.gap,
      stands⟩
  | some text =>
    have notDefault : first.patternText.kind ≠ .reserved .defaultWord := by
      simp [ArmHead.patternText, ArmHead.kind, pattern]
    refine (yields_casePatterns firstFormed.reads (fun head mem => (laterFormed head mem).reads)
      notDefault faces).mono ?_
    rintro _ last ⟨_, behind, rfl, ⟨token, single, patterns, rfl, same, alike⟩, apart, stands⟩
    refine ⟨_, behind, rfl, fun _ _ => ?_, apart, stands⟩
    have firstText : some single.text = first.pattern := by simp [same, ArmHead.text, pattern]
    simp only [Case.patterns, patterns_collected, List.map_cons, readPatterns, firstText,
      texts_of_alike alike]

/-- An arm is read with the patterns and the block that it is written with. -/
theorem yields_arm {state : State} {body : BlockText} {first : ArmHead} {later : List ArmHead}
    (reads : ReadsText names body) (admits : setting.Admits names)
    (formed : ∀ head ∈ first :: later, head.Formed)
    (alone : first.pattern = none → later = [])
    (faces : state.Faces setting (first.written ++
      (PatternText.fall body.text (later.map ArmHead.patternText) ++ rest))) :
    Yields (caseArm language {}) state.advance fun result last =>
      ∃ arm : Case, result = some arm ∧ arm.patterns = readPatterns first later ∧
        arm.body.shape = body.block.shape ∧
        last.Stands (setting.knowing body.block.names) rest := by
  obtain ⟨inner, text, bodyRead⟩ := reads
  rw [text] at faces
  refine (yields_caseArm (yields_armPatterns formed alone faces) fun next opened =>
    bodyRead admits opened).mono ?_
  rintro _ last ⟨token, pattern, block, rfl, patterns, shape, stands⟩
  exact ⟨_, rfl, patterns _ _, shape, stands⟩

/-- The arms of a switch, without their layout. -/
def plainArms (arms : List (Arm ArmHead BlockText)) : List (Arm (Option String) Block) :=
  arms.map (Arm.map ArmHead.pattern BlockText.block)

/-- Arms with the shapes of their blocks. -/
def shapeArms (arms : List (Arm (Option String) Block)) : List (Arm (Option String) Block) :=
  arms.map (Arm.map id Block.shape)

/-- The names that the blocks of the arms declare. -/
def armNames (arms : List (Arm ArmHead BlockText)) : List String :=
  arms.flatMap fun arm => arm.body.elim [] fun body => body.block.names

theorem armNames_falling (body : BlockText) (first : ArmHead) (later : List ArmHead)
    (arms : List (Arm ArmHead BlockText)) :
    armNames (Arm.falling body (first :: later) ++ arms) = body.block.names ++ armNames arms := by
  induction later generalizing first with
  | nil => simp [Arm.falling, armNames]
  | cons second later ih => simpa [Arm.falling, armNames] using ih second

/-- What is read of arms that lead to one body, with their patterns as they are read. -/
theorem shapeArms_fall {arm : Case} {body : BlockText} {first : ArmHead} {later : List ArmHead}
    (patterns : arm.patterns = readPatterns first later)
    (shape : arm.body.shape = body.block.shape) {read : List Case}
    {arms : List (Arm ArmHead BlockText)}
    (rest : shapeArms (read.flatMap Case.arms) = shapeArms (Arm.asRead false (plainArms arms))) :
    shapeArms ((arm :: read).flatMap Case.arms) =
      shapeArms (Arm.asRead false
        (plainArms (Arm.falling body (first :: later) ++ arms))) := by
  have plain : plainArms (Arm.falling body (first :: later) ++ arms) =
      Arm.falling body.block (first.pattern :: later.map ArmHead.pattern) ++ plainArms arms := by
    rw [plainArms, List.map_append, Arm.map_falling, List.map_cons]
    rfl
  rw [plain, Arm.asRead_falling, List.flatMap_cons, Case.arms, patterns]
  simp only [shapeArms, List.map_append, Arm.map_falling, shape] at rest ⊢
  rw [rest]
  simp [readPatterns, ArmHead.text, Function.comp_def]

/-- Arms as they can stand in a switch: their parts are separate tokens, and the default
arm and the last arm have blocks. -/
structure ArmsFormed (arms : List (Arm ArmHead BlockText)) : Prop where
  heads : ∀ arm ∈ arms, arm.pattern.Formed
  defaults : ∀ arm ∈ arms, arm.pattern.pattern = none → arm.body ≠ none
  closed : ∀ last ∈ arms.getLast?, last.body ≠ none

/-- Arms are read up to the closing brace. -/
theorem yields_cases {falls : List (Arm.Fall ArmHead BlockText)} {state : State} {line : Nat}
    {closing : List Char} (reads : ReadsArms names (falls.flatMap Arm.Fall.arms))
    (admits : setting.Admits names) (opened : 0 < setting.braces) (apart : Apart closing)
    (heads : ∀ arm ∈ falls.flatMap Arm.Fall.arms, arm.pattern.Formed)
    (defaults : ∀ arm ∈ falls.flatMap Arm.Fall.arms, arm.pattern.pattern = none → arm.body ≠ none)
    (stands : state.Stands setting ((falls.flatMap Arm.Fall.arms).flatMap armWritten ++
      (closing ++ (['\x7d'] ++ rest)))) :
    Yields (language.cases {} line) state fun result last =>
      shapeArms (result.flatMap Case.arms) =
        shapeArms (Arm.asRead false (plainArms (falls.flatMap Arm.Fall.arms))) ∧
      last.Stands ((setting.knowing (armNames (falls.flatMap Arm.Fall.arms))).delimit .closeBrace)
        rest := by
  induction falls generalizing names setting state with
  | nil =>
    refine (yields_cases_nil apart opened (by simpa using stands)).mono ?_
    rintro _ last ⟨rfl, stands⟩
    exact ⟨rfl, by simpa [armNames] using stands⟩
  | cons fall falls ih =>
    obtain ⟨first, later, body⟩ := fall
    rw [List.flatMap_cons, Arm.Fall.arms] at reads heads defaults stands ⊢
    obtain ⟨bodyRead, laterRead⟩ := readsArms_falling.1 reads
    rw [List.flatMap_append, fall_written, List.append_assoc, List.append_assoc] at stands
    have formed : ∀ head ∈ first :: later, head.Formed := by
      intro head mem
      rw [← Arm.map_pattern_falling body (first :: later)] at mem
      obtain ⟨arm, inside, rfl⟩ := List.mem_map.1 mem
      exact heads arm (List.mem_append_left _ inside)
    have alone : first.pattern = none → later = [] := by
      intro default
      cases later with
      | nil => rfl
      | cons second later =>
        exact absurd rfl (defaults ⟨first, none⟩ (by simp [Arm.falling]) default)
    have goesOn : state.lookahead.kind ∉ [.closeBrace, .endOfInput] := by
      have reads := (formed first (List.mem_cons_self ..)).reads
      rw [reads.ahead stands.toFaces]
      exact reads.starts
    have armRead : Yields (caseArm language {}) state.advance fun result next =>
        ∃ arm : Case, result = some arm ∧ (arm.patterns = readPatterns first later ∧
          arm.body.shape = body.block.shape ∧ next.Stands (setting.knowing body.block.names)
            ((falls.flatMap Arm.Fall.arms).flatMap armWritten ++
            (closing ++ (['\x7d'] ++ rest)))) :=
      yields_arm bodyRead admits formed alone stands.toFaces
    refine yields_cases_cons stands.coherent goesOn armRead ?_
    rintro arm next ⟨patterns, shape, stands⟩
    refine (ih laterRead (admits.knowing _) opened
      (fun arm mem => heads arm (List.mem_append_right _ mem))
      (fun arm mem => defaults arm (List.mem_append_right _ mem)) stands).mono ?_
    rintro read last ⟨same, stands⟩
    refine ⟨shapeArms_fall patterns shape same, ?_⟩
    rwa [armNames_falling, ← Setting.knowing_knowing]

/-! ## The statement -/

/-- A word starts with no dash unless it is a number. -/
theorem head_ne_dash {word : Expression} (legible : word.legibleWord names)
    (other : word.isNumber = false) : word.written.toList.head? ≠ some '-' := by
  have ofBareWord {text : List Char} (bare : Lexeme.isBareWord text) : text.head? ≠ some '-' := by
    cases text with
    | nil => simp
    | cons char later =>
      simp only [Lexeme.isBareWord, Bool.and_eq_true] at bare
      simp only [List.head?_cons, ne_eq, Option.some.injEq]
      rintro rfl
      exact absurd bare.1 (by decide)
  simp only [Expression.legibleWord, Bool.and_eq_true] at legible
  obtain ⟨legible, piece⟩ := legible
  cases word with
  | identifier token name isVariable isReserved =>
    cases isVariable with
    | false =>
      simp only [Expression.isPiece, isLegibleWord, Bool.and_eq_true] at piece
      exact ofBareWord piece.1.1
    | true => simp [Expression.written, referenceText_head]
  | number => simp [Expression.isNumber] at other
  | boolean token value =>
    simp only [Expression.written]
    cases value <;> decide
  | string | interpolated | bracket | list | hash => simp [Expression.written]
  | address token text =>
    simp only [Expression.legibleArgument, Lexeme.isAddress, Bool.and_eq_true] at legible
    rw [Expression.written]
    intro dash
    rw [dash] at legible
    exact absurd legible.1 (by decide)
  | element token array key =>
    cases array with
    | identifier inner name isVariable isReserved =>
      cases isVariable with
      | false => simp [Expression.legibleArgument] at legible
      | true => simp [Expression.written, List.head?_append, referenceText_head]
    | _ => simp [Expression.legibleArgument] at legible
  | _ => simp [Expression.legibleArgument] at legible

theorem tight_of_legibleWord {word : Expression} (legible : word.legibleWord names) :
    ∃ char later, word.written.toList = char :: later ∧ Lexeme.startsTrivia char = false := by
  simp only [Expression.legibleWord, Bool.and_eq_true] at legible
  have starts : Lexeme.Starts word.written.toList ∨ word.written.toList.head? = some '\x7b' := by
    cases bare : word.isBare with
    | false => exact starts_of_legibleArgument legible.1 bare
    | true =>
      obtain ⟨token, name, isReserved, rfl⟩ := exists_of_isBare bare
      simp only [Expression.isPiece, isLegibleWord, Bool.and_eq_true] at legible
      exact .inl (by simpa [Expression.written] using starts_of_isBareWord legible.2.1.1)
  rcases starts with ⟨char, later, written, piece⟩ | brace
  · exact ⟨char, later, written, Lexeme.startsTrivia_of_startsPiece piece⟩
  · obtain ⟨later, written⟩ := List.head?_eq_some_iff.1 brace
    exact ⟨'\x7b', later, written, rfl⟩

/-- No word is an option. -/
theorem not_optionAhead {state : State} {word : Expression}
    (faces : state.Faces setting ([' '] ++ (word.written.toList ++ rest)))
    (legible : word.legibleWord names) (breaks : Breaks rest) : state.optionAhead = false := by
  suffices plain : state.lookahead.kind ≠ .minus by simp [State.optionAhead, plain]
  cases number : word.isNumber with
  | true =>
    cases word with
    | number token value =>
      rw [Expression.written] at faces
      simp [(faces.token .space (.number value breaks)).1]
    | _ => simp [Expression.isNumber] at number
  | false =>
    intro minus
    obtain ⟨char, later, written, tight⟩ := tight_of_legibleWord legible
    have notDash := head_ne_dash legible number
    rw [written] at faces notDash
    rw [(State.Faces.starts faces .space tight).1] at minus
    exact notDash (congrArg some (Lexeme.scan_minus minus))

/-- A switch whose value and arms are read back, up to where it ends. -/
theorem yields_switch {state : State} {value : Expression}
    {falls : List (Arm.Fall ArmHead BlockText)} {gap closing : List Char} {spacing : Spacing}
    (legible : value.legibleWord names) (valid : value.Valid)
    (reads : ReadsArms names (falls.flatMap Arm.Fall.arms)) (admits : setting.Admits names)
    (formed : ArmsFormed (falls.flatMap Arm.Fall.arms)) (apart : Apart closing)
    (gapped : Gap gap spacing)
    (closes : (setting.knowing (armNames (falls.flatMap Arm.Fall.arms))).Closes rest)
    (faces : state.Faces setting
      (gap ++ (switchWritten value (falls.flatMap Arm.Fall.arms) closing ++ rest))) :
    Yields language.statement state.advance fun result last =>
      ∃ copy, result = some copy ∧
        (∃ token subject cases, copy = .switch token {} subject cases ∧
          subject.shape = value.shape ∧
          shapeArms (cases.flatMap Case.arms) =
            shapeArms (Arm.asRead false (plainArms (falls.flatMap Arm.Fall.arms)))) ∧
        last.Stands (setting.knowing (armNames (falls.flatMap Arm.Fall.arms))) rest := by
  have faced : state.Faces setting (gap ++ ("switch".toList ++ ([' '] ++ (value.written.toList ++
      ' ' :: '\x7b' :: ((falls.flatMap Arm.Fall.arms).flatMap armWritten ++
        (closing ++ (['\x7d'] ++ rest))))))) := by
    delta switchWritten at faces
    simpa using faces
  obtain ⟨kind, -, -, stands⟩ := faced.name gapped (by decide) breaks_space
  have here : state.advance.current.kind = .reserved .switch := kind.trans (by decide)
  have word := legible
  simp only [Expression.legibleWord, Bool.and_eq_true] at word
  have argues := (restores_of_legible names value word.1 valid).argues word.1
  let armed := ((setting.knowing value.names).delimit .openBrace).inside .expression
  have armsRead (inner : State) (line : Nat) (opened : inner.Stands armed
      ((falls.flatMap Arm.Fall.arms).flatMap armWritten ++ (closing ++ (['\x7d'] ++ rest)))) :
      Yields (language.cases {} line) inner fun result last =>
        shapeArms (result.flatMap Case.arms) =
          shapeArms (Arm.asRead false (plainArms (falls.flatMap Arm.Fall.arms))) ∧
        last.Stands (((((setting.knowing value.names).knowing
          (armNames (falls.flatMap Arm.Fall.arms))).delimit .openBrace).inside
            .expression).delimit .closeBrace) rest := by
    have admitted : armed.Admits names :=
      ⟨admits.checked, fun name inside => List.mem_append_left _ (admits.known name inside),
        admits.barred, by simp [armed, Setting.inside]⟩
    exact yields_cases reads admitted (Nat.succ_pos _) apart formed.heads formed.defaults opened
  refine .statement stands.coherent (by simp [here]) closes ?_
  simp only [statementBody, Yields.current_bind, here]
  have valued : state.advance.Stands setting ((spacedWords (SwitchOptions.words {})).toList ++
      ([' '] ++ (value.written.toList ++ ([' '] ++ (['\x7b'] ++
        ((falls.flatMap Arm.Fall.arms).flatMap armWritten ++
          (closing ++ (['\x7d'] ++ rest)))))))) :=
    stands
  refine (yields_switchStatement argues admits
    (fun next faces => not_optionAhead faces legible breaks_space) armsRead valued).mono ?_
  rintro _ last ⟨subject, read, rfl, shape, same, stands⟩
  rw [Setting.knowing_knowing] at stands
  exact ⟨_, rfl, ⟨_, subject, read, rfl, shape, same⟩, stands.retain (List.subset_append_right ..)⟩

/-! ## The script -/

/-- A switch on its own is read without a problem, with the arms that are written. -/
theorem parse_switch {declared : List String} {value : Expression}
    {arms : List (Arm ArmHead BlockText)} {closing : List Char}
    (legible : value.legibleWord { known := declared }) (valid : value.Valid)
    (formed : ArmsFormed arms) (reads : ReadsArms { known := declared } arms)
    (apart : Apart closing) :
    let outcome := parseWith declared (String.ofList (switchWritten value arms closing))
    outcome.diagnostics = [] ∧ ∃ token subject cases,
      outcome.script.statements = [.switch token {} subject cases] ∧
      subject.shape = value.shape ∧
      shapeArms (cases.flatMap Case.arms) = shapeArms (Arm.asRead false (plainArms arms)) := by
  obtain ⟨falls, rfl⟩ := Arm.exists_falls formed.closed
  have knows : ({ known := declared } : Setting).Knows (Naming.addAll [] declared) :=
    ⟨fun name inside => Naming.mem_addAll_iff.2 (.inr inside), by simp⟩
  obtain ⟨start, same, faces⟩ :=
    start_faces (switchWritten value (falls.flatMap Arm.Fall.arms) closing) knows
  have admits : ({ known := declared } : Setting).Admits { known := declared } :=
    ⟨fun _ => rfl, fun _ mem => mem, rfl, by simp⟩
  have more : start.advance.current.kind ≠ .endOfInput := by
    have word : start.Faces { known := declared } ([] ++ ("switch".toList ++
        (' ' :: (value.written.toList ++ ' ' :: '\x7b' ::
          ((falls.flatMap Arm.Fall.arms).flatMap armWritten ++ (closing ++ ['\x7d'])))))) := faces
    rw [(word.name .none (by decide) breaks_space).1]
    decide
  have wholeFaced : start.Faces { known := declared }
      ([] ++ (switchWritten value (falls.flatMap Arm.Fall.arms) closing ++ [])) := by
    simpa using faces
  have switchRead := yields_switch legible valid reads admits formed apart .none
    Setting.closes_nil wholeFaced
  have scriptRead : Yields language.script (.start (String.ofList
      (switchWritten value (falls.flatMap Arm.Fall.arms) closing)).toList declared)
      fun result last =>
        ((∃ token subject cases, result = [.switch token {} subject cases] ∧
          subject.shape = value.shape ∧
          shapeArms (cases.flatMap Case.arms) =
            shapeArms (Arm.asRead false (plainArms (falls.flatMap Arm.Fall.arms)))) ∧
          last.diagnostics = []) ∧ last.braceCount = 0 := by
    rw [String.toList_ofList, same]
    refine .script faces.ahead.advance more switchRead fun copy next ⟨read, stands⟩ => ?_
    refine (yields_script_nil stands.toFaces).mono ?_
    rintro _ last ⟨rfl, finished⟩
    obtain ⟨token, subject, cases, rfl, shape, arms⟩ := read
    exact ⟨⟨⟨token, subject, cases, rfl, shape, arms⟩, finished.clean⟩, finished.braceCount⟩
  obtain ⟨last, diagnostics, accepted, clean⟩ := scriptRead.outcome
  exact ⟨diagnostics.trans clean, accepted⟩

end Parser

end IRule
