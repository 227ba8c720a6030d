import IRule.Parser.Word
import IRule.Proofs.Lexer.Spelling
import IRule.Proofs.Parser.Coherence

/-!
# Where the parser stands

`State.Faces` says which text the parser reads on at, in what surroundings, and
that no problem has been reported. The tokens ahead are then a matter of
spelling: `Faces.token` is the one place where they are worked out.
-/

namespace IRule

namespace Naming

theorem mem_add {names : List String} {name other : String} (inside : name ∈ names) :
    name ∈ add names other := by
  unfold add
  split
  · exact inside
  · exact List.mem_append_left _ inside

/-- Names are never lost. -/
theorem mem_addAll {names : List String} {name : String} (more : List String)
    (inside : name ∈ names) : name ∈ addAll names more := by
  induction more generalizing names with
  | nil => exact inside
  | cons other more ih => exact ih (mem_add inside)

theorem self_mem_add (names : List String) (name : String) : name ∈ add names name := by
  unfold add
  split <;> simp_all

/-- All names that are added are there. -/
theorem added_subset_addAll (names more : List String) : more ⊆ addAll names more := by
  induction more generalizing names with
  | nil => simp
  | cons name more ih =>
    exact List.cons_subset.2 ⟨mem_addAll more (self_mem_add names name), ih _⟩

theorem mem_add_iff {names : List String} {name other : String} :
    other ∈ add names name ↔ other ∈ names ∨ other = name := by
  unfold add
  split
  next there =>
    rw [List.contains_iff_mem] at there
    constructor
    · exact .inl
    · rintro (inside | rfl)
      · exact inside
      · exact there
  next => simp

theorem mem_addAll_iff {names more : List String} {name : String} :
    name ∈ addAll names more ↔ name ∈ names ∨ name ∈ more := by
  induction more generalizing names with
  | nil => simp [addAll]
  | cons other more ih =>
    have unfolded : addAll names (other :: more) = addAll (add names other) more := rfl
    rw [unfolded, ih, mem_add_iff, List.mem_cons, or_assoc]

end Naming

namespace Parser

open Lexeme (Spells Breaks Severs)

/-- What surrounds the place where the parser stands. -/
structure Setting where
  /-- Open braces. -/
  braces : Nat := 0
  /-- Open brackets. -/
  brackets : Nat := 0
  /-- Open constructs, innermost first. -/
  nesting : List Nesting := [.script]
  scopes : Scopes := {}
  /-- Whether undeclared variables are reported. -/
  checked : Bool := true
  /-- Variables that have been declared, among others. -/
  known : List String := []
  /-- Variables that have not been declared, among others. -/
  barred : List String := []

/-- The declared variables are as the setting says. -/
structure Setting.Knows (setting : Setting) (declared : List String) : Prop where
  known : ∀ name ∈ setting.known, name ∈ declared
  barred : ∀ name ∈ setting.barred, name ∉ declared

/-- What is known of the variables is no matter of anything else around. -/
theorem Setting.Knows.congr {setting changed : Setting} {declared : List String}
    (knows : setting.Knows declared) (known : changed.known = setting.known)
    (barred : changed.barred = setting.barred) : changed.Knows declared :=
  ⟨by rw [known]; exact knows.known, by rw [barred]; exact knows.barred⟩

/-- A setting that says nothing of variables is no mistake. -/
theorem Setting.knows_nothing {setting : Setting} (known : setting.known = [])
    (barred : setting.barred = []) (declared : List String) : setting.Knows declared :=
  ⟨by simp [known], by simp [barred]⟩

/-- Count a delimiter. -/
def Setting.delimit (setting : Setting) : TokenKind → Setting
  | .openBrace => { setting with braces := setting.braces + 1 }
  | .closeBrace => { setting with braces := setting.braces - 1 }
  | .openBracket => { setting with brackets := setting.brackets + 1 }
  | .closeBracket => { setting with brackets := setting.brackets - 1 }
  | _ => setting

namespace Setting

variable (setting : Setting) (kind : TokenKind)

@[simp]
theorem delimit_nesting : (setting.delimit kind).nesting = setting.nesting := by
  unfold delimit
  split <;> rfl

@[simp]
theorem delimit_scopes : (setting.delimit kind).scopes = setting.scopes := by
  unfold delimit
  split <;> rfl

@[simp]
theorem delimit_checked : (setting.delimit kind).checked = setting.checked := by
  unfold delimit
  split <;> rfl

@[simp]
theorem delimit_known : (setting.delimit kind).known = setting.known := by
  unfold delimit
  split <;> rfl

@[simp]
theorem delimit_barred : (setting.delimit kind).barred = setting.barred := by
  unfold delimit
  split <;> rfl

/-- Words do not delimit anything. -/
theorem delimit_of_isWord {kind : TokenKind} (word : kind.isWord) :
    setting.delimit kind = setting := by
  unfold delimit
  split <;> simp_all [TokenKind.isWord]

/-- Tokens that are no delimiters do not delimit anything. -/
theorem delimit_of_plain {kind : TokenKind}
    (plain : kind ∉ [.openBrace, .closeBrace, .openBracket, .closeBracket]) :
    setting.delimit kind = setting := by
  unfold delimit
  split <;> simp_all

end Setting

/-- What stands between two tokens of a written text. -/
inductive Gap : List Char → Spacing → Prop where
  | none : Gap [] .none
  | space : Gap [' '] { space := true }
  | line : Gap ['\n'] { newline := true }

namespace State

/-- The parser is about to read `text`, and has found no problem so far. -/
structure Faces (state : State) (setting : Setting) (text : List Char) : Prop where
  ahead : state.Ahead
  rest : state.lexer.before.rest = text
  braces : state.lexer.before.braceDepth = setting.braces
  brackets : state.lexer.before.bracketDepth = setting.brackets
  nesting : state.nesting = setting.nesting
  scopes : state.scopes = setting.scopes
  checked : state.checkVariables = setting.checked
  knows : setting.Knows state.declared
  clean : state.diagnostics = []

/-- The parser stands on a token and is about to read `text`. -/
structure Stands (state : State) (setting : Setting) (text : List Char) : Prop
    extends Faces state setting text where
  coherent : state.Coherent
  stop : state.current.span.stop = state.lexer.before.offset

end State

/-- A gap is what separates a token from its predecessor. -/
theorem Gap.scan {gap word rest : List Char} {spacing : Spacing} (gapped : Gap gap spacing)
    (tight : Lexeme.Trivia.scan false (word ++ rest) = .empty) :
    Lexeme.Trivia.scan false (gap ++ (word ++ rest)) = .ofGap gap spacing := by
  cases gapped with
  | none => exact tight
  | space =>
    rw [List.singleton_append, Lexeme.Trivia.scan_space, tight]
    rfl
  | line =>
    rw [List.singleton_append, Lexeme.Trivia.scan_line, tight]
    rfl

namespace State.Faces

variable {state : State} {setting : Setting} {gap word rest : List Char} {spacing : Spacing}
  {kind : TokenKind}

/-- The token ahead, and what is faced behind it. -/
theorem next {text : List Char} {trivia : Lexeme.Trivia} {lexeme : Lexeme}
    (faces : state.Faces setting text) (apart : Lexeme.Trivia.scan false text = trivia)
    (scanned : Lexeme.scan setting.braces setting.brackets (text.drop trivia.length) = lexeme) :
    state.lookahead.kind = lexeme.kind ∧
      state.lookahead.literal = lexeme.literal ((text.drop trivia.length).take lexeme.length) ∧
      state.lookahead.spacing = trivia.spacing ∧
      state.advance.Stands (setting.delimit lexeme.kind)
        ((text.drop trivia.length).drop lexeme.length) := by
  let lexer : Lexer := ⟨state.lexer.before, state.lexer.before⟩
  have gap : lexer.trivia = trivia := by
    rw [Lexer.trivia, ← apart, ← faces.rest]
  have start : lexer.tokenStart = state.lexer.before.advance trivia.length trivia.lines := by
    rw [Lexer.tokenStart, gap]
  have startRest : lexer.tokenStart.rest = text.drop trivia.length := by
    simp [start, Scanner.advance, faces.rest]
  have found : lexer.lexeme = lexeme := by
    rw [Lexer.lexeme, startRest, ← scanned]
    simp [start, Scanner.advance, faces.braces, faces.brackets]
  have read : lexer.next = (state.lookahead, state.lexer) := faces.ahead.read
  have ahead : state.lookahead = lexer.next.1 := by rw [read]
  have behind : state.advance.lexer.before = lexer.next.2.scanner := by
    rw [read]
    rfl
  refine ⟨?_, ?_, ?_, ⟨⟨faces.ahead.advance.toAhead, ?_, ?_, ?_, ?_, ?_, ?_, ?_, ?_⟩,
    faces.ahead.advance, ?_⟩⟩
  · simp [ahead, Lexer.next_eq, found]
  · simp [ahead, Lexer.next_eq, found, Lexer.tokenText, startRest]
  · simp [ahead, Lexer.next_eq, gap]
  · rw [behind, Lexer.next_rest]
    simp [Lexer.tokenStop, found, Scanner.advance, startRest]
  · rw [behind, Lexer.next_braceDepth]
    cases kind : lexeme.kind <;>
      simp [Lexer.tokenStop, Setting.delimit, Scanner.delimit, found, start, kind, Scanner.advance,
        faces.braces]
  · rw [behind, Lexer.next_bracketDepth]
    cases kind : lexeme.kind <;>
      simp [Lexer.tokenStop, Setting.delimit, Scanner.delimit, found, start, kind, Scanner.advance,
        faces.brackets]
  · simp [faces.nesting, State.advance]
  · simp [faces.scopes, State.advance]
  · simp [faces.checked, State.advance]
  · exact faces.knows.congr (setting.delimit_known _) (setting.delimit_barred _)
  · exact faces.clean
  · obtain ⟨_, _, reading⟩ := faces.ahead.reading
    exact reading.offset.symm

/-- Where the token ahead starts. -/
theorem span_start {text : List Char} {trivia : Lexeme.Trivia} (faces : state.Faces setting text)
    (apart : Lexeme.Trivia.scan false text = trivia) :
    ∃ passed, state.source = passed ++ text.drop trivia.length ∧
      state.lookahead.span.start = Text.byteLength passed := by
  obtain ⟨before, whole, counted⟩ := faces.ahead.stands
  have read : Lexer.next ⟨state.lexer.before, state.lexer.before⟩ = _ := faces.ahead.read
  rw [Lexer.next_eq, Prod.mk.injEq] at read
  refine ⟨before ++ text.take trivia.length, ?_, ?_⟩
  · rw [whole, faces.rest, List.append_assoc, List.take_append_drop]
  · simp [← read.1, Lexer.tokenStart, Lexer.trivia, Scanner.advance, faces.rest, apart, counted]

/-- The token of a known spelling, and what is faced behind it. -/
theorem token (faces : state.Faces setting (gap ++ (word ++ rest))) (gapped : Gap gap spacing)
    (spells : Spells setting.braces setting.brackets word rest kind) :
    state.lookahead.kind = kind ∧ state.lookahead.literal = Lexeme.literalOf kind word ∧
      state.lookahead.spacing = spacing ∧ state.advance.Stands (setting.delimit kind) rest := by
  have scanned : Lexeme.scan setting.braces setting.brackets
      ((gap ++ (word ++ rest)).drop gap.length) = ⟨kind, word.length, none⟩ := by
    rw [List.drop_left]
    exact spells.scan
  obtain ⟨sameKind, literal, apart, stands⟩ := faces.next (gapped.scan spells.tight) scanned
  simp only [Lexeme.Trivia.ofGap_length, List.drop_left, List.take_left] at literal stands
  exact ⟨sameKind, literal, apart, stands⟩

/-- The token ahead of a text that starts with a character of its own. -/
theorem starts {char : Char} {text : List Char}
    (faces : state.Faces setting (gap ++ (char :: text)))
    (gapped : Gap gap spacing) (tight : Lexeme.startsTrivia char = false) :
    state.lookahead.kind = (Lexeme.scan setting.braces setting.brackets (char :: text)).kind ∧
      state.lookahead.spacing = spacing := by
  have trivia : Lexeme.Trivia.scan false (gap ++ ([char] ++ text)) = .ofGap gap spacing :=
    gapped.scan (Lexeme.Trivia.scan_tight text tight)
  obtain ⟨kind, -, apart, -⟩ := faces.next trivia rfl
  rw [Lexeme.Trivia.ofGap_length, List.drop_left] at kind
  exact ⟨kind, apart⟩

/-- No boundary is ahead of a text that starts with a piece of a word. -/
theorem startsPiece {text : List Char} (faces : state.Faces setting (gap ++ (text ++ rest)))
    (gapped : Gap gap spacing) (starts : Lexeme.Starts text) :
    state.lookahead.kind ∉ Lexeme.boundaries ∧ state.lookahead.spacing = spacing := by
  obtain ⟨char, later, rfl, piece⟩ := starts
  have tight := Lexeme.startsTrivia_of_startsPiece piece
  obtain ⟨kind, apart⟩ := State.Faces.starts faces gapped tight
  refine ⟨?_, apart⟩
  rw [kind]
  exact Lexeme.scan_kind_of_startsPiece piece

/-- An operand is ahead of a text that starts like one. -/
theorem startsOperand {text : List Char}
    (faces : state.Faces setting (gap ++ (text ++ rest))) (gapped : Gap gap spacing)
    (starts : text.head?.any Lexeme.startsOperand) :
    state.lookahead.kind ∉ Lexeme.closers ∧ state.lookahead.spacing = spacing := by
  cases text with
  | nil => simp at starts
  | cons char later =>
    have operand : Lexeme.startsOperand char := by simpa using starts
    obtain ⟨kind, apart⟩ :=
      State.Faces.starts faces gapped (Lexeme.startsTrivia_of_startsOperand operand)
    refine ⟨?_, apart⟩
    rw [kind]
    exact Lexeme.scan_kind_of_startsOperand operand

theorem spacing_eq {text : List Char} (faces : state.Faces setting text) :
    state.lookahead.spacing = (Lexeme.Trivia.scan false text).spacing :=
  (faces.next rfl rfl).2.2.1

theorem space_of_cons (faces : state.Faces setting (' ' :: rest)) :
    state.lookahead.spacing.space = true := by
  rw [faces.spacing_eq, Lexeme.Trivia.scan_space]
  rfl

theorem newline_of_cons (faces : state.Faces setting ('\n' :: rest)) :
    state.lookahead.spacing.newline = true := by
  rw [faces.spacing_eq, Lexeme.Trivia.scan_line]
  rfl

/-- Nothing but the end of the text is ahead of no text. -/
theorem atEnd (faces : state.Faces setting []) : state.lookahead.kind = .endOfInput := by
  have spells : Spells setting.braces setting.brackets [] [] .endOfInput := ⟨rfl, rfl⟩
  exact (token faces .none spells).1

end State.Faces

/-! ## Changes that read nothing -/

/-- The setting inside a construct. -/
def Setting.inside (setting : Setting) (nesting : Nesting) : Setting :=
  { setting with nesting := nesting :: setting.nesting }

/-- The setting in which a snippet is read. -/
def Setting.snippet (setting : Setting) (nesting : Nesting) : Setting :=
  { nesting := [nesting], checked := false, known := setting.known, barred := setting.barred }

/-- The setting behind a command that excludes others. -/
def Setting.excluding (setting : Setting) (set : Exclusives) : Setting :=
  { setting with scopes := { setting.scopes with current := setting.scopes.current.union set } }

@[simp]
theorem Setting.excluding_empty (setting : Setting) : setting.excluding .empty = setting := by
  simp [excluding, Exclusives.union, Exclusives.empty]

/-- The setting in which further variables are known. -/
def Setting.knowing (setting : Setting) (more : List String) : Setting :=
  { setting with known := setting.known ++ more }

@[simp]
theorem Setting.knowing_nil (setting : Setting) : setting.knowing [] = setting := by
  simp [knowing]

theorem Setting.knowing_knowing (setting : Setting) (first second : List String) :
    (setting.knowing first).knowing second = setting.knowing (first ++ second) := by
  simp [knowing]

/-- None of the variables is barred. -/
def Setting.Spares (setting : Setting) (names : List String) : Prop :=
  ∀ name ∈ names, name ∉ setting.barred

namespace Setting.Knows

variable {setting : Setting} {declared more fewer : List String}

/-- Variables that are declared are known from then on. -/
theorem declareAll (knows : setting.Knows declared) (spared : setting.Spares more) :
    (setting.knowing more).Knows (Naming.addAll declared more) := by
  refine ⟨fun name inside => ?_, fun name barred inside => ?_⟩
  · rw [knowing, List.mem_append] at inside
    exact Naming.mem_addAll_iff.2 (inside.imp_left (knows.known name))
  · rcases Naming.mem_addAll_iff.1 inside with before | added
    · exact knows.barred name barred before
    · exact spared name added barred

/-- What a snippet declared is declared from then on. -/
theorem absorb (knows : setting.Knows declared) {others : List String}
    (behind : (setting.knowing more).Knows others) :
    (setting.knowing more).Knows (Naming.addAll declared others) := by
  refine ⟨fun name inside => Naming.mem_addAll_iff.2 (.inr (behind.known name inside)),
    fun name barred inside => ?_⟩
  exact (Naming.mem_addAll_iff.1 inside).elim (knows.barred name barred)
    (behind.barred name barred)

/-- Variables that are known need not be. -/
theorem retain (knows : (setting.knowing more).Knows declared) (among : fewer ⊆ more) :
    (setting.knowing fewer).Knows declared := by
  refine ⟨fun name inside => ?_, knows.barred⟩
  simp only [knowing, List.mem_append] at inside
  exact knows.known name (List.mem_append.2 (inside.imp_right fun known => among known))

theorem forget (knows : (setting.knowing more).Knows declared) : setting.Knows declared := by
  simpa using knows.retain (List.nil_subset more)

end Setting.Knows

/-- The setting behind a statement. -/
def Setting.after (setting : Setting) (exclusives : Exclusives) (declared : List String) :
    Setting :=
  (setting.excluding exclusives).knowing declared

namespace State

/-- Facing a text is a matter of the lexer and of what surrounds it. -/
theorem Faces.congr {state other : State} {setting changed : Setting} {rest : List Char}
    (faces : state.Faces setting rest) (source : other.source = state.source)
    (lexer : other.lexer = state.lexer) (lookahead : other.lookahead = state.lookahead)
    (braceCount : other.braceCount = state.braceCount) (braces : changed.braces = setting.braces)
    (brackets : changed.brackets = setting.brackets) (nesting : other.nesting = changed.nesting)
    (scopes : other.scopes = changed.scopes) (checked : other.checkVariables = changed.checked)
    (knows : changed.Knows other.declared) (clean : other.diagnostics = []) :
    other.Faces changed rest where
  ahead := by
    refine ⟨?_, ?_, ?_⟩
    · rw [lexer, lookahead]
      exact faces.ahead.read
    · rw [lexer, source]
      exact faces.ahead.stands
    · rw [lexer, braceCount]
      exact faces.ahead.braces
  rest := by rw [lexer, faces.rest]
  braces := by rw [lexer, faces.braces, braces]
  brackets := by rw [lexer, faces.brackets, brackets]
  nesting := nesting
  scopes := scopes
  checked := checked
  knows := knows
  clean := clean

/-- A snippet has been read to its end without a problem, and the declared variables are as the
setting says. -/
structure Completed (state : State) (setting : Setting) : Prop where
  clean : state.diagnostics = []
  knows : setting.Knows state.declared

/-- Passing a token neither reports nor declares anything. -/
theorem Faces.completed {state : State} {setting : Setting} {rest : List Char}
    (faces : state.Faces setting rest) : state.advance.Completed setting :=
  ⟨faces.clean, faces.knows⟩

theorem Faces.forget {state : State} {setting : Setting} {names : List String} {rest : List Char}
    (faces : state.Faces (setting.knowing names) rest) : state.Faces setting rest :=
  faces.congr rfl rfl rfl rfl rfl rfl faces.nesting faces.scopes faces.checked
    faces.knows.forget faces.clean

namespace Stands

variable {state : State} {setting : Setting} {rest : List Char}

/-- Standing in front of a text is a matter of the tokens and of what surrounds them. -/
theorem congr {other : State} {changed : Setting} (stands : state.Stands setting rest)
    (source : other.source = state.source)
    (lexer : other.lexer = state.lexer) (current : other.current = state.current)
    (lookahead : other.lookahead = state.lookahead)
    (braceCount : other.braceCount = state.braceCount) (braces : changed.braces = setting.braces)
    (brackets : changed.brackets = setting.brackets) (nesting : other.nesting = changed.nesting)
    (scopes : other.scopes = changed.scopes) (checked : other.checkVariables = changed.checked)
    (knows : changed.Knows other.declared) (clean : other.diagnostics = []) :
    other.Stands changed rest where
  toFaces := stands.toFaces.congr source lexer lookahead braceCount braces brackets nesting scopes
    checked knows clean
  coherent := stands.coherent.congr source lexer current lookahead braceCount
  stop := by rw [current, lexer, stands.stop]

theorem enter (stands : state.Stands setting rest) (nesting : Nesting) :
    (state.enter nesting).Stands (setting.inside nesting) rest :=
  stands.congr rfl rfl rfl rfl rfl rfl rfl (by simp [State.enter, Setting.inside, stands.nesting])
    stands.scopes stands.checked (stands.knows.congr rfl rfl) stands.clean

theorem leave {nesting : Nesting} (stands : state.Stands (setting.inside nesting) rest) :
    state.leave.Stands setting rest :=
  stands.congr rfl rfl rfl rfl rfl rfl rfl (by simp [State.leave, stands.nesting, Setting.inside])
    stands.scopes stands.checked (stands.knows.congr rfl rfl) stands.clean

/-- Declaring knows. -/
theorem declareAll (stands : state.Stands setting rest) {names : List String}
    (spared : setting.Spares names) :
    { state with declared := Naming.addAll state.declared names }.Stands (setting.knowing names)
      rest :=
  stands.congr rfl rfl rfl rfl rfl rfl rfl stands.nesting stands.scopes stands.checked
    (stands.knows.declareAll spared) stands.clean

theorem declare (stands : state.Stands setting rest) {name : String}
    (spared : setting.Spares [name]) : (state.declare name).Stands (setting.knowing [name]) rest :=
  stands.declareAll spared

/-- Variables that are known need not be. -/
theorem retain {more fewer : List String} (stands : state.Stands (setting.knowing more) rest)
    (among : fewer ⊆ more) : state.Stands (setting.knowing fewer) rest :=
  stands.congr rfl rfl rfl rfl rfl rfl rfl stands.nesting stands.scopes stands.checked
    (stands.knows.retain among) stands.clean

theorem forget {names : List String} (stands : state.Stands (setting.knowing names) rest) :
    state.Stands setting rest := by
  simpa using stands.retain (List.nil_subset names)

/-- Taking over the findings of a snippet without problems. -/
theorem absorb (stands : state.Stands setting rest) {snippet : State} {names : List String}
    (completed : snippet.Completed (setting.knowing names)) :
    (state.absorb snippet).Stands (setting.knowing names) rest :=
  stands.congr rfl rfl rfl rfl rfl rfl rfl stands.nesting stands.scopes stands.checked
    (stands.knows.absorb completed.knows)
    (by simp [State.absorb, stands.clean, completed.clean])

end Stands

end State

/-! ## Problems on the way -/

namespace State

/-- The state without the problems found so far. -/
def quiet (state : State) : State :=
  { state with diagnostics := [] }

theorem quiet_eq {state : State} (clean : state.diagnostics = []) : state.quiet = state := by
  rw [quiet, ← clean]

/-- The parser stands in front of `text`, and the problems found so far are among those
that are put up with. -/
structure Awaits (state : State) (reported : List Diagnostic → Prop) (setting : Setting)
    (text : List Char) : Prop where
  stands : state.quiet.Stands setting text
  found : reported state.diagnostics

/-- Without problems, waiting for a text is standing in front of it. -/
theorem awaits_iff_stands {state : State} {setting : Setting} {text : List Char} :
    state.Awaits (· = []) setting text ↔ state.Stands setting text := by
  constructor
  · rintro ⟨stands, clean⟩
    rwa [quiet_eq clean] at stands
  · intro stands
    exact ⟨by rwa [quiet_eq stands.clean], stands.clean⟩

namespace Awaits

variable {state : State} {reported : List Diagnostic → Prop} {setting : Setting}
  {gap word rest : List Char} {spacing : Spacing} {kind : TokenKind}

theorem coherent (awaits : state.Awaits reported setting rest) : state.Coherent :=
  awaits.stands.coherent.congr rfl rfl rfl rfl rfl

/-- The token of a known spelling, and what is awaited behind it. -/
theorem token (awaits : state.Awaits reported setting (gap ++ (word ++ rest)))
    (gapped : Gap gap spacing) (spells : Spells setting.braces setting.brackets word rest kind) :
    state.lookahead.kind = kind ∧ state.lookahead.literal = Lexeme.literalOf kind word ∧
      state.lookahead.spacing = spacing ∧
      state.advance.Awaits reported (setting.delimit kind) rest := by
  obtain ⟨sameKind, literal, apart, stands⟩ := awaits.stands.toFaces.token gapped spells
  exact ⟨sameKind, literal, apart, stands, awaits.found⟩

theorem enter (awaits : state.Awaits reported setting rest) (nesting : Nesting) :
    (state.enter nesting).Awaits reported (setting.inside nesting) rest :=
  ⟨awaits.stands.enter nesting, awaits.found⟩

theorem leave {nesting : Nesting} (awaits : state.Awaits reported (setting.inside nesting) rest) :
    state.leave.Awaits reported setting rest :=
  ⟨awaits.stands.leave, awaits.found⟩

/-- Declaring knows. -/
theorem declareAll (awaits : state.Awaits reported setting rest) {names : List String}
    (spared : setting.Spares names) :
    ({ state with declared := Naming.addAll state.declared names } : State).Awaits reported
      (setting.knowing names) rest :=
  ⟨awaits.stands.declareAll spared, awaits.found⟩

theorem declare (awaits : state.Awaits reported setting rest) {name : String}
    (spared : setting.Spares [name]) :
    (state.declare name).Awaits reported (setting.knowing [name]) rest :=
  ⟨awaits.stands.declare spared, awaits.found⟩

/-- Reporting a problem that is put up with. -/
theorem record {later : List Diagnostic → Prop} {diagnostic : Diagnostic}
    (awaits : state.Awaits reported setting rest)
    (found : later (state.diagnostics ++ [diagnostic])) :
    (state.record diagnostic).Awaits later setting rest :=
  ⟨awaits.stands, found⟩

end Awaits

end State

/-! ## Problems in order -/

/-- The diagnostics are about the problems, in order. -/
def Reports (problems : List Problem) (diagnostics : List Diagnostic) : Prop :=
  List.Forall₂ (fun problem diagnostic => ∃ line, diagnostic = Problem.diagnostic problem line)
    problems diagnostics

theorem reports_nil_iff {diagnostics : List Diagnostic} :
    Reports [] diagnostics ↔ diagnostics = [] :=
  List.forall₂_nil_left_iff

theorem Reports.concat {problems : List Problem} {diagnostics : List Diagnostic}
    (reports : Reports problems diagnostics) (problem : Problem) (line : Nat) :
    Reports (problems ++ [problem]) (diagnostics ++ [problem.diagnostic line]) :=
  List.rel_append reports (.cons ⟨line, rfl⟩ .nil)

namespace State

variable {state : State} {setting : Setting} {rest : List Char}

/-- Nothing has been reported where the parser stands. -/
theorem Stands.awaits (stands : state.Stands setting rest) :
    state.Awaits (Reports []) setting rest :=
  ⟨by rwa [quiet_eq stands.clean], reports_nil_iff.2 stands.clean⟩

/-- The parser stands where nothing has been reported. -/
theorem Awaits.unreported (awaits : state.Awaits (Reports []) setting rest) :
    state.Stands setting rest := by
  have stands := awaits.stands
  rwa [quiet_eq (reports_nil_iff.1 awaits.found)] at stands

theorem Awaits.faces {reported : List Diagnostic → Prop}
    (awaits : state.Awaits reported setting rest) : state.quiet.Faces setting rest :=
  awaits.stands.toFaces

end State

/-! ## Where words and commands end -/

/-- A word read with the given glue ends in front of the text. -/
structure Setting.Stops (setting : Setting) (glue : Glue) (rest : List Char) : Prop where
  severs : Severs rest
  apart : ∀ state : State, state.Faces setting rest → glue.holds state = false
  noParen : ∀ state : State, state.Faces setting rest → state.parenGlued = false

/-- A command ends in front of the text. -/
structure Setting.Closes (setting : Setting) (rest : List Char) : Prop where
  severs : Severs rest
  ends : ∀ state : State, state.Faces setting rest → state.endsCommand = true

/-- A separated token glues onto nothing. -/
theorem holds_of_apart {state : State} (glue : Glue)
    (apart : state.lookahead.spacing.isAdjacent = false) :
    glue.holds state = false ∧ state.parenGlued = false := by
  cases glue <;> simp [Glue.holds, State.glues, State.parenGlued, apart]

namespace Setting

variable {setting : Setting} {rest : List Char}

theorem Stops.breaks {glue : Glue} (stops : setting.Stops glue rest) : Breaks rest :=
  stops.severs.breaks

theorem Closes.breaks (closes : setting.Closes rest) : Breaks rest :=
  closes.severs.breaks

/-- Where a word ends is no matter of the variables that are known. -/
theorem Stops.knowing {glue : Glue} (stops : setting.Stops glue rest) (names : List String) :
    (setting.knowing names).Stops glue rest :=
  ⟨stops.severs, fun state faces => stops.apart state faces.forget,
    fun state faces => stops.noParen state faces.forget⟩

theorem Closes.knowing (closes : setting.Closes rest) (names : List String) :
    (setting.knowing names).Closes rest :=
  ⟨closes.severs, fun state faces => closes.ends state faces.forget⟩

/-- Where a command ends, its last word does. -/
theorem Closes.stops (closes : setting.Closes rest) (glue : Glue) : setting.Stops glue rest := by
  have apart : ∀ state : State, state.Faces setting rest →
      glue.holds state = false ∧ state.parenGlued = false := by
    intro state faces
    have ends := closes.ends state faces
    simp only [State.endsCommand, Bool.or_eq_true, Bool.and_eq_true] at ends
    rcases ends with terminator | ⟨newline, -⟩
    · have notParen : state.lookahead.kind ≠ .openParen := by
        intro paren
        simp [paren, TokenKind.isTerminator] at terminator
      cases glue <;> simp [Glue.holds, State.glues, State.parenGlued, terminator, notParen]
    · exact holds_of_apart glue (by simp [Spacing.isAdjacent, newline])
  exact ⟨closes.severs, fun state faces => (apart state faces).1,
    fun state faces => (apart state faces).2⟩

/-- Words end in front of a blank. -/
theorem stops_space (glue : Glue) : setting.Stops glue (' ' :: rest) where
  severs := by simp [Severs, Lexeme.isWordChar, Lexeme.isNameChar]
  apart := fun _ faces => (holds_of_apart glue
    (by simp [Spacing.isAdjacent, faces.space_of_cons])).1
  noParen := fun _ faces =>
    (holds_of_apart glue (by simp [Spacing.isAdjacent, faces.space_of_cons])).2

/-- Commands end at the end of the text. -/
theorem closes_nil : setting.Closes [] where
  severs := by simp [Severs]
  ends := fun _ faces => by simp [State.endsCommand, faces.atEnd, TokenKind.isTerminator]

/-- Commands of a script end with their line. -/
theorem closes_line {outer : List Nesting} (inScript : setting.nesting = .script :: outer) :
    setting.Closes ('\n' :: rest) where
  severs := by simp [Severs, Lexeme.isWordChar, Lexeme.isNameChar]
  ends := fun _ faces => by
    simp [State.endsCommand, faces.newline_of_cons, State.newlineEndsCommand,
      faces.nesting, inScript]

/-- Commands end in front of a token that terminates them. -/
theorem closes_token {char : Char} {kind : TokenKind} (severs : Severs (char :: rest))
    (spells : Spells setting.braces setting.brackets [char] rest kind)
    (terminator : kind.isTerminator) : setting.Closes (char :: rest) where
  severs := severs
  ends := fun state faces => by
    have faced : state.Faces setting ([] ++ ([char] ++ rest)) := faces
    obtain ⟨kind, -⟩ := faced.token .none spells
    simp [State.endsCommand, kind, terminator]

theorem closes_semicolon : setting.Closes (';' :: rest) :=
  closes_token (by simp [Severs, Lexeme.isWordChar, Lexeme.isNameChar]) .semicolon rfl

theorem closes_bracket (opened : 0 < setting.brackets) : setting.Closes (']' :: rest) :=
  closes_token (by simp [Severs, Lexeme.isWordChar, Lexeme.isNameChar]) (.closeBracket opened) rfl

end Setting

end Parser

end IRule
