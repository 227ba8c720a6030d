import IRule.Parser.Basic
import IRule.Proofs.Parser.Quotation
import IRule.Proofs.Parser.Run

/-!
# Accounting for diagnostics and nodes

A state is sound when the parser gets to it on its way through the rule and all of its
diagnostics are fair. `Accounts` says of two computations that the second ends as the
first does, in a sound state, and what is known of the result then. The second may run
over a grammar that answers only in sound states: that it ends alike says that no
production is ever started in another one. `Lawful` asks of every production that its
result is drawn from the rule.
-/

namespace IRule

open Text

/-! ## Tokens of a piece of the rule -/

section Tokens

variable {whole before source after : List Char} {token : Token}

/-- The line of a place of a piece of the rule is a line of the rule. -/
theorem hasLine_of_piece {passed rest : List Char} (stands : whole = before ++ (source ++ after))
    (split : source = passed ++ rest) :
    HasLine whole (1 + before.count '\n' + passed.count '\n') := by
  rw [HasLine, stands, split]
  simp only [List.count_append]
  omega

/-- A token of a piece of the rule has a line of the rule. -/
theorem Token.Located.hasLine (located : token.Located source (1 + before.count '\n'))
    (stands : whole = before ++ (source ++ after)) : HasLine whole token.line := by
  obtain ⟨passed, text, rest, split, token⟩ := located.stands
  rw [token.line]
  exact hasLine_of_piece stands split

/-- What the parser makes of a string stands in the text between quotes. -/
theorem Token.Located.quotes_literal {first : Nat} (located : token.Located source first)
    (stands : source <:+: whole) : Quotes whole token.literal := by
  by_cases string : token.kind = .string
  · obtain ⟨passed, text, rest, split, token⟩ := located.stands
    refine quotes_of_stands (List.IsInfix.trans ⟨passed ++ ['"'], '"' :: rest, ?_⟩ stands)
    simp [split, token.quoted string]
  · exact quotes_of_oneLine (located.oneLine string)

/-- What a message says of a string stands in the text with its quotes. -/
theorem Token.Located.quotes_description {first : Nat} (located : token.Located source first)
    (stands : source <:+: whole) : Quotes whole token.description := by
  by_cases string : token.kind = .string
  · obtain ⟨passed, text, rest, split, token⟩ := located.stands
    refine quotes_of_stands (List.IsInfix.trans ⟨passed, rest, ?_⟩ stands)
    simp [description, string, split, token.quoted string]
  · have oneLine := located.oneLine string
    refine quotes_of_oneLine ?_
    unfold description
    split <;> simp_all

end Tokens

namespace Parser

/-! ## Sound states -/

/-- The parser of a rule gets to the state, and everything it has reported is fair. -/
structure Sound (source : List Char) (declared : List String) (state : State) : Prop where
  visited : ∃ before, Visits (.start source declared) before state
  fair : ∀ diagnostic ∈ state.diagnostics, diagnostic.Fair source

namespace Sound

variable {source : List Char} {declared : List String} {state next : State}

/-- The parser of a rule starts in a sound state: nothing is reported yet. -/
theorem start (source : List Char) (declared : List String) :
    Sound source declared (.start source declared) where
  visited := ⟨[], .refl⟩
  fair := by simp [State.start, State.blank, State.advance]

/-- A sound state stands at some place of the rule, below snippets as well. -/
theorem placed (sound : Sound source declared state) :
    ∃ before, state.Placed source before := by
  obtain ⟨before, visits⟩ := sound.visited
  exact ⟨before, visits.placed (start_placed source declared)⟩

/-- The tokens and the lexer of a sound state fit together. -/
theorem coherent (sound : Sound source declared state) : state.Coherent := by
  obtain ⟨before, placed⟩ := sound.placed
  exact placed.coherent

/-- The text of the state stands in the rule. -/
theorem source_stands (sound : Sound source declared state) : state.source <:+: source := by
  obtain ⟨before, placed⟩ := sound.placed
  obtain ⟨after, stands⟩ := placed.stands
  exact ⟨before, after, by simp [stands]⟩

section Tokens

/-- The line of the current token is a line of the rule. -/
theorem line (sound : Sound source declared state) : HasLine source state.current.line := by
  obtain ⟨before, placed⟩ := sound.placed
  obtain ⟨after, stands⟩ := placed.stands
  exact placed.aligned.current.hasLine stands

/-- The line of the token ahead is a line of the rule. -/
theorem lineAhead (sound : Sound source declared state) : HasLine source state.lookahead.line := by
  obtain ⟨before, placed⟩ := sound.placed
  obtain ⟨after, stands⟩ := placed.stands
  exact placed.aligned.lookahead.hasLine stands

/-- The text of the current token stands in the rule, if it takes more than one line. -/
theorem literal (sound : Sound source declared state) : Quotes source state.current.literal := by
  obtain ⟨before, placed⟩ := sound.placed
  exact placed.aligned.current.quotes_literal sound.source_stands

/-- So does what a message says of the current token. -/
theorem description (sound : Sound source declared state) :
    Quotes source state.current.description := by
  obtain ⟨before, placed⟩ := sound.placed
  exact placed.aligned.current.quotes_description sound.source_stands

/-- So does what a message says of the token ahead. -/
theorem descriptionAhead (sound : Sound source declared state) :
    Quotes source state.lookahead.description := by
  obtain ⟨before, placed⟩ := sound.placed
  exact placed.aligned.lookahead.quotes_description sound.source_stands

/-- Only strings take more than one line. -/
theorem oneLine (sound : Sound source declared state) (unquoted : state.current.kind ≠ .string) :
    '\n' ∉ state.current.literal.toList := by
  obtain ⟨before, placed⟩ := sound.placed
  exact placed.aligned.current.oneLine unquoted

end Tokens

/-- A slice of the text stands in the rule. -/
theorem slice (sound : Sound source declared state) (span : Span) :
    Quotes source (state.slice span) := by
  refine quotes_of_stands ?_
  rw [State.slice, String.toList_ofList]
  exact (slice_stands state.source span).trans sound.source_stands

/-- The errors of the lexer are fair. -/
theorem fair_lexical (sound : Sound source declared state) {error : LexicalError}
    (mem : error ∈ state.lexer.errors) : error.diagnostic.Fair source := by
  obtain ⟨before, placed⟩ := sound.placed
  obtain ⟨after, stands⟩ := placed.stands
  have located := placed.aligned.lexer.errors error mem
  have real : HasLine source error.line := by
    obtain ⟨passed, rest, split, -, line⟩ := located.stands
    rw [line]
    exact hasLine_of_piece stands split
  refine Diagnostic.fair_of_oneLine ?_ real ?_ ?_
  · exact Diagnostic.error_line error.fault.code error.fault.message real
  · exact Diagnostic.error_notes error.fault.code error.fault.message error.line
  · have message : error.diagnostic.message = error.fault.message :=
      Diagnostic.error_message error.fault.code error.fault.message error.line
    rw [message]
    exact located.oneLine

/-! ### Steps -/

/-- A step of the parser that reports nothing leads from one sound state to another. -/
theorem step (sound : Sound source declared state) (step : Step state next)
    (same : next.diagnostics = state.diagnostics) : Sound source declared next where
  visited := by
    obtain ⟨before, visits⟩ := sound.visited
    exact ⟨before, visits.step step⟩
  fair := by rw [same]; exact sound.fair

theorem advance (sound : Sound source declared state) : Sound source declared state.advance :=
  sound.step (.advance state) rfl

/-- A fair report keeps a state sound. The balance is left out: it is reported behind the
rule only. -/
theorem record (sound : Sound source declared state) {diagnostic : Diagnostic}
    (code : diagnostic.code ≠ .unbalancedBraces) (fair : diagnostic.Fair source) :
    Sound source declared (state.record diagnostic) where
  visited := by
    obtain ⟨before, visits⟩ := sound.visited
    exact ⟨before, visits.step (.record state code)⟩
  fair := by
    intro reported mem
    rcases List.mem_append.1 mem with earlier | latest
    · exact sound.fair reported earlier
    · rw [List.mem_singleton.1 latest]
      exact fair

/-- The parser of a snippet starts in a sound state. -/
theorem snippet (sound : Sound source declared state) {passed : List Char} {inner : State}
    (embeds : state.Embeds passed inner) : Sound source declared inner where
  visited := by
    obtain ⟨before, visits⟩ := sound.visited
    exact ⟨_, visits.snippet embeds⟩
  fair := by
    cases embeds <;> simp [State.snippet, State.blank, State.advance]

end Sound

/-! ## Computations -/

/-- If the first computation ends, the second ends alike, in a sound state and with a
result that is as described. -/
def Accounts {α : Type} (source : List Char) (declared : List String) (first second : Parse α)
    (state : State) (known : α → State → Prop) : Prop :=
  ∀ result last, first state = some (result, last) →
    second state = some (result, last) ∧ Sound source declared last ∧ known result last

namespace Accounts

variable {α β : Type} {source : List Char} {declared : List String} {state : State}

theorem pure {value : α} {known : α → State → Prop} (sound : Sound source declared state)
    (holds : known value state) :
    Accounts source declared (Pure.pure value) (Pure.pure value) state known := by
  intro result last runs
  cases runs
  exact ⟨rfl, sound, holds⟩

/-- What is known of the result may be weakened, with a sound state at hand. -/
theorem mono {first second : Parse α} {known better : α → State → Prop}
    (accounts : Accounts source declared first second state known)
    (implies : ∀ result last, Sound source declared last → known result last →
      better result last) :
    Accounts source declared first second state better := by
  intro result last runs
  obtain ⟨alike, sound, holds⟩ := accounts result last runs
  exact ⟨alike, sound, implies result last sound holds⟩

theorem trivial {first second : Parse α} {known : α → State → Prop}
    (accounts : Accounts source declared first second state known) :
    Accounts source declared first second state fun _ _ => True :=
  accounts.mono fun _ _ _ _ => True.intro

/-- The second part starts alike in a sound state, for the first has ended alike in one.
-/
theorem bind {first second : Parse α} {next later : α → Parse β} {known : α → State → Prop}
    {final : β → State → Prop} (accounts : Accounts source declared first second state known)
    (goesOn : ∀ value middle, Sound source declared middle → known value middle →
      Accounts source declared (next value) (later value) middle final) :
    Accounts source declared (first >>= next) (second >>= later) state final := by
  intro result last runs
  obtain ⟨value, middle, left, right⟩ := bind_eq_some runs
  obtain ⟨alike, sound, holds⟩ := accounts value middle left
  obtain ⟨same, onward, ends⟩ := goesOn value middle sound holds result last right
  exact ⟨(congrArg (Option.bind · _) alike).trans same, onward, ends⟩

/-- A construct that is given up with the one it needs. -/
theorem keep {first second : Parse (Option α)} {next later : Option α → Parse (Option β)}
    {known : α → State → Prop} {final : β → State → Prop}
    (accounts : Accounts source declared first second state fun result last =>
      ∀ value ∈ result, known value last)
    (absent : next none = Pure.pure none) (alike : later none = Pure.pure none)
    (goesOn : ∀ value middle, Sound source declared middle → known value middle →
      Accounts source declared (next (some value)) (later (some value)) middle fun result last =>
        ∀ value ∈ result, final value last) :
    Accounts source declared (first >>= next) (second >>= later) state fun result last =>
      ∀ value ∈ result, final value last := by
  refine accounts.bind fun value middle sound holds => ?_
  cases value with
  | none =>
    rw [absent, alike]
    exact .pure sound (by simp)
  | some value => exact goesOn value middle sound (holds value rfl)

/-- What is made of a result that was kept. -/
theorem mapped {first second : Parse (Option α)} {build : α → β} {known : α → State → Prop}
    {final : β → State → Prop}
    (accounts : Accounts source declared first second state fun result last =>
      ∀ value ∈ result, known value last)
    (implies : ∀ value last, Sound source declared last → known value last →
      final (build value) last) :
    Accounts source declared (first >>= fun result => Pure.pure (result.map build))
      (second >>= fun result => Pure.pure (result.map build)) state
      fun result last => ∀ value ∈ result, final value last := by
  refine accounts.bind fun result middle sound holds => .pure sound ?_
  simpa using fun value found => implies value middle sound (holds value found)

/-! ### Looking at the state -/

section Look

variable {final : β → State → Prop}

@[simp]
theorem get_bind {next later : State → Parse β} :
    Accounts source declared (get >>= next) (get >>= later) state final ↔
      Accounts source declared (next state) (later state) state final := Iff.rfl

@[simp]
theorem current_bind {next later : Token → Parse β} :
    Accounts source declared (current >>= next) (current >>= later) state final ↔
      Accounts source declared (next state.current) (later state.current) state final := Iff.rfl

@[simp]
theorem lookahead_bind {next later : Token → Parse β} :
    Accounts source declared (lookahead >>= next) (lookahead >>= later) state final ↔
      Accounts source declared (next state.lookahead) (later state.lookahead) state final := Iff.rfl

@[simp]
theorem endsCommand_bind {next later : Bool → Parse β} :
    Accounts source declared (endsCommand >>= next) (endsCommand >>= later) state final ↔
      Accounts source declared (next state.endsCommand) (later state.endsCommand) state final :=
  Iff.rfl

@[simp]
theorem isAhead_bind {kind : TokenKind} {next later : Bool → Parse β} :
    Accounts source declared (isAhead kind >>= next) (isAhead kind >>= later) state final ↔
      Accounts source declared (next (state.lookahead.kind == kind))
        (later (state.lookahead.kind == kind)) state final := Iff.rfl

end Look

/-! ### Changing the state -/

/-- An action that always gives one result and one state. -/
theorem run {action : Parse α} {value : α} {changed : State} {known : α → State → Prop}
    (runs : action state = some (value, changed)) (sound : Sound source declared changed)
    (holds : known value changed) : Accounts source declared action action state known := by
  intro result last ends
  obtain ⟨rfl, rfl⟩ : value = result ∧ changed = last := by simpa [runs] using ends
  exact ⟨runs, sound, holds⟩

/-- Going on after such an action. -/
theorem run_bind {action : Parse α} {value : α} {changed : State} {next later : α → Parse β}
    {final : β → State → Prop} (runs : action state = some (value, changed))
    (goesOn : Accounts source declared (next value) (later value) changed final) :
    Accounts source declared (action >>= next) (action >>= later) state final := by
  intro result last ends
  obtain ⟨_, _, left, right⟩ := bind_eq_some ends
  rw [runs] at left
  cases left
  obtain ⟨alike, onward, holds⟩ := goesOn result last right
  exact ⟨(congrArg (Option.bind · _) runs).trans alike, onward, holds⟩

section Change

variable {next later : Unit → Parse β} {final : β → State → Prop}

theorem advance (sound : Sound source declared state) :
    Accounts source declared Parser.advance Parser.advance state fun _ _ => True :=
  run rfl sound.advance True.intro

theorem advance_bind (goesOn : Accounts source declared (next ()) (later ()) state.advance final) :
    Accounts source declared (Parser.advance >>= next) (Parser.advance >>= later) state final :=
  run_bind rfl goesOn

end Change

/-! ### Reports -/

section Report

variable {problem : Problem} {line : Nat}

/-- A problem at a line of the rule. -/
theorem report (sound : Sound source declared state) (real : HasLine source line)
    (told : problem.Told source) (plain : ∀ depth, problem ≠ .unbalanced depth) :
    Accounts source declared (Parser.report problem line) (Parser.report problem line) state
      fun _ last => last.current = state.current :=
  run rfl (sound.record (problem.diagnostic_code_ne plain line) (told.fair real)) rfl

/-- A problem at the current token. -/
theorem reportHere (sound : Sound source declared state) (told : problem.Told source)
    (plain : ∀ depth, problem ≠ .unbalanced depth) :
    Accounts source declared (Parser.reportHere problem) (Parser.reportHere problem) state
      fun _ last => last.current = state.current :=
  report sound sound.line told plain

/-- A problem at the token ahead, which may quote it. -/
theorem reportAhead {problem : String → Problem} (sound : Sound source declared state)
    (told : (problem state.lookahead.description).Told source)
    (plain : ∀ text depth, problem text ≠ .unbalanced depth) :
    Accounts source declared (Parser.reportAhead problem) (Parser.reportAhead problem) state
      fun _ last => last.current = state.current :=
  report sound sound.lineAhead told (plain _)

/-- A construct is given up after a report. -/
theorem giveUp {action : Parse Unit} {reported : Unit → State → Prop} {known : α → State → Prop}
    (accounts : Accounts source declared action action state reported) :
    Accounts source declared (action >>= fun _ => Pure.pure none)
      (action >>= fun _ => Pure.pure none) state
      fun result last => ∀ value ∈ result, known value last :=
  accounts.bind fun _ _ sound _ => .pure sound (by simp)

/-- An illegal token is reported, and nothing is made of it. -/
theorem reportIllegal {known : α → State → Prop} (sound : Sound source declared state)
    (illegal : state.current.kind = .illegal) :
    Accounts source declared (Parser.reportIllegal >>= fun _ => Pure.pure none)
      (Parser.reportIllegal >>= fun _ => Pure.pure none) state
      fun result last => ∀ value ∈ result, known value last := by
  refine run_bind rfl (pure ?_ (by simp))
  split
  case h_1 error found =>
    exact sound.record error.diagnostic_code_ne
      (sound.fair_lexical (List.mem_of_find?_eq_some found))
  case h_2 =>
    refine sound.record (by simp) ?_
    refine Diagnostic.fair_of_oneLine (Diagnostic.error_line _ _ sound.line) sound.line
      (Diagnostic.error_notes _ _ _) ?_
    rw [Diagnostic.error_message]
    exact sound.oneLine (by simp [illegal])

end Report

/-- Declaring a variable reports nothing. -/
theorem declare (sound : Sound source declared state) (name : Option String) :
    Accounts source declared (Parser.declare name) (Parser.declare name) state fun _ _ => True := by
  cases name with
  | none => exact pure sound True.intro
  | some name => exact run rfl (sound.step (.declare state [name]) rfl) True.intro

/-! ### Branches -/

theorem ite {condition : Prop} [Decidable condition] {first second other another : Parse α}
    {known : α → State → Prop}
    (yes : condition → Accounts source declared first second state known)
    (no : ¬condition → Accounts source declared other another state known) :
    Accounts source declared (if condition then first else other)
      (if condition then second else another) state known := by
  by_cases holds : condition
  · simpa only [if_pos holds] using yes holds
  · simpa only [if_neg holds] using no holds

section Check

variable {condition : Prop} [Decidable condition] {first second : Parse Unit}
  {next later : Unit → Parse β} {known : Unit → State → Prop} {final : β → State → Prop}

/-- A check that does something when its condition holds. Whatever comes next comes
next in both cases. -/
theorem check (sound : Sound source declared state)
    (checked : condition → Accounts source declared first second state known)
    (goesOn : ∀ middle, Sound source declared middle →
      Accounts source declared (next ()) (later ()) middle final) :
    Accounts source declared (if condition then first >>= next else next ())
      (if condition then second >>= later else later ()) state final :=
  ite (fun holds => (checked holds).bind fun _ middle sound _ => goesOn middle sound)
    fun _ => goesOn state sound

/-- A check that does something unless its condition holds. -/
theorem checkUnless (sound : Sound source declared state)
    (checked : ¬condition → Accounts source declared first second state known)
    (goesOn : ∀ middle, Sound source declared middle →
      Accounts source declared (next ()) (later ()) middle final) :
    Accounts source declared (if condition then next () else first >>= next)
      (if condition then later () else second >>= later) state final :=
  ite (fun _ => goesOn state sound)
    fun fails => (checked fails).bind fun _ middle sound _ => goesOn middle sound

end Check

/-! ### Constructs -/

/-- What is known of the result alone holds around a construct. -/
theorem within {nesting : Nesting} {body other : Parse α} {known : α → Prop}
    (sound : Sound source declared state)
    (inner : Sound source declared (state.enter nesting) →
      Accounts source declared body other (state.enter nesting) fun result _ => known result) :
    Accounts source declared (within nesting body) (within nesting other) state
      fun result _ => known result := by
  intro result last runs
  obtain ⟨_, _, entered, runs⟩ := bind_eq_some runs
  cases entered
  obtain ⟨_, inside, body, runs⟩ := bind_eq_some runs
  obtain ⟨_, _, left, runs⟩ := bind_eq_some runs
  cases left
  cases runs
  obtain ⟨alike, inside, holds⟩ := inner (sound.step (.enter state nesting) rfl) _ _ body
  exact ⟨congrArg (Option.bind · _) alike, inside.step (.leave _) rfl, holds⟩

/-- Entering and leaving a scope reports nothing either. -/
theorem inScope {body other : Parse α} {build : α → β} (known : β → Prop)
    (sound : Sound source declared state)
    (inner : Sound source declared { state with scopes := state.scopes.enter } →
      Accounts source declared body other { state with scopes := state.scopes.enter }
        fun result _ => known (build result)) :
    Accounts source declared
      (do
        modify fun state => { state with scopes := state.scopes.enter }
        let value ← body
        modify fun state => { state with scopes := state.scopes.leave }
        return build value)
      (do
        modify fun state => { state with scopes := state.scopes.enter }
        let value ← other
        modify fun state => { state with scopes := state.scopes.leave }
        return build value)
      state fun result _ => known result := by
  intro result last runs
  obtain ⟨_, _, entered, runs⟩ := bind_eq_some runs
  cases entered
  obtain ⟨value, inside, left, runs⟩ := bind_eq_some runs
  obtain ⟨_, _, closed, runs⟩ := bind_eq_some runs
  cases closed
  cases runs
  obtain ⟨alike, inside, holds⟩ := inner (sound.step (.openScope state) rfl) _ _ left
  exact ⟨congrArg (Option.bind · _) alike, inside.step (.closeScope _) rfl, holds⟩

/-- Reading a snippet changes nothing outside of it. -/
theorem isolated {snippet : State} {body other : Parse α} {known : α → State → Prop}
    (sound : Sound source declared state)
    (inner : Accounts source declared body other snippet known) :
    Accounts source declared (isolated snippet body) (isolated snippet other) state
      fun result last => last = state ∧ known result.1 result.2 := by
  intro result last runs
  obtain ⟨⟨value, inside⟩, left, same⟩ := Option.map_eq_some_iff.1 runs
  cases same
  obtain ⟨alike, -, holds⟩ := inner value inside left
  exact ⟨congrArg (Option.map _) alike, sound, rfl, holds⟩

end Accounts

/-! ## Contracts -/

/-- What a production may be started with: a line of the rule, or a left operand that is
drawn from it. -/
def Production.Admits (source : List Char) : Production → Prop
  | .blockBody line | .cases _ line | .bracketCommands line => HasLine source line
  | .operatorChain left _ => left.WordFrom source
  | _ => True

/-- What is known of the result of a production: all of it is drawn from the rule. -/
def Production.Drawn (source : List Char) : (production : Production) → production.Result → Prop
  | .script | .blockBody _ => fun statements => OnLines source (statementTokens statements)
  | .statement | .conditional => fun result =>
    ∀ statement ∈ result, OnLines source statement.tokens
  | .cases _ _ => fun arms => OnLines source (caseTokens arms)
  | .fallThrough _ => fun result =>
    ∀ patterns ∈ result, OnLines source (patterns.map Pattern.token)
  | .commandOrExpression | .expression _ | .operatorChain _ _ | .word _ => fun result =>
    ∀ value ∈ result, value.WordFrom source
  | .callArguments | .arguments | .regsubArguments _ | .bracketCommands _ | .listElements
  | .substitutionCommands => AllWords source
  | .classOptions | .regsubFlags => fun texts => ∀ text ∈ texts, Quotes source text
  | .pieces _ => fun pieces => AllWords source (pieces.map Prod.fst)
  | .hashPairs => fun pairs => ∀ pair ∈ pairs, pair.1.WordFrom source ∧ pair.2.WordFrom source
  | _ => fun _ => True

/-- Two meanings of the productions that account for their results, and alike. -/
def Lawful (source : List Char) (declared : List String) (grammar other : Grammar) : Prop :=
  ∀ (production : Production) (state : State), Sound source declared state →
    production.Admits source →
    Accounts source declared (grammar.parse production) (other.parse production) state
      fun result _ => production.Drawn source result

end Parser

end IRule
