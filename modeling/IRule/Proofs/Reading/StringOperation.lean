import IRule.Proofs.Reading.Reports

/-!
# Operations of `string` on quoted texts

An operation takes the quoted texts behind it as its arguments, one by one, and keeps them as
they are written. Too few of them are reported. Texts that look like options are arguments as
well, but they do not count.
-/

namespace IRule

namespace Parser

open Lexeme (Breaks isPlainText)

variable {setting : Setting} {state : State}

/-! ## Quoted texts -/

/-- A text in quotes. -/
def quotedText (text : String) : String :=
  "\"" ++ text ++ "\""

/-- Nothing is embedded in plain text. -/
theorem segments_of_isPlainText {body : List Char} (plain : isPlainText body) :
    segments body = Segment.ofText body := by
  have split : Segment.split [] [] 0 (body ++ []) = _ := Segment.split_plain plain
  simpa [segments, Segment.split] using split

/-- Plain text is a string. -/
theorem yields_plainString {token : Token} (plain : isPlainText token.literal.toList) :
    Yields (quotedString language token) state fun result last =>
      result = .string token token.literal ∧ last = state := by
  unfold quotedString
  rw [segments_of_isPlainText plain]
  unfold Segment.ofText
  split <;> exact .pure ⟨rfl, rfl⟩

/-- A quoted text is a string of the text. -/
theorem readsWord_quotedText {text : String} (plain : isPlainText text.toList) :
    ReadsWord (quotedText text).toList (fun value => ∃ token, value = .string token text) [] := by
  intro setting state gap rest spacing found gapped awaits stops
  have quoted : (quotedText text).toList = '"' :: text.toList ++ ['"'] := by
    simp [quotedText]
  rw [quoted] at awaits
  obtain ⟨kind, literal, -, next⟩ :=
    awaits.token gapped (.string (Lexeme.Enclosed.of_isPlainText plain))
  rw [setting.delimit_of_plain (by simp)] at next
  have here : state.advance.current.kind = .string := kind
  have body : state.advance.current.literal = text := by
    have literal : state.advance.current.literal = _ := literal
    simpa [Lexeme.literalOf, unquote] using literal
  have stringRead : Yields (quotedString language state.advance.current) state.advance
      fun result last => result = .string state.advance.current text ∧ last = state.advance := by
    have read : Yields (quotedString language state.advance.current) state.advance _ :=
      yields_plainString (by rwa [body])
    rwa [body] at read
  refine yields_word_of_piece awaits.coherent.advance stops ?_
  simp only [piece, Yields.current_bind, here]
  refine stringRead.bind ?_
  rintro _ _ ⟨rfl, rfl⟩
  exact .pure ⟨next.faces, _, rfl, ⟨_, rfl⟩, by simpa using next⟩

theorem starts_quotedText (text : String) : Lexeme.Starts (quotedText text).toList :=
  ⟨'"', text.toList ++ ['"'], by simp [quotedText], by decide⟩

/-! ## Options among the arguments -/

/-- Strings of the texts, in order. -/
def AreStrings (texts : List String) (values : List Expression) : Prop :=
  List.Forall₂ (fun text value => ∃ token, value = .string token text) texts values

/-- Whether a text looks like an option: a dash, and a letter or another dash. -/
def isOptionText (text : String) : Bool :=
  match text.toList with
  | '-' :: next :: _ => next.isAlpha || next == '-'
  | _ => false

/-- Number of texts that do not look like options. -/
def countPositional (texts : List String) : Nat :=
  texts.countP fun text => !isOptionText text

theorem isOption_string (token : Token) (text : String) :
    isOption (.string token text) = isOptionText text := by
  simp only [isOption, Expression.wordText?, Option.map_some, isOptionText]
  split <;> simp_all

theorem length_positional {texts : List String} {values : List Expression}
    (strings : AreStrings texts values) : (positional values).length = countPositional texts := by
  induction strings with
  | nil => rfl
  | cons alike _ ih =>
    obtain ⟨token, rfl⟩ := alike
    simp only [positional, countPositional, ← List.countP_eq_length_filter] at ih ⊢
    simp only [List.countP_cons, ih, isOption_string]

/-- There are no lists among strings. -/
theorem pairFirstList_of_areStrings {texts : List String} {values : List Expression}
    (strings : AreStrings texts values) : pairFirstList values = values := by
  induction strings with
  | nil => rfl
  | cons alike _ ih =>
    obtain ⟨token, rfl⟩ := alike
    simp [pairFirstList, ih]

/-! ## Operations -/

/-- The command that applies an operation to quoted texts. -/
def operationText (operation : String) (texts : List String) : String :=
  "string " ++ operation ++ spacedWords (texts.map quotedText)

/-- What is reported of an operation: that too few texts count as arguments. -/
def arityProblems (operation : String) (least : Nat) (texts : List String) : List Problem :=
  if countPositional texts < least then
    [.stringArguments operation least (countPositional texts)]
  else []

/-- The operation on strings of the texts. -/
def IsOperation (operation : String) (texts : List String) (copy : Expression) : Prop :=
  ∃ token arguments, copy = .stringOperation token operation arguments ∧ AreStrings texts arguments

theorem mem_of_stringArity {operation : String} {least : Nat}
    (arity : Vocabulary.stringArity? operation = some least) :
    (operation, least) ∈ Vocabulary.stringOperations := by
  obtain ⟨before, after, whole, -⟩ := List.lookup_eq_some_iff.1 arity
  simp [whole]

/-- Operations are legible words. -/
theorem isLegibleWord_of_stringArity {operation : String} {least : Nat}
    (arity : Vocabulary.stringArity? operation = some least) : isLegibleWord operation := by
  have all : ∀ entry ∈ Vocabulary.stringOperations, isLegibleWord entry.1 := by decide
  have known := all _ (mem_of_stringArity arity)
  exact known

/-- All but two operations are no operators. -/
theorem isOperatorWord_of_stringArity {operation : String} {least : Nat}
    (arity : Vocabulary.stringArity? operation = some least)
    (other : operation ∉ ["contains", "equals"]) : isOperatorWord operation = false := by
  have all : ∀ entry ∈ Vocabulary.stringOperations,
      isOperatorWord entry.1 = ["contains", "equals"].contains entry.1 := by decide
  have known := all _ (mem_of_stringArity arity)
  simp_all

/-- Too few arguments are reported. -/
theorem yields_checkArity {operation : String} {least line : Nat} {texts : List String}
    {rest : List Char} {found : List Problem}
    (arity : Vocabulary.stringArity? operation = some least)
    (awaits : state.Awaits (Reports found) setting rest) :
    Yields (checkArity operation (countPositional texts) line) state fun _ last =>
      last.Awaits (Reports (found ++ arityProblems operation least texts)) setting rest := by
  simp only [checkArity, arity, arityProblems]
  split
  · exact ⟨(), _, rfl, awaits.record (awaits.found.concat _ _)⟩
  · exact .pure (by simpa using awaits)

/-- An operation of `string` on quoted texts is read as such. -/
theorem readsAsCommand_operation {operation : String} {least : Nat} {texts : List String}
    (arity : Vocabulary.stringArity? operation = some least)
    (notOperator : isOperatorWord operation = false)
    (plain : ∀ text ∈ texts, isPlainText text.toList) :
    ReadsAsCommand (operationText operation texts).toList (IsOperation operation texts)
      (arityProblems operation least texts) := by
  have legible := isLegibleWord_of_stringArity arity
  refine ⟨?_, ?_⟩
  · rw [operationText, String.toList_append, String.toList_append]
    exact startsOperand_append (startsOperand_append (by decide))
  intro setting state gap rest spacing found gapped faces reported closes
  have text := toList_spacedWords quotedText texts
  have faced : state.quiet.Faces setting (gap ++ ("string".toList ++ ([' '] ++
      (operation.toList ++ (spaced (fun text => (quotedText text).toList) texts ++ rest))))) := by
    simpa [operationText, text] using faces
  have kind : state.advance.current.kind = _ := (faced.name gapped (by decide) breaks_space).1
  refine ⟨by rw [kind]; decide, ?_⟩
  have given : ∀ next : State, next.Awaits (Reports found) setting
      (spaced (fun text => (quotedText text).toList) texts ++ rest) →
      Yields language.arguments next fun copies last =>
        AreStrings texts copies ∧ last.Awaits (Reports found) setting rest := by
    intro next awaits
    have read : Yields language.arguments next fun copies last => AreStrings texts copies ∧
        last.Awaits (Reports (found ++ texts.flatMap fun _ => [])) setting rest :=
      yields_words (fun text inside => readsWord_quotedText (plain text inside))
        (fun text _ => begins_of_starts (starts_quotedText text)) closes awaits
    have silent : texts.flatMap (fun _ => ([] : List Problem)) = [] := by
      simp [List.flatMap_eq_nil_iff]
    rwa [silent, List.append_nil] at read
  have checked : ∀ (copies : List Expression) (next : State) (line : Nat),
      AreStrings texts copies → next.Awaits (Reports found) setting rest →
      AreStrings texts (keptArguments operation copies) ∧
        Yields (checkArity operation (positional (keptArguments operation copies)).length line) next
          fun _ last =>
            last.Awaits (Reports (found ++ arityProblems operation least texts)) setting rest := by
    intro copies next line strings awaits
    have kept : keptArguments operation copies = copies := by
      rw [keptArguments, pairFirstList_of_areStrings strings, ite_self]
    rw [kept]
    refine ⟨strings, ?_⟩
    rw [length_positional strings]
    exact yields_checkArity arity awaits
  have operationRead : Yields language.commandOrExpression state.advance fun result last =>
      ∃ token copies, result = some (.stringOperation token operation copies) ∧
        AreStrings texts copies ∧
        last.Awaits (Reports (found ++ arityProblems operation least texts)) setting rest :=
    yields_stringOperation legible notOperator arity gapped (breaks_spaced closes.breaks _) faced
      given checked reported
  refine operationRead.mono ?_
  rintro _ last ⟨token, copies, rfl, strings, awaits⟩
  exact ⟨_, rfl, ⟨token, copies, rfl, strings⟩, awaits⟩

/-- An operation of `string` on quoted texts keeps its shape, as a rule and in brackets as the
value of a variable: its arguments are the strings, in order. It is reported if too few of them
count. -/
theorem operations_shaped (declared : List String) (operation : String) (least : Nat)
    (texts : List String) (arity : Vocabulary.stringArity? operation = some least)
    (other : operation ∉ ["contains", "equals"]) (plain : ∀ text ∈ texts, isPlainText text.toList) :
    (let outcome := parseWith declared (operationText operation texts);
      Reports (arityProblems operation least texts) outcome.diagnostics ∧
        ∃ token copy, outcome.script.statements = [.expression token copy] ∧
          IsOperation operation texts copy) ∧
    ∀ name : String, isRawName name → Naming.isVariableName name →
      let outcome := parseWith declared ("set " ++ name ++ " [" ++
        operationText operation texts ++ "]")
      Reports (arityProblems operation least texts) outcome.diagnostics ∧
        ∃ token place bracket copy, outcome.script.statements =
          [.set token (bareWord place name) (.bracket bracket [copy])] ∧
          IsOperation operation texts copy := by
  have command := readsAsCommand_operation arity (isOperatorWord_of_stringArity arity other) plain
  refine ⟨parse_command command, fun name raw legal => ?_⟩
  have begins : Begins ('[' :: (operationText operation texts).toList ++ [']']) :=
    begins_of_starts ⟨'[', _, rfl, by decide⟩
  have text : "set " ++ name ++ " [" ++ operationText operation texts ++ "]" = "set " ++ name ++
      " " ++ String.ofList ('[' :: (operationText operation texts).toList ++ [']']) := by
    apply String.toList_injective
    simp
  obtain ⟨reported, token, place, _, single, bracket, copy, rfl, shaped⟩ :=
    @parse_assignment declared _ _ _ _ raw legal begins command.bracket
  rw [← text] at reported single
  exact ⟨reported, token, place, bracket, copy, single, shaped⟩

/-- A text that looks like an option is an argument that does not count. -/
theorem operations_shaped_option :
    let plainly := parseWith [] (operationText "compare" ["a-1 b", "-nocase"])
    let assigned := parseWith [] ("set " ++ "x" ++ " [" ++
      operationText "compare" ["a-1 b", "-nocase"] ++ "]")
    Reports [.stringArguments "compare" 2 1] plainly.diagnostics ∧
      Reports [.stringArguments "compare" 2 1] assigned.diagnostics := by
  have counted : arityProblems "compare" 2 ["a-1 b", "-nocase"] =
      [.stringArguments "compare" 2 1] := by decide
  have shaped := operations_shaped [] "compare" 2 ["a-1 b", "-nocase"] (by decide) (by decide)
    (by decide)
  rw [counted] at shaped
  exact ⟨shaped.1.1, (shaped.2 "x" (by decide) (by decide)).1⟩

/-- One argument is enough for `length`, but not if it looks like an option. And `contains`
and `equals` are operators behind a word: nothing checks what they are given. -/
theorem operations_misread :
    Vocabulary.stringArity? "length" = some 1 ∧
      (parse "string length \"-abc\"").diagnostics =
        [(Problem.stringArguments "length" 1 0).diagnostic 1] ∧
      Vocabulary.stringArity? "contains" = some 2 ∧
      (parse "string contains \"a\"").diagnostics = [] ∧
      Vocabulary.stringArity? "equals" = some 2 ∧
      (parse "string equals \"a\"").diagnostics = [] := by
  decide +kernel

end Parser

end IRule
