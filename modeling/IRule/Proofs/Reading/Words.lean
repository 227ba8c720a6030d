import IRule.Proofs.Reading.Reports

/-!
# Words taken as they are written

A word of letters, digits, underscores, slashes, colons and dashes may be cut into many
tokens, none of which groups or embeds anything, so the word is what was written. Only a
number that does not fit its type is reported.
-/

namespace IRule

namespace Lexeme

/-- Characters of words that nothing is embedded in. -/
def isVerbatimChar (char : Char) : Bool :=
  char.isAlphanum || ['_', '/', ':', '-'].contains char

section Verbatim

variable {char : Char} {rest : List Char}

theorem isVerbatimChar_cases (verbatim : isVerbatimChar char) :
    char.isDigit ∨ isNameStart char ∨ char = '/' ∨ char = ':' ∨ char = '-' := by
  simp only [isVerbatimChar, Char.isAlphanum, Bool.or_eq_true, List.contains_iff_mem,
    List.mem_cons, List.not_mem_nil, or_false] at verbatim
  simp only [isNameStart, Bool.or_eq_true, beq_iff_eq]
  tauto

theorem ne_of_verbatim (verbatim : isVerbatimChar char) :
    ∀ wrong, isVerbatimChar wrong = false → char ≠ wrong := by
  rintro wrong unlike rfl
  simp [verbatim] at unlike

theorem startsToken_of_verbatim (verbatim : isVerbatimChar char) :
    startsToken (char :: rest) := by
  have other := ne_of_verbatim verbatim
  rw [startsToken.eq_4]
  · simp [startsTrivia, isSpace, other ' ' (by decide), other '\t' (by decide),
      other '\r' (by decide), other '\x0c' (by decide), other '\n' (by decide),
      other '#' (by decide), other '\\' (by decide), other '\x7b' (by decide),
      other '\x7d' (by decide), other '[' (by decide), other ']' (by decide),
      other '"' (by decide), other ';' (by decide)]
  · exact other '\\' (by decide)
  · exact other '$' (by decide)

/-- A numeral without a dot is a number. -/
theorem numeral_kind_of_noDot (noDot : '.' ∉ char :: rest) :
    (numeral (char :: rest)).kind = .number := by
  have noDots : ∀ count, ((char :: rest).take count).contains '.' = false := by
    intro count
    rw [List.contains_eq_mem, decide_eq_false_iff_not]
    exact fun inside => noDot (List.mem_of_mem_take inside)
  simp [numeral, -List.contains_eq_mem, noDots]

/-- Every token of a verbatim word is legal. -/
theorem scan_kind_of_verbatim (verbatim : (char :: rest).all isVerbatimChar) :
    (scan 0 0 (char :: rest)).kind ≠ .illegal := by
  have noDot : '.' ∉ char :: rest := fun inside =>
    absurd (List.all_eq_true.1 verbatim '.' inside) (by decide)
  have here : isVerbatimChar char := List.all_eq_true.1 verbatim char (List.mem_cons_self ..)
  have other := ne_of_verbatim here
  simp only [scan, beq_iff_eq, other '\x7b' (by decide), other '\x7d' (by decide),
    other '[' (by decide), other ']' (by decide), other '$' (by decide), other '"' (by decide),
    other '\\' (by decide), if_false]
  split
  · simp [numeral_kind_of_noDot noDot]
  split
  · intro fault
    have isWord := bareWord_isWord (char :: rest)
    simp [fault, TokenKind.isWord] at isWord
  rename_i notNumeral notName
  cases found : symbol? (char :: rest) with
  | some entry =>
    have legal : ∀ entry ∈ symbols, entry.2 ≠ .illegal := by decide
    exact legal entry (List.mem_of_find?_eq_some found)
  | none =>
    have unlisted := List.find?_eq_none.1 found
    rcases isVerbatimChar_cases here with digit | start | rfl | rfl | rfl
    · refine absurd ((startsNumeral_cons ?_).trans digit) notNumeral
      rintro rfl
      simp at digit
    · exact absurd start notName
    · exact absurd (unlisted (['/'], .slash) (by simp [symbols])) (by simp)
    · exact absurd (unlisted ([':'], .colon) (by simp [symbols])) (by simp)
    · exact absurd (unlisted (['-'], .minus) (by simp [symbols])) (by simp)

/-- A verbatim word is a run of tokens. -/
theorem isLiteralRun_of_verbatim {text : List Char} (verbatim : text.all isVerbatimChar)
    (skip : Nat) : isLiteralRun skip text := by
  induction text generalizing skip with
  | nil => rfl
  | cons char rest ih =>
    have legal := scan_kind_of_verbatim verbatim
    simp only [List.all_cons, Bool.and_eq_true] at verbatim
    cases skip with
    | succ more => exact ih verbatim.2 more
    | zero => simp [isLiteralRun, startsToken_of_verbatim verbatim.1, legal, ih verbatim.2]

end Verbatim

end Lexeme

namespace Parser

open Lexeme (Breaks isVerbatimChar)

/-- Whether the characters of a word are taken as they are, and the first is a letter or a
slash. -/
def isVerbatimWord (word : String) : Bool :=
  word.toList.head?.any (fun char => char.isAlpha || char == '/') && word.toList.all isVerbatimChar

theorem run_of_isVerbatimWord {word : String} (verbatim : isVerbatimWord word) :
    word.toList ≠ [] ∧ Lexeme.isLiteralRun 0 word.toList ∧ ')' ∉ word.toList := by
  simp only [isVerbatimWord, Bool.and_eq_true] at verbatim
  exact ⟨fun none => by simp [none] at verbatim, Lexeme.isLiteralRun_of_verbatim verbatim.2 0,
    fun inside => absurd (List.all_eq_true.1 verbatim.2 _ inside) (by decide)⟩

/-- A line is logged with the words behind the facility. -/
theorem readsAsCommand_log {words : List String} (verbatim : ∀ word ∈ words, isVerbatimWord word) :
    ReadsAsCommand ("log local0." ++ spacedWords words).toList
      (fun copy => ∃ token place isReserved arguments,
        copy = .invocation token (.identifier place "log" false isReserved) arguments ∧
          arguments.map Expression.wordText? = ("local0." :: words).map some)
      (words.flatMap fun word => wordProblems word.toList) := by
  have runs : ∀ word ∈ "local0." :: words,
      word.toList ≠ [] ∧ Lexeme.isLiteralRun 0 word.toList ∧ ')' ∉ word.toList := by
    intro word inside
    rcases List.mem_cons.1 inside with rfl | inside
    · decide
    · exact run_of_isVerbatimWord (verbatim word inside)
  have readsEach : ∀ word ∈ "local0." :: words, ReadsWord word.toList
      (fun value => value.wordText? = some word) (wordProblems word.toList) := by
    intro word inside setting state gap rest spacing found gapped awaits stops
    obtain ⟨nonempty, run, plain⟩ := runs word inside
    refine (readsWord_literal nonempty run plain gapped awaits stops).mono ?_
    rintro _ last ⟨value, rfl, literal, awaits⟩
    exact ⟨value, rfl, by simpa using literal.spelled, awaits⟩
  have begins : ∀ word ∈ "local0." :: words, Begins word.toList := fun word inside =>
    let ⟨nonempty, run, plain⟩ := runs word inside
    begins_of_isLiteralRun nonempty (fun opening => plain (List.mem_of_mem_head? opening)) run
  refine ⟨?_, ?_⟩
  · rw [String.toList_append]
    exact startsOperand_append (by decide)
  intro setting state gap rest spacing found gapped faces reported closes
  have text : (spacedWords words).toList = spaced String.toList words := by
    simpa using toList_spacedWords id words
  have faced : state.quiet.Faces setting (gap ++ ("log".toList ++
      (spaced String.toList ("local0." :: words) ++ rest))) := by
    simpa [text] using faces
  have apart : Breaks (spaced String.toList ("local0." :: words) ++ rest) :=
    breaks_spaced closes.breaks _
  have kind : state.advance.current.kind = _ := (faced.name gapped (by decide) apart).1
  have standalone : Naming.isStandaloneWord state.declared "log" := by
    have common : Vocabulary.isCommonCommand "log" := by decide
    simp [Naming.isStandaloneWord, common]
  have assignsNothing (arguments : List Expression) : assignedNames "log" arguments = [] := by
    simp [assignedNames]
  refine ⟨by rw [kind]; decide, ?_⟩
  refine (yields_invocation (by decide) (by decide) standalone gapped apart faced
    (fun next awaits => ?_) (fun next awaits => yields_words readsEach begins closes awaits)
    (fun arguments _ => by simp [assignsNothing arguments, Setting.Spares]) reported).mono ?_
  · have facility : next.quiet.Faces setting ([' '] ++ ("local0.".toList ++
        (spaced String.toList words ++ rest))) := by simpa using awaits.faces
    have plain : Precedence.isStatementOperator next.quiet.lookahead = false :=
      facility.notOperator .space (by decide) (breaks_spaced closes.breaks _) (by decide)
    have plain : Precedence.isStatementOperator next.lookahead = false := plain
    simp [plain]
  · rintro _ last ⟨token, place, isReserved, arguments, rfl, taken, awaits⟩
    have same : List.Forall₂ (· = ·) (arguments.map Expression.wordText?)
        (("local0." :: words).map some) := by
      rw [List.forall₂_map_left_iff, List.forall₂_map_right_iff]
      exact taken.flip
    rw [List.forall₂_eq_eq_eq] at same
    rw [assignsNothing, Setting.knowing_nil] at awaits
    exact ⟨_, rfl, ⟨token, place, isReserved, arguments, rfl, same⟩, awaits⟩

/-- The words that a line is logged with are taken as they are written. What is reported is
every number among their tokens that does not fit its type. -/
theorem words_verbatim (declared : List String) (words : List String)
    (verbatim : ∀ word ∈ words, isVerbatimWord word) :
    let outcome := parseWith declared ("log local0." ++ spacedWords words)
    Reports (words.flatMap fun word => wordProblems word.toList) outcome.diagnostics ∧
      ∃ token inner place isReserved arguments, outcome.script.statements =
        [.expression token (.invocation inner (.identifier place "log" false isReserved)
          arguments)] ∧
        arguments.map Expression.wordText? = ("local0." :: words).map some := by
  obtain ⟨reported, token, _, single, inner, place, isReserved, arguments, rfl, same⟩ :=
    parse_command (readsAsCommand_log verbatim)
  exact ⟨reported, token, inner, place, isReserved, arguments, single, same⟩

/-- A path, a keyword, a namespace and a number that fits are all taken as they are written. -/
theorem words_verbatim_mixed :
    (∀ word ∈ ["/api-v1/42", "eq", "a::b:-7_c"], isVerbatimWord word) ∧
      (parseWith [] ("log local0." ++ spacedWords ["/api-v1/42", "eq", "a::b:-7_c"])).diagnostics =
        [] := by
  have verbatim : ∀ word ∈ ["/api-v1/42", "eq", "a::b:-7_c"], isVerbatimWord word := by decide
  exact ⟨verbatim, reports_nil_iff.1 (words_verbatim [] _ verbatim).1⟩

/-- A number among the tokens of a word is checked, though the word is none. -/
theorem words_verbatim_range :
    isVerbatimWord "/99999999999999999999" ∧
      (parse "log local0. /99999999999999999999").diagnostics =
        [(Problem.numberRange "99999999999999999999").diagnostic 1] := by
  decide +kernel

end Parser

end IRule
