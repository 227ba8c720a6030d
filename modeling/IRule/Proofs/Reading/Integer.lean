import IRule.Eval.Value
import IRule.Proofs.Climbing.Condition
import IRule.Proofs.Reading.Operands

/-!
# Integers in rules

An integer is read in three places: as the value of an assignment, as an operand of a
condition, and as the priority of a handler. In the first two, a literal holds the integer
that is written, or it is reported that the integer does not fit. The priority holds the
integer as well, but one that does not fit is left out without a report.
-/

namespace IRule

/-- A printed integer is a numeral of that integer, and the value of the word that is
printed. -/
theorem numeral_of_written (word : Int64) :
    (∃ numeral : Numeral, numeral.text = (Value.integer word).written.toList ∧
      numeral.value = word.toInt) ∧
        Value.ofWord (Value.integer word).written = .integer word :=
  ⟨⟨.ofInt word.toInt, Numeral.text_ofInt _, Numeral.value_ofInt _⟩,
    by simp [Value.ofWord, Value.written]⟩

/-! ## Rules -/

/-- The rule that assigns the integer to a variable. -/
def Numeral.assignment (numeral : Numeral) (name : String) : String :=
  "set " ++ name ++ " " ++ String.ofList numeral.text

/-- The rule that handles an event with the integer for its priority, by doing nothing. -/
def Numeral.handler (numeral : Numeral) (event : String) : String :=
  "when " ++ event ++ " priority " ++ String.ofList numeral.text ++ " \x7b \x7d"

namespace Parser

open Lexeme (Breaks)
open Climbing (Formula)
open Reading (Leaf)

variable (declared : List String)

/-- The operands of a condition hold their integers, or their numerals are reported. -/
theorem parse_test (formula : Formula Leaf) :
    let outcome := parseWith declared formula.program
    RangeReports (formula.leaves.flatMap Leaf.problems) outcome.diagnostics ∧
      ∃ token condition opening,
        outcome.script.statements = [.conditional token condition (.mk opening []) none] ∧
          List.Forall₂ Leaf.Shows formula.leaves condition.leaves := by
  obtain ⟨reported, token, condition, opening, single, -, shown⟩ :=
    Reading.tracks_leaves.parse_program (reports_nil_iff.2 rfl) declared formula
  exact ⟨reported, token, condition, opening, single, shown⟩

theorem isLegibleWord_of_isEvent {event : String} (known : Vocabulary.isEvent event) :
    isLegibleWord event := by
  have all : ∀ other ∈ Vocabulary.events, isLegibleWord other := by decide
  exact all event (by simpa [Vocabulary.isEvent] using known)

/-- The priority of a handler is the integer, if it fits, and nothing is reported. -/
theorem parse_handler {event : String} (numeral : Numeral) (known : Vocabulary.isEvent event) :
    let outcome := parseWith declared (numeral.handler event)
    outcome.diagnostics = [] ∧
      ∃ token outer inner opening, outcome.script.statements = [.expression token
        (.handler outer (bareWord inner event) (Text.int64OfInt? numeral.value)
          (.mk opening []))] := by
  have read : ∀ start : State, start.Faces {} (numeral.handler event).toList →
      start.advance.current.kind ≠ .endOfInput ∧
        Yields language.statement start.advance fun result last =>
          ∃ copy : Statement, result = some copy ∧
            (∃ token outer inner body, copy = .expression token (.handler outer
              (bareWord inner event) (Text.int64OfInt? numeral.value) body) ∧
                ∃ opening, body = .mk opening []) ∧
            last.Awaits (· = []) {} [] := by
    intro start faces
    have faced : start.Faces {} ([] ++ ("when".toList ++ ([' '] ++ (event.toList ++ ([' '] ++
        ("priority".toList ++ ([' '] ++ (numeral.text ++
          ' ' :: '\x7b' :: ([' '] ++ (['\x7d'] ++ [])))))))))) := by
      simpa [Numeral.handler] using faces
    have blockRead : ∀ next : State,
        next.Stands {} (' ' :: '\x7b' :: ([' '] ++ (['\x7d'] ++ []))) →
        Yields (expectBlock language .eventName) next fun result last =>
          ∃ body, result = some body ∧ (∃ opening, body = .mk opening []) ∧ last.Stands {} [] := by
      intro next stands
      simp only [← State.awaits_iff_stands] at stands ⊢
      exact (Climbing.yields_emptyBlock stands).2
    have kind : start.advance.current.kind = .reserved .when :=
      (faced.name .none (by decide) breaks_space).1.trans (by decide)
    refine ⟨by simp [kind], ?_⟩
    simp only [State.awaits_iff_stands]
    refine yields_handler (isLegibleWord_of_isEvent known) known .none breaks_space faced
      (fun next stands => ?_) blockRead Setting.closes_nil
    rw [← numeral.int64?_text]
    exact yields_numeralPriority (numeral.spells (Breaks.endsDigits breaks_space)) stands
  obtain ⟨clean, _, single, token, outer, inner, _, rfl, opening, rfl⟩ := parse_statement rfl read
  exact ⟨clean, token, outer, inner, opening, single⟩

/-- An integer is what the numeral denotes wherever it is assigned or operated on, and it is
reported if it does not fit. The priority of a handler is the integer as well, but it is left
out without a report if it does not fit. A printed integer is read as itself. -/
theorem integers_read (numeral : Numeral) (formula : Formula Leaf) (word : Int64)
    {name event : String}
    (legible : isRawName name) (legal : Naming.isVariableName name)
    (known : Vocabulary.isEvent event) :
    let assigned := parseWith declared (numeral.assignment name)
    let tested := parseWith declared formula.program
    let handled := parseWith declared (numeral.handler event)
    (Reports numeral.problems assigned.diagnostics ∧
      ∃ token place value,
        assigned.script.statements = [.set token (bareWord place name) value] ∧
          numeral.Shows value) ∧
    (RangeReports (formula.leaves.flatMap Leaf.problems) tested.diagnostics ∧
      ∃ token condition opening,
        tested.script.statements = [.conditional token condition (.mk opening []) none] ∧
          List.Forall₂ Leaf.Shows formula.leaves condition.leaves) ∧
    (handled.diagnostics = [] ∧
      ∃ token outer inner opening, handled.script.statements = [.expression token
        (.handler outer (bareWord inner event) (Text.int64OfInt? numeral.value)
          (.mk opening []))]) ∧
    (∃ printed : Numeral, printed.text = (Value.integer word).written.toList ∧
      printed.value = word.toInt) ∧
    Value.ofWord (Value.integer word).written = .integer word :=
  ⟨parse_assignment legible legal (begins_of_starts numeral.starts) (readsWord_numeral numeral),
    parse_test declared formula, parse_handler declared numeral known, numeral_of_written word⟩

/-- Digits of an integer that does not fit. -/
def twentyNines : Numeral where
  negative := false
  digits := List.replicate 20 '9'
  nonempty := by simp
  digit := fun char inside => by
    rw [List.eq_of_mem_replicate inside]
    rfl

/-- An integer that does not fit is reported where it is assigned or operated on, and left out
where it is a priority. -/
theorem integers_read_twentyNines :
    let formula : Formula Leaf := .mk (.leaf (.numeral twentyNines)) .nil
    Reports [.numberRange "99999999999999999999"]
      (parseWith [] (twentyNines.assignment "x")).diagnostics ∧
    RangeReports [.numberRange "99999999999999999999"] (parseWith [] formula.program).diagnostics ∧
    (parseWith [] (twentyNines.handler "HTTP_REQUEST")).diagnostics = [] ∧
    ∃ token outer inner opening,
      (parseWith [] (twentyNines.handler "HTTP_REQUEST")).script.statements = [.expression token
        (.handler outer (bareWord inner "HTTP_REQUEST") none (.mk opening []))] := by
  intro formula
  obtain ⟨⟨assigned, -⟩, ⟨tested, -⟩, ⟨handled, left⟩, -⟩ :=
    @integers_read [] twentyNines formula (-9223372036854775808) "x" "HTTP_REQUEST" (by decide)
      (by decide) (by decide)
  exact ⟨assigned, tested, handled, left⟩

end Parser

end IRule
