import IRule.Cli.Check
import IRule.Proofs.Parser.RealLines

/-!
# Lines of the output

Without colours, every diagnostic of a rule is printed as its text with a line feed
behind it. The output has a line for each diagnostic, and one more for every line feed
in a message. A message has one only where it quotes a text of the rule that takes more
than one line, or a node whose canonical text does.
-/

namespace IRule

/-! ## Texts of diagnostics -/

/-- The stamp of a diagnostic is on one line. -/
theorem Diagnostic.text_lineFeed (diagnostic : Diagnostic) :
    '\n' ∈ diagnostic.text.toList ↔ '\n' ∈ diagnostic.message.toList := by
  unfold text
  split <;> simp

theorem Diagnostic.Spans.message {whole : List Char} {diagnostic : Diagnostic}
    (spans : diagnostic.Spans whole) : '\n' ∈ diagnostic.message.toList := by
  obtain ⟨problem, line, rfl, spans⟩ := spans
  rw [Problem.diagnostic, error_message]
  exact spans.message

/-- A fair diagnostic takes more than one line exactly when it has a reason to. -/
theorem Diagnostic.Fair.text_lineFeed_iff {whole : List Char} {diagnostic : Diagnostic}
    (fair : diagnostic.Fair whole) :
    '\n' ∈ diagnostic.text.toList ↔ diagnostic.Spans whole := by
  rw [diagnostic.text_lineFeed]
  exact ⟨fair.spans, Spans.message⟩

namespace Terminal

/-- Without colours and notes, a diagnostic is printed as its text. -/
theorem render_plain {diagnostic : Diagnostic} (notes : diagnostic.notes = []) :
    render false diagnostic = diagnostic.text ++ "\n" := by
  rw [← String.toList_inj]
  cases line : diagnostic.line <;> simp [render, Diagnostic.text, paint, notes, line]

theorem renderAll_plain {diagnostics : List Diagnostic}
    (notes : ∀ diagnostic ∈ diagnostics, diagnostic.notes = []) :
    renderAll false diagnostics =
      String.join ((diagnostics.map Diagnostic.text).map (· ++ "\n")) := by
  rw [renderAll, List.map_map]
  congr 1
  exact List.map_congr_left fun diagnostic mem => render_plain (notes diagnostic mem)

end Terminal

/-! ## Counting -/

/-- Texts with a line feed behind each: one line for each text, and one for every line
feed in a text. -/
theorem count_joined (texts : List String) :
    (String.join (texts.map (· ++ "\n"))).toList.count '\n' =
      texts.length + (texts.map fun text => text.toList.count '\n').sum := by
  induction texts with
  | nil => simp
  | cons text rest ih =>
    simp only [List.map_cons, String.join_cons, String.toList_append, List.count_append, ih,
      List.length_cons, List.sum_cons]
    simp
    omega

/-- There are as many lines as texts when every text is on one line, and only then. -/
theorem count_joined_eq_length_iff (texts : List String) :
    (String.join (texts.map (· ++ "\n"))).toList.count '\n' = texts.length ↔
      ∀ text ∈ texts, '\n' ∉ text.toList := by
  rw [count_joined, Nat.add_eq_left, List.sum_eq_zero_iff]
  simp [List.count_eq_zero]

namespace Cli

/-- What is printed for a check without colours: the texts of the diagnostics. -/
theorem check_output {options : Options} {terminal : Bool} (source : String)
    (shown : options.printErrors = true) (brief : options.debug = false)
    (plain : options.color.isOn terminal = false) :
    (check options terminal source).output =
      String.join ((parse source).errorLines.map (· ++ "\n")) := by
  have notes := fun diagnostic mem => (Parser.parseWith_fair [] source diagnostic mem).notes
  simp only [check, shown, brief, plain, if_true, Bool.false_eq_true, if_false,
    String.empty_append]
  exact Terminal.renderAll_plain notes

/-- Diagnostics may take more than one line. Without colours, a check prints the text of
each diagnostic with a line feed behind it, so the output has a line for each of them and
one more for every line feed in their texts. A text has a line feed exactly when its
problem spans lines: when it quotes a text that stands in the rule on more than one line,
or a node whose canonical text takes more than one, in a rule of more than one line or for
an event handler in the node. Where there is no such problem, the output has as many lines
as there are diagnostics, and only there. -/
theorem output_lines (options : Options) (terminal : Bool) (source : String)
    (shown : options.printErrors = true) (brief : options.debug = false)
    (plain : options.color.isOn terminal = false) :
    let outcome := parse source
    let report := check options terminal source
    report.output = String.join (outcome.errorLines.map (· ++ "\n")) ∧
    report.output.toList.count '\n' =
      report.problems + (outcome.errorLines.map fun line => line.toList.count '\n').sum ∧
    (∀ diagnostic ∈ outcome.diagnostics,
      '\n' ∈ diagnostic.text.toList ↔ diagnostic.Spans source.toList) ∧
    (report.output.toList.count '\n' = report.problems ↔
      ∀ diagnostic ∈ outcome.diagnostics, ¬ diagnostic.Spans source.toList) := by
  intro outcome report
  have output : report.output = _ := check_output source shown brief plain
  have problems : report.problems = outcome.errorLines.length := by
    simp [report, check, outcome, Parser.Outcome.errorLines]
  have spans : ∀ diagnostic ∈ outcome.diagnostics,
      '\n' ∈ diagnostic.text.toList ↔ diagnostic.Spans source.toList :=
    fun diagnostic mem => (Parser.parseWith_fair [] source diagnostic mem).text_lineFeed_iff
  refine ⟨output, ?_, spans, ?_⟩
  · rw [output, problems]
    exact count_joined _
  · rw [output, problems]
    refine (count_joined_eq_length_iff _).trans ?_
    rw [Parser.Outcome.errorLines, List.forall_mem_map]
    exact forall₂_congr fun diagnostic mem => not_congr (spans diagnostic mem)

/-- A `set` with a word too many quotes its value, here a string on two lines: there is
one diagnostic, and the output has two lines. -/
theorem output_lines_quoted_string :
    let options : Options := { printErrors := true, color := .never }
    let source := "set x \"a\nb\" c"
    options.printErrors = true ∧ options.debug = false ∧ options.color.isOn false = false ∧
    (check options false source).output =
      "   line 2: wrong # args: extra words after 'set x \"a\nb\"'\n" ∧
    (check options false source).problems = 1 ∧
    ∃ diagnostic ∈ (parse source).diagnostics, diagnostic.Spans source.toList := by
  intro options source
  let extra := (Problem.setExtraWords "x" "\"a\nb\"").diagnostic 2
  have reported : extra ∈ (parse source).diagnostics := by decide +kernel
  have output : (check options false source).output =
      "   line 2: wrong # args: extra words after 'set x \"a\nb\"'\n" := by decide +kernel
  have problems : (check options false source).problems = 1 := by decide +kernel
  obtain ⟨-, -, spans, -⟩ := output_lines options false source rfl rfl rfl
  have lineFeed : '\n' ∈ extra.text.toList := by decide +kernel
  exact ⟨rfl, rfl, rfl, output, problems, extra, reported, (spans extra reported).1 lineFeed⟩

end Cli

end IRule
