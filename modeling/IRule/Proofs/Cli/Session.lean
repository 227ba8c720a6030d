import IRule.Cli.Session
import IRule.Proofs.Parser.Declarations

/-!
# Rejected lines of a session

A line in which a problem is found is not evaluated. The variables that it declares
up to the problem stay known to the validator all the same, for the rest of the
session; nothing else is left of the line.
-/

namespace IRule

namespace Parser

/-- Names that were declared before a rule are declared after it, and are not
reported as undeclared in it. -/
theorem parseWith_growth (declared : List String) (source : String) :
    declared ⊆ (parseWith declared source).declared ∧
      Spares declared (parseWith declared source).diagnostics := by
  obtain ⟨statements, last, completed⟩ := exists_completed declared source
  obtain ⟨growth, -⟩ := completed.growth
  have seeds : declared ⊆ (State.start source.toList declared).declared :=
    Naming.added_subset_addAll [] declared
  obtain ⟨fresh, reported, spared⟩ := growth.reported
  have none : (State.start source.toList declared).diagnostics = [] := rfl
  rw [none, List.nil_append] at reported
  rw [completed.outcome]
  refine ⟨growth.keeps seeds, ?_⟩
  rw [reported]
  exact fun name known => spared name (seeds known)

end Parser

namespace Cli.Session

variable {options : Options} {terminal : Bool} {session middle after : Session}

/-! ## One line -/

/-- The line as it is run. -/
def trimmed (typed : String) : String :=
  String.ofList (Text.trim typed.toList)

/-- The typed line is run, and a problem is found in it. -/
structure Rejects (session : Session) (typed : String) : Prop where
  stays : trimmed typed ≠ "exit"
  filled : trimmed typed ≠ ""
  problems : (parseWith session.declared (trimmed typed)).diagnostics ≠ []

/-- What a session remembers of a line that was rejected. -/
def afterRejected (session : Session) (line : String) : Session :=
  { session with
    declared := Naming.addAll session.declared (parseWith session.declared line).declared }

/-- What is printed about a line that was rejected. -/
def rejection (session : Session) (options : Options) (terminal : Bool) (line : String) :
    String :=
  let outcome := parseWith session.declared line
  (if options.debug then tokenLines (tokenize line) ++ outcome.script.written ++ "\n" else "") ++
    Terminal.renderAll (options.color.isOn terminal) outcome.diagnostics

theorem run_rejected {line : String}
    (problems : (parseWith session.declared line).diagnostics ≠ []) :
    session.run options terminal line =
      (session.rejection options terminal line, session.afterRejected line) := by
  have found : (parseWith session.declared line).diagnostics.isEmpty = false := by
    simpa using problems
  simp only [run, found, Bool.false_eq_true, if_false, rejection, afterRejected]

theorem step_rejected {typed : String} (rejected : session.Rejects typed) :
    session.step options terminal typed =
      .next (session.rejection options terminal (trimmed typed))
        (session.afterRejected (trimmed typed)) := by
  have stays : (trimmed typed == "exit") = false := by simpa using rejected.stays
  have filled : (trimmed typed).isEmpty = false := by simpa using rejected.filled
  unfold trimmed at stays filled
  simp only [step, stays, filled, Bool.false_eq_true, if_false]
  rw [← trimmed, run_rejected rejected.problems]

/-- Whether a line is rejected or not, the validator knows what it declares. -/
theorem run_declared {line : String} :
    (session.run options terminal line).2.declared =
      Naming.addAll session.declared (parseWith session.declared line).declared := by
  by_cases clean : (parseWith session.declared line).diagnostics = []
  · simp only [run, clean, List.isEmpty_nil, if_true]
  · rw [run_rejected clean, afterRejected]

theorem step_declared {typed printed : String}
    (stepped : session.step options terminal typed = .next printed after) :
    session.declared ⊆ after.declared := by
  simp only [step] at stepped
  split at stepped
  · cases stepped
  · split at stepped
    · obtain ⟨-, rfl⟩ := Step.next.inj stepped
      exact List.Subset.refl _
    · obtain ⟨-, rfl⟩ := Step.next.inj stepped
      rw [run_declared]
      exact fun _ known => Naming.mem_addAll _ known

/-! ## Many lines -/

/-- What a session prints for lines that do not end it, and where it stands after
them. -/
def reach (session : Session) (options : Options) (terminal : Bool) :
    List (Option String) → Option (String × Session)
  | [] => some ("", session)
  | none :: _ => none
  | some line :: rest =>
    match session.step options terminal line with
    | .leave => none
    | .next printed after =>
      (reach after options terminal rest).map fun (later, last) =>
        (prompt ++ printed ++ later, last)

theorem reach_cons {typed printed : String} {lines : List (Option String)} {last : Session}
    (reached : session.reach options terminal (some typed :: lines) = some (printed, last)) :
    ∃ first next later, session.step options terminal typed = .next first next ∧
      next.reach options terminal lines = some (later, last) ∧
      printed = prompt ++ first ++ later := by
  unfold reach at reached
  split at reached
  · cases reached
  · next first next stepped =>
    obtain ⟨⟨later, last⟩, onward, same⟩ := Option.map_eq_some_iff.1 reached
    cases same
    exact ⟨first, next, later, stepped, onward, rfl⟩

theorem transcript_step {typed printed : String}
    (stepped : session.step options terminal typed = .next printed after)
    (rest : List (Option String)) :
    session.transcript options terminal (some typed :: rest) =
      (prompt ++ printed ++ (after.transcript options terminal rest).1,
        (after.transcript options terminal rest).2) := by
  rw [transcript, stepped]

/-- A session goes on from where its first lines led. -/
theorem transcript_append {lines : List (Option String)} {printed : String}
    (reached : session.reach options terminal lines = some (printed, middle))
    (rest : List (Option String)) :
    session.transcript options terminal (lines ++ rest) =
      (printed ++ (middle.transcript options terminal rest).1,
        (middle.transcript options terminal rest).2) := by
  induction lines generalizing session printed with
  | nil =>
    cases reached
    simp
  | cons line lines ih =>
    cases line with
    | none => cases reached
    | some typed =>
      obtain ⟨first, next, later, stepped, onward, rfl⟩ := reach_cons reached
      rw [List.cons_append, transcript_step stepped, ih onward]
      simp only [String.append_assoc]

theorem reach_declared {lines : List (Option String)} {printed : String}
    (reached : session.reach options terminal lines = some (printed, middle)) :
    session.declared ⊆ middle.declared := by
  induction lines generalizing session printed with
  | nil =>
    cases reached
    exact List.Subset.refl _
  | cons line lines ih =>
    cases line with
    | none => cases reached
    | some typed =>
      obtain ⟨_, _, _, stepped, onward, -⟩ := reach_cons reached
      exact List.Subset.trans (step_declared stepped) (ih onward)

/-! ## What a rejected line leaves behind -/

@[simp]
theorem afterRejected_environment (session : Session) (line : String) :
    (session.afterRejected line).environment = session.environment := rfl

theorem mem_afterRejected {line name : String} :
    name ∈ (session.afterRejected line).declared ↔
      name ∈ (parseWith session.declared line).declared := by
  have kept := (Parser.parseWith_growth session.declared line).1
  rw [afterRejected, Naming.mem_addAll_iff]
  constructor
  · rintro (known | declared)
    · exact kept known
    · exact declared
  · exact .inr

theorem afterRejected_eq_iff {line : String} :
    session.afterRejected line = session ↔
      (parseWith session.declared line).declared ⊆ session.declared := by
  rw [← Naming.addAll_eq_self_iff]
  constructor
  · exact congrArg Session.declared
  · intro same
    rw [afterRejected, same]

/-- All that is left of a rejected line is the variables it declares. Such a line may
be typed after any others. It prints the problems that were found in it and evaluates
nothing. The validator then knows the variables that the line declares besides those it
knew, and takes them as declared for the rest of the session. The session is what it was
exactly when the line declares no variable that was not known; whatever is typed later
then prints what it would have printed without the line. -/
theorem rejected_line_leaves_names (options : Options) (terminal : Bool)
    (session middle : Session) (before : List (Option String)) (printed typed : String)
    (reached : session.reach options terminal before = some (printed, middle))
    (rejected : middle.Rejects typed) :
    let outcome := parseWith middle.declared (trimmed typed)
    let own := prompt ++ middle.rejection options terminal (trimmed typed)
    ∃ left : Session,
      (∀ rest,
        session.transcript options terminal (before ++ some typed :: rest) =
          (printed ++ own ++ (left.transcript options terminal rest).1,
            (left.transcript options terminal rest).2) ∧
        session.transcript options terminal (before ++ rest) =
          (printed ++ (middle.transcript options terminal rest).1,
            (middle.transcript options terminal rest).2)) ∧
      left.environment = middle.environment ∧
      (∀ name, name ∈ left.declared ↔ name ∈ outcome.declared) ∧
      middle.declared ⊆ left.declared ∧
      (∀ lines further last, left.reach options terminal lines = some (further, last) →
        ∀ name ∈ outcome.declared, ∀ next line,
          (Problem.undeclaredVariable name).diagnostic line ∉
            (parseWith last.declared next).diagnostics) ∧
      (left = middle ↔ outcome.declared ⊆ middle.declared) := by
  have stepped : middle.step options terminal typed = _ := step_rejected rejected
  refine ⟨middle.afterRejected (trimmed typed), ?_, ?_, ?_, ?_, ?_, ?_⟩
  · intro rest
    refine ⟨?_, transcript_append reached rest⟩
    rw [transcript_append reached, transcript_step stepped]
    simp only [String.append_assoc]
  · exact afterRejected_environment middle _
  · intro name
    exact mem_afterRejected
  · exact step_declared stepped
  · intro lines further last onward name declared next line
    have known : name ∈ last.declared := reach_declared onward (mem_afterRejected.2 declared)
    exact (Parser.parseWith_growth last.declared next).2 name known line
  · exact afterRejected_eq_iff

/-- A `set` with too many words is rejected, but its target stays declared: the line
behind it is not refused for an undeclared variable, as it would be without the `set`,
and fails when it is evaluated. -/
theorem rejected_set_leaves_name :
    let session : Session := {}
    session.reach {} false [] = some ("", session) ∧ session.Rejects "set x 5 6" ∧
    (∃ left : Session, left ≠ session ∧ "x" ∈ left.declared ∧
      left.environment = session.environment ∧
      session.transcript {} false [some "set x 5 6", some "$x"] =
        (">>    line 1: wrong # args: extra words after 'set x 5'\n" ++
          (left.transcript {} false [some "$x"]).1, true) ∧
      (left.transcript {} false [some "$x"]).1 =
        ">>    can't read \"x\": no such variable\n>> \n") ∧
    (session.transcript {} false [some "$x"]).1 =
      ">>    line 1: undeclared variable '$x'\n>> \n" := by
  have rejected : ({} : Session).Rejects "set x 5 6" :=
    ⟨by decide +kernel, by decide +kernel, by decide +kernel⟩
  have declared : (parseWith [] (trimmed "set x 5 6")).declared = ["x"] := by decide +kernel
  have later : (({} : Session).transcript {} false [some "set x 5 6", some "$x"]) =
      (">>    line 1: wrong # args: extra words after 'set x 5'\n" ++
        ">>    can't read \"x\": no such variable\n>> \n", true) := by decide +kernel
  have report : prompt ++ ({} : Session).rejection {} false (trimmed "set x 5 6") =
      ">>    line 1: wrong # args: extra words after 'set x 5'\n" := by decide +kernel
  obtain ⟨left, prints, unchanged, names, -, -, same⟩ :=
    rejected_line_leaves_names {} false {} {} [] "" "set x 5 6" rfl rejected
  have printed := (prints [some "$x"]).1
  simp only [List.nil_append, String.empty_append, report, later, Prod.mk.injEq,
    String.append_right_inj] at printed
  refine ⟨rfl, rejected, ⟨left, ?_, ?_, unchanged, ?_, printed.1.symm⟩, by decide +kernel⟩
  · intro equal
    have known := same.1 equal
    simp [declared] at known
  · simp [names, declared]
  · rw [later, ← printed.1]

end Cli.Session

end IRule
