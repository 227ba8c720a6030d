import IRule.Lexer.Lexeme
import Mathlib.Tactic

/-!
# What separates tokens

The text between two tokens is made of blanks, line ends, hidden line ends and
comments. `Parted` is the grammar of such texts, in which a comment lasts up to,
and not including, the end of its line; a text is parted in one way only. The
run that `Trivia.scan` finds is parted, and its spacing is that of its parts.
-/

namespace IRule.Lexeme

/-- A part of the text between two tokens. -/
inductive Separator where
  | blank (char : Char)
  | lineEnd
  /-- A line end hidden by a backslash, with or without a carriage return. -/
  | hiddenEnd (carriage : Bool)
  /-- A `#` and the text after it. -/
  | comment (body : List Char)
deriving DecidableEq, Repr

/-- `Parted after separators gap` says that the separators make up `gap`, in front
of `after`. -/
inductive Parted (after : List Char) : List Separator → List Char → Prop where
  | nil : Parted after [] []
  | blank {char : Char} {separators : List Separator} {gap : List Char}
      (space : isSpace char) (later : Parted after separators gap) :
      Parted after (.blank char :: separators) (char :: gap)
  | lineEnd {separators : List Separator} {gap : List Char}
      (later : Parted after separators gap) :
      Parted after (.lineEnd :: separators) ('\n' :: gap)
  | hiddenEnd {separators : List Separator} {gap : List Char}
      (later : Parted after separators gap) :
      Parted after (.hiddenEnd false :: separators) ('\\' :: '\n' :: gap)
  | hiddenCarriage {separators : List Separator} {gap : List Char}
      (later : Parted after separators gap) :
      Parted after (.hiddenEnd true :: separators) ('\\' :: '\r' :: '\n' :: gap)
  | comment {body : List Char} {separators : List Separator} {gap : List Char}
      (oneLine : '\n' ∉ body) (whole : ∀ char ∈ (gap ++ after).head?, char = '\n')
      (later : Parted after separators gap) :
      Parted after (.comment body :: separators) ('#' :: (body ++ gap))

namespace Parted

variable {after gap : List Char} {separators others : List Separator}

/-- A comment is everything in front of the next line end. -/
theorem takeWhile_comment {body : List Char} (oneLine : '\n' ∉ body)
    (whole : ∀ char ∈ (gap ++ after).head?, char = '\n') :
    (body ++ gap).takeWhile (· != '\n') = body := by
  have stops : gap.takeWhile (· != '\n') = [] := by
    cases gap with
    | nil => rfl
    | cons char rest =>
      obtain rfl : char = '\n' := whole char (by simp)
      rfl
  have inside : ∀ char ∈ body, (char != '\n') = true := by
    rintro char mem
    rw [bne_iff_ne]
    rintro rfl
    exact oneLine mem
  rw [List.takeWhile_append_of_pos inside, stops, List.append_nil]

/-- A text is parted in one way only: the first character of what is left decides
the next part, and a comment ends with its line. -/
theorem unique (first : Parted after separators gap) (second : Parted after others gap) :
    separators = others := by
  induction first generalizing others with
  | nil =>
    cases second
    rfl
  | blank space later ih =>
    cases second with
    | blank _ other => rw [ih other]
    | _ => simp [isSpace] at space
  | lineEnd later ih =>
    cases second with
    | blank space => simp [isSpace] at space
    | lineEnd other => rw [ih other]
  | hiddenEnd later ih =>
    cases second with
    | blank space => simp [isSpace] at space
    | hiddenEnd other => rw [ih other]
  | hiddenCarriage later ih =>
    cases second with
    | blank space => simp [isSpace] at space
    | hiddenCarriage other => rw [ih other]
  | @comment body separators gap oneLine whole later ih =>
    generalize text : '#' :: (body ++ gap) = all at second
    cases second with
    | @comment otherBody _ otherGap otherLine otherWhole other =>
      simp only [List.cons.injEq, true_and] at text
      have sameBody : body = otherBody := by
        rw [← takeWhile_comment oneLine whole, text, takeWhile_comment otherLine otherWhole]
      subst sameBody
      have sameGap : gap = otherGap := List.append_cancel_left text
      subst sameGap
      rw [ih other]
    | blank space =>
      simp only [List.cons.injEq] at text
      obtain ⟨rfl, -⟩ := text
      simp [isSpace] at space
    | _ => simp at text

/-- No separators make up no text. -/
theorem eq_nil_iff (parted : Parted after separators gap) : separators = [] ↔ gap = [] := by
  cases parted <;> simp

end Parted

/-! ## Spacing -/

/-- What a separator adds to the spacing behind it. -/
def Separator.mark : Separator → Spacing → Spacing
  | .blank _, spacing | .hiddenEnd _, spacing => { spacing with space := true }
  | .lineEnd, spacing => { spacing with newline := true }
  | .comment _, spacing => { spacing with comment := true }

/-- The spacing that separators make. -/
def spacingOf (separators : List Separator) : Spacing :=
  separators.foldr Separator.mark .none

@[simp]
theorem spacingOf_nil : spacingOf [] = .none := rfl

@[simp]
theorem spacingOf_cons (separator : Separator) (separators : List Separator) :
    spacingOf (separator :: separators) = separator.mark (spacingOf separators) := rfl

section Spacing

variable {separators : List Separator}

theorem spacingOf_space :
    (spacingOf separators).space ↔
      (∃ char, .blank char ∈ separators) ∨ ∃ carriage, .hiddenEnd carriage ∈ separators := by
  induction separators with
  | nil => simp [Spacing.none]
  | cons separator separators ih => cases separator <;> simp [Separator.mark, ih]

theorem spacingOf_newline : (spacingOf separators).newline ↔ .lineEnd ∈ separators := by
  induction separators with
  | nil => simp [Spacing.none]
  | cons separator separators ih => cases separator <;> simp [Separator.mark, ih]

theorem spacingOf_comment :
    (spacingOf separators).comment ↔ ∃ body, .comment body ∈ separators := by
  induction separators with
  | nil => simp [Spacing.none]
  | cons separator separators ih => cases separator <;> simp [Separator.mark, ih]

/-- Every separator leaves a mark. -/
theorem spacingOf_isAdjacent : (spacingOf separators).isAdjacent ↔ separators = [] := by
  cases separators with
  | nil => simp [Spacing.isAdjacent, Spacing.none]
  | cons separator separators => cases separator <;> simp [Separator.mark, Spacing.isAdjacent]

end Spacing

/-! ## The run at the head of the input -/

namespace Trivia

theorem scan_newline (inComment : Bool) (rest : List Char) :
    scan inComment ('\n' :: rest) = (scan false rest).afterNewline := by
  conv_lhs => unfold scan
  simp

theorem scan_inComment {char : Char} (rest : List Char) (sameLine : char ≠ '\n') :
    scan true (char :: rest) = (scan true rest).afterComment := by
  conv_lhs => unfold scan
  simp [sameLine]

/-- Inside a comment the rest of the line is passed over. -/
theorem afterComment_scan (text : List Char) :
    (scan true text).afterComment =
      ⟨(scan false (text.dropWhile (· != '\n'))).length +
          (text.takeWhile (· != '\n')).length + 1,
        (scan false (text.dropWhile (· != '\n'))).lines,
        { (scan false (text.dropWhile (· != '\n'))).spacing with comment := true }⟩ := by
  induction text with
  | nil => rfl
  | cons char rest ih =>
    by_cases newline : char = '\n'
    · subst newline
      simp [scan_newline, afterComment, afterNewline]
    · have sameLine : (char != '\n') = true := by simpa using newline
      rw [scan_inComment rest newline, ih]
      simp [afterComment, sameLine]
      omega

/-- A run at the head of a text is parted, and its spacing is that of its parts. -/
def Describes (trivia : Trivia) (text : List Char) : Prop :=
  ∃ separators, Parted (text.drop trivia.length) separators (text.take trivia.length) ∧
    trivia.spacing = spacingOf separators

namespace Describes

variable {trivia : Trivia} {rest : List Char}

theorem empty (text : List Char) : Trivia.empty.Describes text :=
  ⟨[], .nil, rfl⟩

theorem afterNewline (later : trivia.Describes rest) :
    trivia.afterNewline.Describes ('\n' :: rest) := by
  obtain ⟨separators, parted, spacing⟩ := later
  refine ⟨.lineEnd :: separators, by simpa [Trivia.afterNewline] using parted.lineEnd, ?_⟩
  simp [Trivia.afterNewline, Separator.mark, spacing]

theorem afterBlank {char : Char} (space : isSpace char) (later : trivia.Describes rest) :
    trivia.afterSpace.Describes (char :: rest) := by
  obtain ⟨separators, parted, spacing⟩ := later
  refine ⟨.blank char :: separators, by simpa [afterSpace] using parted.blank space, ?_⟩
  simp [afterSpace, Separator.mark, spacing]

theorem afterHiddenEnd (later : trivia.Describes rest) :
    (trivia.afterHiddenLine 2).Describes ('\\' :: '\n' :: rest) := by
  obtain ⟨separators, parted, spacing⟩ := later
  refine ⟨.hiddenEnd false :: separators, by simpa [afterHiddenLine] using parted.hiddenEnd, ?_⟩
  simp [afterHiddenLine, Separator.mark, spacing]

theorem afterHiddenCarriage (later : trivia.Describes rest) :
    (trivia.afterHiddenLine 3).Describes ('\\' :: '\r' :: '\n' :: rest) := by
  obtain ⟨separators, parted, spacing⟩ := later
  refine ⟨.hiddenEnd true :: separators,
    by simpa [afterHiddenLine] using parted.hiddenCarriage, ?_⟩
  simp [afterHiddenLine, Separator.mark, spacing]

theorem afterComment
    (later : (scan false (rest.dropWhile (· != '\n'))).Describes (rest.dropWhile (· != '\n'))) :
    (scan true rest).afterComment.Describes ('#' :: rest) := by
  obtain ⟨separators, parted, spacing⟩ := later
  have text : rest.takeWhile (· != '\n') ++ rest.dropWhile (· != '\n') = rest :=
    List.takeWhile_append_dropWhile
  have inside := List.all_takeWhile (p := (· != '\n')) (l := rest)
  have stop := List.head?_dropWhile_not (· != '\n') rest
  rw [afterComment_scan]
  generalize rest.takeWhile (· != '\n') = body at text inside ⊢
  generalize rest.dropWhile (· != '\n') = left at text parted spacing stop ⊢
  subst text
  have oneLine : '\n' ∉ body := fun mem => by simpa using List.all_eq_true.1 inside _ mem
  have whole : ∀ char ∈ left.head?, char = '\n' := by
    intro char first
    rw [Option.mem_def.1 first] at stop
    simpa using stop
  rw [← List.take_append_drop (scan false left).length left] at whole
  refine ⟨.comment body :: separators, ?_, by simp [Separator.mark, spacing]⟩
  simpa [Nat.add_comm (scan false left).length, List.take_length_add_append,
    List.drop_length_add_append] using parted.comment oneLine whole

end Describes

/-- The run that is found at the head of the input describes it. -/
theorem scan_describes (text : List Char) : (scan false text).Describes text := by
  -- A comment takes more than one character, so the induction is on the length of the text.
  induction size : text.length using Nat.strong_induction_on generalizing text with
  | _ size ih =>
    subst size
    cases text with
    | nil => exact .empty []
    | cons char rest =>
      have later (text : List Char) (less : text.length ≤ rest.length) :
          (scan false text).Describes text :=
        ih text.length (by simp; omega) text rfl
      unfold scan
      rw [if_neg Bool.false_ne_true]
      split
      case isTrue newline =>
        obtain rfl := beq_iff_eq.1 newline
        exact (later rest le_rfl).afterNewline
      split
      case isTrue space => exact (later rest le_rfl).afterBlank space
      split
      case isTrue opening =>
        obtain rfl := beq_iff_eq.1 opening
        exact (later _ (List.dropWhile_suffix _).length_le).afterComment
      split
      case isTrue hidden =>
        obtain rfl := beq_iff_eq.1 hidden
        split
        · exact (later _ (by simp)).afterHiddenEnd
        · exact (later _ (by simp; omega)).afterHiddenCarriage
        · exact .empty _
      exact .empty _

end Trivia

end IRule.Lexeme
