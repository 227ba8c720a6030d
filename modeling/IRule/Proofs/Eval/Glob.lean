import IRule.Eval.Glob
import Mathlib.Tactic

/-!
# What glob patterns match

`Matches` is the meaning of a pattern, element by element. A search that makes
only the last run longer decides it: every other element takes one character, so
what fails behind the first place where some elements fit fails behind any later
place too.
-/

namespace IRule.Glob

/-- A set between brackets lists a character, on its own or between the ends of a
range. A dash in front of the closing bracket joins nothing. -/
def Lists : List Char → Char → Prop
  | low :: '-' :: high :: rest, char => (low ≤ char ∧ char ≤ high) ∨ Lists rest char
  | listed :: rest, char => listed = char ∨ Lists rest char
  | [], _ => False

/-- A pattern matches the whole of a text. A set reaches to the first closing
bracket; without one it matches nothing. -/
inductive Matches : List Char → List Char → Prop where
  | nil : Matches [] []
  | run (skipped : List Char) {rest text : List Char} (later : Matches rest text) :
      Matches ('*' :: rest) (skipped ++ text)
  | any (char : Char) {rest text : List Char} (later : Matches rest text) :
      Matches ('?' :: rest) (char :: text)
  | hidden (char : Char) {rest text : List Char} (later : Matches rest text) :
      Matches ('\\' :: char :: rest) (char :: text)
  | backslash : Matches ['\\'] ['\\']
  | set {body : List Char} {char : Char} {rest text : List Char} (first : ']' ∉ body)
      (listed : Lists body char) (later : Matches rest text) :
      Matches ('[' :: (body ++ ']' :: rest)) (char :: text)
  | plain {char : Char} {rest text : List Char} (plain : char ∉ ['*', '?', '\\', '['])
      (later : Matches rest text) : Matches (char :: rest) (char :: text)

/-! ## Elements -/

/-- Elements match the whole of a text. -/
inductive Fits : List Element → List Char → Prop where
  | nil : Fits [] []
  | run (skipped : List Char) {elements : List Element} {text : List Char}
      (later : Fits elements text) : Fits (.run :: elements) (skipped ++ text)
  | one {element : Element} {char : Char} {elements : List Element} {text : List Char}
      (accepts : element.accepts char) (later : Fits elements text) :
      Fits (element :: elements) (char :: text)

namespace Fits

variable {elements : List Element} {text : List Char}

theorem nil_iff : Fits [] text ↔ text = [] := by
  constructor
  · rintro ⟨⟩
    rfl
  · rintro rfl
    exact .nil

/-- Behind a run, elements may match from any later place. -/
theorem run_iff : Fits (.run :: elements) text ↔ ∃ left, left <:+ text ∧ Fits elements left := by
  constructor
  · intro fits
    cases fits with
    | run skipped later => exact ⟨_, List.suffix_append _ _, later⟩
    | one accepts => simp [Element.accepts] at accepts
  · rintro ⟨left, ⟨skipped, rfl⟩, later⟩
    exact .run skipped later

/-- Every element but a run takes one character. -/
theorem one_iff {element : Element} (single : element ≠ .run) :
    Fits (element :: elements) text ↔
      ∃ char left, text = char :: left ∧ element.accepts char ∧ Fits elements left := by
  constructor
  · intro fits
    cases fits with
    | run => exact absurd rfl single
    | one accepts later => exact ⟨_, _, rfl, accepts, later⟩
  · rintro ⟨char, left, rfl, accepts, later⟩
    exact .one accepts later

theorem literal_iff {listed : Char} :
    Fits (.literal listed :: elements) text ↔
      ∃ left, text = listed :: left ∧ Fits elements left := by
  rw [one_iff (by simp)]
  simp [Element.accepts]

/-- Only runs match no text. -/
theorem text_nil_iff : Fits elements [] ↔ elements.all (· == .run) := by
  induction elements with
  | nil => simp [nil_iff]
  | cons element elements ih =>
    by_cases run : element = .run
    · simp [run, run_iff, ih]
    · simp [run, one_iff run]

end Fits

/-! ## The search -/

/-- The answers to a question about the places of a text. No answer leaves later
places open; the answer no holds for all of them. -/
structure Decides (answer? : List Char → Option Bool) (holds : List Char → Prop) : Prop where
  yes : ∀ {text}, answer? text = some true → holds text
  no : ∀ {text left}, answer? text = some false → left <:+ text → ¬holds left
  here : ∀ {text}, answer? text = none → ¬holds text

namespace Decides

variable {answer? : List Char → Option Bool} {holds : List Char → Prop}

/-- The first answer is right about all places. -/
theorem firstAnswer_iff (decides : Decides answer? holds) (text : List Char) :
    firstAnswer answer? text ↔ ∃ left, left <:+ text ∧ holds left := by
  induction text with
  | nil =>
    simp only [firstAnswer, List.suffix_nil, exists_eq_left]
    cases answer : answer? [] with
    | none => simpa using decides.here answer
    | some result =>
      cases result with
      | false => simpa using decides.no answer (List.suffix_refl _)
      | true => simpa using decides.yes answer
  | cons char rest ih =>
    simp only [firstAnswer]
    cases answer : answer? (char :: rest) with
    | none =>
      have nothing := decides.here answer
      simp only [ih, List.suffix_cons_iff]
      constructor
      · rintro ⟨left, inside, found⟩
        exact ⟨left, .inr inside, found⟩
      · rintro ⟨left, rfl | inside, found⟩
        · exact absurd found nothing
        · exact ⟨left, inside, found⟩
    | some result =>
      cases result with
      | false =>
        simp only [Bool.false_eq_true, false_iff, not_exists, not_and]
        exact fun left inside => decides.no answer inside
      | true => simpa using ⟨_, List.suffix_refl _, decides.yes answer⟩

/-- At the place where the question is asked, there being no answer means no. -/
theorem getD_iff (decides : Decides answer? holds) (text : List Char) :
    (answer? text).getD false ↔ holds text := by
  cases answer : answer? text with
  | none => simpa using decides.here answer
  | some result =>
    cases result with
    | false => simpa using decides.no answer (List.suffix_refl _)
    | true => simpa using decides.yes answer

end Decides

/-- At the end of the text every question is answered. -/
theorem Decides.of_cons {elements : List Element}
    (yes : ∀ {char rest}, answer? elements (char :: rest) = some true →
      Fits elements (char :: rest))
    (no : ∀ {char rest left}, answer? elements (char :: rest) = some false →
      left <:+ char :: rest → ¬Fits elements left)
    (here : ∀ {char rest}, answer? elements (char :: rest) = none → ¬Fits elements (char :: rest)) :
    Decides (answer? elements) (Fits elements) := by
  have atEnd : answer? elements [] = some (elements.all (· == .run)) := by cases elements <;> rfl
  constructor
  case yes =>
    intro text answer
    cases text with
    | nil =>
      rw [atEnd, Option.some.injEq] at answer
      exact Fits.text_nil_iff.2 answer
    | cons => exact yes answer
  case no =>
    intro text left answer inside
    cases text with
    | nil =>
      rw [atEnd, Option.some.injEq] at answer
      rw [List.suffix_nil.1 inside, Fits.text_nil_iff, answer]
      simp
    | cons => exact no answer inside
  case here =>
    intro text answer
    cases text with
    | nil => simp [atEnd] at answer
    | cons => exact here answer

theorem answer?_run (elements : List Element) (char : Char) (rest : List Char) :
    answer? (.run :: elements) (char :: rest) =
      some (firstAnswer (answer? elements) (char :: rest)) := rfl

theorem answer?_one {element : Element} (single : element ≠ .run) (elements : List Element)
    (char : Char) (rest : List Char) :
    answer? (element :: elements) (char :: rest) =
      if element.accepts char then answer? elements rest else none := by
  rw [answer?.eq_4 _ _ _ _ single]

/-- The search decides whether elements match. -/
theorem answer?_decides (elements : List Element) : Decides (answer? elements) (Fits elements) := by
  induction elements with
  | nil => exact .of_cons (by simp [answer?]) (by simp [answer?]) (by simp [Fits.nil_iff])
  | cons element elements ih =>
    by_cases run : element = .run
    · subst run
      refine .of_cons ?yes ?no (by simp [answer?_run])
      case yes =>
        intro char rest answer
        rw [answer?_run, Option.some.injEq, ih.firstAnswer_iff] at answer
        exact Fits.run_iff.2 answer
      case no =>
        intro char rest left answer inside fits
        obtain ⟨later, further, found⟩ := Fits.run_iff.1 fits
        have anywhere := (ih.firstAnswer_iff _).2 ⟨later, further.trans inside, found⟩
        simp [answer?_run, anywhere] at answer
    · refine .of_cons ?_ ?_ ?_ <;> intro char rest
      · intro answer
        rw [answer?_one run] at answer
        split at answer
        · exact .one ‹_› (ih.yes answer)
        · cases answer
      · intro left answer inside fits
        rw [answer?_one run] at answer
        split at answer
        · -- The element takes one character wherever it fits: what is behind it at a later
          -- place is behind it here too.
          obtain ⟨other, later, rfl, -, found⟩ := (Fits.one_iff run).1 fits
          have further : later <:+ rest := by
            rcases List.suffix_cons_iff.1 inside with same | inside
            · exact (List.cons.inj same).2 ▸ List.suffix_refl _
            · exact (List.suffix_cons _ _).trans inside
          exact ih.no answer further found
        · cases answer
      · intro answer fits
        obtain ⟨_, _, same, accepts, found⟩ := (Fits.one_iff run).1 fits
        cases same
        rw [answer?_one run, if_pos accepts] at answer
        exact ih.here answer found

/-! ## Reading a pattern -/

/-- Members of the set whose body stands between the brackets. -/
def items : List Char → List Item
  | low :: '-' :: high :: rest => .range low high :: items rest
  | listed :: rest => .single listed :: items rest
  | [] => []

theorem any_items_covers_iff (body : List Char) (char : Char) :
    (items body).any (·.covers char) ↔ Lists body char := by
  fun_induction items body with
  | case1 low high rest ih => rw [Lists, ← ih, List.any_cons]; simp [Item.covers]
  | case2 listed rest noRange ih =>
    rw [Lists.eq_2 _ _ _ noRange, ← ih, List.any_cons]
    simp [Item.covers]
  | case3 => simp [Lists]

/-- A character that no range starts with is a member on its own. -/
theorem elementsFrom_afterLow (read : List Item) (low : Char) {rest : List Char}
    (later : List Char) (noRange : ∀ high more, rest ≠ '-' :: high :: more) (first : ']' ∉ rest) :
    elementsFrom (.afterLow read low) (rest ++ ']' :: later) =
      elementsFrom (.inSet (.single low :: read)) (rest ++ ']' :: later) := by
  rcases rest with _ | ⟨next, _ | ⟨high, more⟩⟩
  · simp [elementsFrom]
  · have other : next ≠ ']' := by simpa [eq_comm] using first
    by_cases dash : next = '-'
    · simp [elementsFrom, dash]
    · simp [elementsFrom, dash, other]
  · have other : next ≠ ']' := by
      rintro rfl
      simp at first
    have dash : next ≠ '-' := by
      rintro rfl
      exact noRange high more rfl
    simp [elementsFrom, dash, other]

/-- A set ends at the first closing bracket. -/
theorem elementsFrom_inSet {read : List Item} {body later : List Char} (first : ']' ∉ body) :
    elementsFrom (.inSet read) (body ++ ']' :: later) =
      .set (read.reverse ++ items body) :: elements later := by
  fun_induction items body generalizing read with
  | case1 low high rest ih =>
    simp only [List.mem_cons, not_or] at first
    obtain ⟨lowOther, -, highOther, inner⟩ := first
    simp [elementsFrom, Ne.symm lowOther, Ne.symm highOther, ih inner]
  | case2 listed rest noRange ih =>
    simp only [List.mem_cons, not_or] at first
    have alone := elementsFrom_afterLow read listed later
      (fun high more same => noRange high more same) first.2
    simp [elementsFrom, Ne.symm first.1, alone, ih first.2]
  | case3 => simp [elementsFrom, elements]

/-- Without a closing bracket a set takes the rest of the pattern. -/
theorem elementsFrom_unclosed {rest : List Char} (unclosed : ']' ∉ rest) :
    (∀ read, elementsFrom (.inSet read) rest = [.unclosed]) ∧
      (∀ read low, elementsFrom (.afterLow read low) rest = [.unclosed]) ∧
      ∀ read low, elementsFrom (.afterDash read low) rest = [.unclosed] := by
  induction rest with
  | nil => simp [elementsFrom]
  | cons char rest ih =>
    simp only [List.mem_cons, not_or] at unclosed
    obtain ⟨inSet, afterLow, afterDash⟩ := ih unclosed.2
    have other : char ≠ ']' := Ne.symm unclosed.1
    refine ⟨fun read => ?_, fun read low => ?_, fun read low => ?_⟩
    · simp [elementsFrom, other, afterLow]
    · simp [elementsFrom, other, afterLow, afterDash]
    · simp [elementsFrom, other, inSet]

section Elements

variable {rest : List Char}

@[simp]
theorem elements_nil : elements [] = [] := rfl

@[simp]
theorem elements_run : elements ('*' :: rest) = .run :: elements rest := rfl

@[simp]
theorem elements_any : elements ('?' :: rest) = .any :: elements rest := rfl

@[simp]
theorem elements_hidden {char : Char} :
    elements ('\\' :: char :: rest) = .literal char :: elements rest := rfl

@[simp]
theorem elements_backslash : elements ['\\'] = [.literal '\\'] := rfl

theorem elements_set {body : List Char} (first : ']' ∉ body) :
    elements ('[' :: (body ++ ']' :: rest)) = .set (items body) :: elements rest := by
  exact elementsFrom_inSet first

theorem elements_unclosed (unclosed : ']' ∉ rest) : elements ('[' :: rest) = [.unclosed] :=
  (elementsFrom_unclosed unclosed).1 []

theorem elements_plain {char : Char} (plain : char ∉ ['*', '?', '\\', '[']) :
    elements (char :: rest) = .literal char :: elements rest := by
  simp only [List.mem_cons, List.not_mem_nil, or_false, not_or] at plain
  simp [elements, elementsFrom, plain]

end Elements

/-- A pattern means what its elements match. -/
theorem fits_of_matches {pattern text : List Char} (matching : Matches pattern text) :
    Fits (elements pattern) text := by
  induction matching with
  | nil => exact .nil
  | run skipped _ ih => exact .run skipped ih
  | any char _ ih => exact .one rfl ih
  | hidden char _ ih => exact .one (by simp [Element.accepts]) ih
  | backslash => exact .one (by simp [Element.accepts]) .nil
  | set first listed _ ih =>
    rw [elements_set first]
    exact .one ((any_items_covers_iff _ _).2 listed) ih
  | plain plain _ ih =>
    rw [elements_plain plain]
    exact .one (by simp [Element.accepts]) ih

theorem matches_of_fits {pattern text : List Char} (fits : Fits (elements pattern) text) :
    Matches pattern text := by
  -- A set takes more than one character of the pattern, so the induction is on its length.
  induction size : pattern.length using Nat.strong_induction_on generalizing pattern text with
  | _ size ih =>
    subst size
    cases pattern with
    | nil =>
      obtain rfl := Fits.nil_iff.1 fits
      exact .nil
    | cons char rest =>
      by_cases plain : char ∉ ['*', '?', '\\', '[']
      · rw [elements_plain plain, Fits.literal_iff] at fits
        obtain ⟨left, rfl, later⟩ := fits
        exact .plain plain (ih _ (by simp) later rfl)
      simp only [List.mem_cons, List.not_mem_nil, or_false, not_not] at plain
      rcases plain with rfl | rfl | rfl | rfl
      · rw [elements_run, Fits.run_iff] at fits
        obtain ⟨left, ⟨skipped, rfl⟩, later⟩ := fits
        exact .run skipped (ih _ (by simp) later rfl)
      · rw [elements_any, Fits.one_iff (by simp)] at fits
        obtain ⟨other, left, rfl, -, later⟩ := fits
        exact .any other (ih _ (by simp) later rfl)
      · cases rest with
        | nil =>
          rw [elements_backslash, Fits.literal_iff] at fits
          obtain ⟨left, rfl, later⟩ := fits
          obtain rfl := Fits.nil_iff.1 later
          exact .backslash
        | cons hidden rest =>
          rw [elements_hidden, Fits.literal_iff] at fits
          obtain ⟨left, rfl, later⟩ := fits
          exact .hidden hidden (ih _ (by simp) later rfl)
      · by_cases closed : ']' ∈ rest
        · obtain ⟨body, after, rfl, first⟩ := List.eq_append_cons_of_mem closed
          rw [elements_set first, Fits.one_iff (by simp)] at fits
          obtain ⟨other, left, rfl, accepts, later⟩ := fits
          exact .set first ((any_items_covers_iff _ _).1 accepts) (ih _ (by simp; omega) later rfl)
        · rw [elements_unclosed closed, Fits.one_iff (by simp)] at fits
          obtain ⟨_, _, -, accepts, -⟩ := fits
          simp [Element.accepts] at accepts

/-- A glob match is found exactly when the pattern matches the text, whatever runs,
sets and hidden characters it is made of. -/
theorem isMatch_iff (pattern text : String) :
    isMatch pattern text = true ↔ Matches pattern.toList text.toList :=
  ((answer?_decides _).getD_iff _).trans ⟨matches_of_fits, fits_of_matches⟩

/-- A hyphen in front of the closing bracket stands for itself, and a set that is not closed
matches nothing. -/
example : isMatch "*[a-]?\\*" "xx-y*" = true ∧ isMatch "[ab" "a" = false := by decide

end IRule.Glob
