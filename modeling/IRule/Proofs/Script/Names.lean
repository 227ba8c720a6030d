import IRule.Proofs.Lexer.Delimiting
import IRule.Proofs.Parser.Word
import IRule.Proofs.Script.Variable
import Mathlib.Data.List.TakeWhile

/-!
# Names of variables

The names that are accepted for variables are those of a grammar: simple names joined by
`::`, with a mark in front for names of the outermost namespace and a key behind for elements
of arrays, and no word of flow control. The array of an element is what stands in front of its
key, and any other name is a single reference behind a `$`.
-/

namespace IRule

open Text

namespace Naming

open Lexeme (isNameStart isNameChar)

/-! ## Grammar -/

/-- A letter or an underscore, and letters, digits and underscores behind it. -/
def IsSimple (part : List Char) : Prop :=
  ∃ first later, part = first :: later ∧ isNameStart first ∧ ∀ char ∈ later, isNameChar char

/-- Simple names, at least one, joined by `::`. -/
def IsQualified (base : List Char) : Prop :=
  ∃ parts, parts ≠ [] ∧ (∀ part ∈ parts, IsSimple part) ∧ base = [':', ':'].intercalate parts

/-- The parts that a name is made of: a mark in front, a qualified name that is no word of
flow control, and a key in parentheses. -/
structure MadeOf (name : String) (mark base key : List Char) : Prop where
  whole : name.toList = mark ++ (base ++ key)
  marked : mark = [] ∨ mark = [':', ':']
  qualified : IsQualified base
  free : Vocabulary.isReservedKeyword (String.ofList base) = false
  keyed : key = [] ∨ key.head? = some '(' ∧ key.getLast? = some ')'

/-! ## Qualified names -/

theorem isSimpleName_iff {part : List Char} : isSimpleName part ↔ IsSimple part := by
  cases part with
  | nil => simp [isSimpleName, IsSimple]
  | cons first later => simp [isSimpleName, IsSimple, isNameStart, isNameChar]

theorem segments_ne_nil (text : List Char) : segments text ≠ [] := by
  fun_cases segments text <;> simp

/-- Segments joined again are the text. -/
theorem intercalate_segments (text : List Char) :
    [':', ':'].intercalate (segments text) = text := by
  fun_induction segments text with
  | case1 => rfl
  | case2 rest ih =>
    rw [List.intercalate_cons_of_ne_nil (segments_ne_nil rest), ih]
    rfl
  | case3 char rest _ none => exact absurd none (segments_ne_nil rest)
  | case4 char rest _ segment later found ih =>
    rw [found] at ih
    cases later with
    | nil => simpa using ih
    | cons next later =>
      rw [List.intercalate_cons_cons] at ih ⊢
      rw [← ih]
      rfl

/-- A text without colons is in front of the first segment of what follows it. -/
theorem segments_append {part : List Char} (plain : ':' ∉ part) (rest : List Char) :
    segments (part ++ rest) = (segments rest).modifyHead (part ++ ·) := by
  obtain ⟨segment, later, found⟩ := List.exists_cons_of_ne_nil (segments_ne_nil rest)
  rw [found, List.modifyHead_cons]
  induction part with
  | nil => exact found
  | cons char part ih =>
    rw [List.cons_append, segments.eq_3, ih fun inside => plain (List.mem_cons_of_mem _ inside)]
    · rfl
    · rintro text rfl
      simp at plain

/-- Texts without colons are the segments of what they are joined to. -/
theorem segments_intercalate {parts : List (List Char)} (some : parts ≠ [])
    (plain : ∀ part ∈ parts, ':' ∉ part) : segments ([':', ':'].intercalate parts) = parts := by
  induction parts with
  | nil => exact absurd rfl some
  | cons part parts ih =>
    obtain ⟨here, later⟩ := List.forall_mem_cons.1 plain
    cases parts with
    | nil => simpa [segments] using segments_append here []
    | cons next parts =>
      have cut : segments (':' :: ':' :: [':', ':'].intercalate (next :: parts)) =
          [] :: next :: parts :=
        congrArg _ (ih (List.cons_ne_nil _ _) later)
      have joined := segments_append here (':' :: ':' :: [':', ':'].intercalate (next :: parts))
      rw [cut, List.modifyHead_cons, List.append_nil] at joined
      rw [List.intercalate_cons_cons, List.append_assoc]
      exact joined

/-- The segments of a qualified name are its simple names. -/
theorem isQualified_iff {base : List Char} :
    IsQualified base ↔ ∀ part ∈ segments base, isSimpleName part := by
  constructor
  · rintro ⟨parts, some, simple, rfl⟩
    have plain : ∀ part ∈ parts, ':' ∉ part := by
      intro part mem colon
      have name := isNameChar_of_isSimpleName (isSimpleName_iff.2 (simple part mem)) colon
      simp [isNameChar] at name
    rw [segments_intercalate some plain]
    exact fun part mem => isSimpleName_iff.2 (simple part mem)
  · intro simple
    exact ⟨segments base, segments_ne_nil base, fun part mem =>
      isSimpleName_iff.1 (simple part mem), (intercalate_segments base).symm⟩

namespace IsQualified

variable {base : List Char}

theorem whole (qualified : IsQualified base) : Whole base := by
  have simple := isQualified_iff.1 qualified
  refine ⟨?_, nameLength_of_segments fun part mem _ => isNameChar_of_isSimpleName (simple part mem)⟩
  rintro rfl
  simp [segments, isSimpleName] at simple

/-- A qualified name has no mark in front. -/
theorem withoutGlobalMark_eq (qualified : IsQualified base) : withoutGlobalMark base = base := by
  unfold withoutGlobalMark
  split
  · have simple := isQualified_iff.1 qualified
    simp [segments, isSimpleName] at simple
  · rfl

end IsQualified

/-- The name of a reference without braces. -/
theorem referenceName_plain {name : String} (whole : Whole name.toList) :
    Parser.referenceName ("$" ++ name) = name := by
  have text : "$" ++ name = String.ofList ('$' :: name.toList) := by simp
  rw [text, Parser.referenceName_unbraced, String.ofList_toList]
  exact fun brace => whole.notMem (by decide) (by decide) (List.mem_of_mem_head? brace)

/-! ## Parts of names -/

/-- A name is its array and its key. -/
theorem exists_key (name : List Char) :
    ∃ key, name = arrayBase name ++ key ∧
      (key = [] ∨ key.head? = some '(' ∧ key.getLast? = some ')') := by
  simp only [arrayBase]
  split
  case isTrue element =>
    simp only [Bool.and_eq_true, List.contains_eq_mem, decide_eq_true_eq, beq_iff_eq] at element
    obtain ⟨⟨opened, -⟩, closed⟩ := element
    have whole : name.takeWhile (· != '(') ++ name.dropWhile (· != '(') = name :=
      List.takeWhile_append_dropWhile
    have stops := List.head?_dropWhile_not (· != '(') name
    have some : name.dropWhile (· != '(') ≠ [] := by
      simpa [List.dropWhile_eq_nil_iff] using opened
    refine ⟨name.dropWhile (· != '('), whole.symm, .inr ⟨?_, ?_⟩⟩
    · obtain ⟨first, later, left⟩ := List.exists_cons_of_ne_nil some
      rw [left] at stops ⊢
      simpa using stops
    · rw [← whole, List.getLast?_append_of_ne_nil _ some] at closed
      exact closed
  case isFalse => exact ⟨[], by simp, .inl rfl⟩

/-- A name is its mark and what is left without it. -/
theorem exists_mark (name : List Char) :
    ∃ mark, name = mark ++ withoutGlobalMark name ∧ (mark = [] ∨ mark = [':', ':']) := by
  unfold withoutGlobalMark
  split
  · exact ⟨[':', ':'], rfl, .inr rfl⟩
  · exact ⟨[], rfl, .inl rfl⟩

/-- An accepted name is made of its parts. -/
theorem exists_madeOf {name : String} (legal : isVariableName name) :
    ∃ mark base key, MadeOf name mark base key := by
  simp only [isVariableName, Bool.and_eq_true, Bool.not_eq_true', List.all_eq_true] at legal
  obtain ⟨⟨-, simple⟩, free⟩ := legal
  obtain ⟨key, whole, closed⟩ := exists_key name.toList
  obtain ⟨mark, marked, known⟩ := exists_mark (arrayBase name.toList)
  refine ⟨mark, withoutGlobalMark (arrayBase name.toList), key, ?_, known, isQualified_iff.2 simple,
    free, closed⟩
  rw [← List.append_assoc, ← marked, ← whole]

namespace MadeOf

variable {name : String} {mark base key : List Char}

/-- The mark and the qualified name are one name to the lexer. -/
theorem wholeName (made : MadeOf name mark base key) : Whole (mark ++ base) := by
  have whole := made.qualified.whole
  rcases made.marked with rfl | rfl
  · exact whole
  · exact ⟨by simp, by simp [Lexeme.nameLength, whole.length]⟩

theorem arrayBase_eq (made : MadeOf name mark base key) :
    arrayBase name.toList = mark ++ base := by
  have plain : '(' ∉ mark ++ base := made.wholeName.notMem (by decide) (by decide)
  rw [made.whole, ← List.append_assoc]
  rcases made.keyed with rfl | ⟨opened, closed⟩
  · rw [List.append_nil, arrayBase_of_scalar plain]
  · obtain ⟨inner, rfl⟩ := List.head?_eq_some_iff.1 opened
    obtain ⟨inside, split⟩ := List.getLast?_eq_some_iff.1 closed
    cases inside with
    | nil => cases split
    | cons first inside =>
      obtain ⟨rfl, rfl⟩ := List.cons.inj split
      exact arrayBase_of_element made.wholeName.nonempty plain

/-- What is made of its parts is accepted. -/
theorem legal (made : MadeOf name mark base key) : isVariableName name := by
  have body : withoutGlobalMark (arrayBase name.toList) = base := by
    rw [made.arrayBase_eq]
    rcases made.marked with rfl | rfl
    · exact made.qualified.withoutGlobalMark_eq
    · rfl
  simp only [isVariableName, body, Bool.and_eq_true, Bool.not_eq_true', List.isEmpty_eq_false_iff,
    List.all_eq_true]
  exact ⟨⟨made.qualified.whole.nonempty, isQualified_iff.1 made.qualified⟩, made.free⟩

theorem wholeText (made : MadeOf name mark base []) : Whole name.toList := by
  simpa [made.whole] using made.wholeName

/-- A name without a key is one reference behind a `$`. -/
theorem tokenize_eq (made : MadeOf name mark base []) :
    tokenize ("$" ++ name) =
      [⟨.reference, "$" ++ name, 1, ⟨0, byteLength name.toList + 1⟩, .none⟩,
        ⟨.endOfInput, "", 1, ⟨byteLength name.toList + 1, byteLength name.toList + 1⟩, .none⟩] := by
  have whole := made.wholeText
  have spells : Lexeme.Spells 0 0 ('$' :: name.toList) [] .reference :=
    .reference whole.length whole.nonempty (by simp [Lexeme.Breaks])
  have text : "$" ++ name = String.ofList ('$' :: name.toList) := by simp
  have oneLine : ('$' :: name.toList).count '\n' = 0 := by
    rw [List.count_eq_zero, List.mem_cons, not_or]
    exact ⟨by decide, whole.notMem (by decide) (by decide)⟩
  have bytes : byteLength ('$' :: name.toList) = byteLength name.toList + 1 := Nat.add_comm _ _
  rw [text, tokenize_of_spells spells (by simp), oneLine, bytes]
  rfl

end MadeOf

/-- The accepted names of variables are those of the grammar, with any key. The array of a name
is what stands in front of its key, and a name without a key is read back behind a `$`, as one
reference and nothing else. -/
theorem isVariableName_iff_madeOf (name : String) :
    (isVariableName name ↔ ∃ mark base key, MadeOf name mark base key) ∧
      (∀ mark base key, MadeOf name mark base key → arrayBase name.toList = mark ++ base) ∧
      ∀ mark base, MadeOf name mark base [] →
        tokenize ("$" ++ name) =
          [⟨.reference, "$" ++ name, 1, ⟨0, byteLength name.toList + 1⟩, .none⟩,
            ⟨.endOfInput, "", 1, ⟨byteLength name.toList + 1, byteLength name.toList + 1⟩,
              .none⟩] ∧
          Parser.referenceName ("$" ++ name) = name :=
  ⟨⟨exists_madeOf, fun ⟨_, _, _, made⟩ => made.legal⟩, fun _ _ _ made => made.arrayBase_eq,
    fun _ _ made => ⟨made.tokenize_eq, referenceName_plain made.wholeText⟩⟩

example : isVariableName "a:::b(k)" = false := by decide +kernel

/-- An element with a parenthesis in its key, and a name with a mark in front. -/
theorem isVariableName_iff_madeOf_marked :
    MadeOf "ns::arr(k)(x)" [] "ns::arr".toList "(k)(x)".toList ∧
      isVariableName "ns::arr(k)(x)" ∧
      arrayBase "ns::arr(k)(x)".toList = "ns::arr".toList ∧
      MadeOf "::ns::x" [':', ':'] "ns::x".toList [] ∧
      tokenize ("$" ++ "::ns::x") =
        [⟨.reference, "$::ns::x", 1, ⟨0, 8⟩, .none⟩, ⟨.endOfInput, "", 1, ⟨8, 8⟩, .none⟩] ∧
      Parser.referenceName ("$" ++ "::ns::x") = "::ns::x" := by
  have element : MadeOf "ns::arr(k)(x)" [] "ns::arr".toList "(k)(x)".toList :=
    ⟨by decide +kernel, .inl rfl, isQualified_iff.2 (by decide +kernel), by decide +kernel,
      .inr (by decide +kernel)⟩
  have marked : MadeOf "::ns::x" [':', ':'] "ns::x".toList [] :=
    ⟨by decide +kernel, .inr rfl, isQualified_iff.2 (by decide +kernel), by decide +kernel,
      .inl rfl⟩
  obtain ⟨accepted, arrays, -⟩ := isVariableName_iff_madeOf "ns::arr(k)(x)"
  obtain ⟨tokens, named⟩ := (isVariableName_iff_madeOf "::ns::x").2.2 _ _ marked
  exact ⟨element, accepted.2 ⟨_, _, _, element⟩, arrays _ _ _ element, marked,
    tokens.trans (by decide +kernel), named⟩

end Naming

end IRule
