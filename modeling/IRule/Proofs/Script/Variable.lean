import IRule.Naming
import IRule.Proofs.Script.Legible

/-!
# Variables

The variables that a rule can assign under a literal name, and how a reference to
one is written. A reference to an element spells its array and its key, either as
one name in braces or as a name with a key behind it, and only in the latter is the
key a word of its own.
-/

namespace IRule

open Lexeme (isNameChar nameLength)

/-! ## Names -/

namespace Naming

theorem isNameChar_of_isSimpleName {name : List Char} (simple : isSimpleName name) {char : Char}
    (inside : char ∈ name) : isNameChar char := by
  cases name with
  | nil => simp at inside
  | cons first later =>
    simp only [isSimpleName, Bool.and_eq_true, Bool.or_eq_true, List.all_eq_true] at simple
    rcases List.mem_cons.1 inside with rfl | inside
    · simp only [isNameChar, Char.isAlphanum, Bool.or_eq_true]
      tauto
    · simpa [isNameChar] using simple.2 char inside

theorem nameLength_cons {char : Char} {rest : List Char} (name : isNameChar char) :
    nameLength (char :: rest) = nameLength rest + 1 := by
  rw [Lexeme.nameLength.eq_2]
  · simp [name]
  · rintro text rfl
    simp [isNameChar] at name

/-- Segments of name characters and the separators between them make up one name. -/
theorem nameLength_of_segments {text : List Char}
    (plain : ∀ segment ∈ segments text, ∀ char ∈ segment, isNameChar char) :
    nameLength text = text.length := by
  fun_induction segments text with
  | case1 => rfl
  | case2 rest ih =>
    rw [nameLength, ih fun segment inside => plain segment (List.mem_cons_of_mem _ inside)]
    rfl
  | case3 char rest _ none ih =>
    rw [nameLength_cons (plain [char] (by simp) char (by simp)), ih (by simp [none])]
    rfl
  | case4 char rest _ segment later found ih =>
    have first := plain (char :: segment) (List.mem_cons_self ..)
    rw [nameLength_cons (first char (List.mem_cons_self ..)), ih ?_]
    · rfl
    · intro other inside next within
      rw [found] at inside
      rcases List.mem_cons.1 inside with rfl | inside
      · exact first next (List.mem_cons_of_mem _ within)
      · exact plain other (List.mem_cons_of_mem _ inside) next within

/-- A whole name has no other characters than those of names and colons. -/
theorem chars_of_nameLength {text : List Char} (whole : nameLength text = text.length) :
    ∀ char ∈ text, isNameChar char ∨ char = ':' := by
  fun_induction nameLength text with
  | case1 rest ih =>
    have later := ih (by simpa using whole)
    simpa using later
  | case2 char rest _ name ih =>
    have later := ih (by simpa using whole)
    simpa [name] using later
  | case3 => simp at whole
  | case4 => simp

/-- What a legal name is made of, apart from the key of an element. -/
structure Whole (name : List Char) : Prop where
  nonempty : name ≠ []
  length : nameLength name = name.length

theorem Whole.of_legal {name : String} (legal : isVariableName name) :
    Whole (arrayBase name.toList) := by
  simp only [isVariableName, Bool.and_eq_true, Bool.not_eq_true', List.isEmpty_eq_false_iff,
    List.all_eq_true] at legal
  obtain ⟨⟨nonempty, simple⟩, -⟩ := legal
  have length : nameLength (withoutGlobalMark (arrayBase name.toList)) =
      (withoutGlobalMark (arrayBase name.toList)).length :=
    nameLength_of_segments fun segment inside _ =>
      isNameChar_of_isSimpleName (simple segment inside)
  generalize arrayBase name.toList = base at nonempty length ⊢
  unfold withoutGlobalMark at nonempty length
  split at length
  · exact ⟨by simp, by simpa [nameLength] using length⟩
  · exact ⟨by rintro rfl; simp at nonempty, length⟩

theorem Whole.chars {name : List Char} (whole : Whole name) :
    ∀ char ∈ name, isNameChar char ∨ char = ':' :=
  chars_of_nameLength whole.length

theorem Whole.notMem {name : List Char} (whole : Whole name) {char : Char}
    (other : isNameChar char = false) (mark : char ≠ ':') : char ∉ name := by
  intro inside
  simpa [other, mark] using whole.chars char inside

theorem arrayBase_of_scalar {name : List Char} (scalar : '(' ∉ name) : arrayBase name = name := by
  simp [arrayBase, scalar]

theorem arrayBase_of_element {array key : List Char} (nonempty : array ≠ []) (plain : '(' ∉ array) :
    arrayBase (array ++ '(' :: (key ++ [')'])) = array := by
  have base : (array ++ '(' :: (key ++ [')'])).takeWhile (· != '(') = array := by
    rw [List.takeWhile_append_of_pos]
    · simp
    · intro char inside
      simpa using ne_of_mem_of_not_mem inside plain
  have last : ('(' :: (key ++ [')'])).getLast? = some ')' := by
    rw [← List.cons_append, List.getLast?_concat]
  simp [arrayBase, base, nonempty, last]

end Naming

/-- A variable with a literal name: a scalar, or an element of an array. -/
inductive Variable where
  | scalar (name : String)
  | element (array key : String)
deriving DecidableEq, Repr, Inhabited

namespace Variable

/-- The name that is assigned. -/
def name : Variable → String
  | scalar name => name
  | element array key => array ++ "(" ++ key ++ ")"

theorem toList_name_element (array key : String) :
    (element array key).name.toList = array.toList ++ '(' :: (key.toList ++ [')']) := by
  simp [name]

/-- The name that an assignment declares. -/
def base : Variable → String
  | scalar name => name
  | element array _ => array

/-- Whether the variable has a legal name, and letters and digits for a key. -/
def isLegal (assigned : Variable) : Bool :=
  Naming.isVariableName assigned.name && !assigned.base.toList.contains '(' &&
    match assigned with
    | scalar _ => true
    | element _ key => !key.toList.isEmpty && key.toList.all Char.isAlphanum

/-- A reference to the variable, with or without braces. -/
def reference (assigned : Variable) (braced : Bool) : String :=
  if braced then bracedReference assigned.name else "$" ++ assigned.name

/-- A rule that assigns a number to the variable and returns a reference to it. -/
def program (assigned : Variable) (value : Int64) (braced : Bool) : String :=
  "set " ++ assigned.name ++ " " ++ Text.int64Text value ++ "\nreturn " ++
    assigned.reference braced

/-- The digits that a key starts with. -/
def leadingDigits (key : String) : List Char :=
  key.toList.takeWhile Char.isDigit

/-- Whether the digits that a key starts with fit an integer. -/
def fitsKey (key : String) : Bool :=
  (leadingDigits key).isEmpty || (Text.int64? (leadingDigits key)).isSome

/-- The key that an element is looked up with: a number is evaluated. -/
def lookupKey (key : String) : String :=
  match Text.int64? key.toList with
  | some value => Text.int64Text value
  | none => key

/-- Whether a reference is read without a problem. A name in braces has to be declared
as it is, and what is declared for an element is its array; only names with a namespace
are not checked. -/
def isAccepted (braced : Bool) : Variable → Bool
  | scalar _ => true
  | element array key => if braced then (splitNamespace? array.toList).isSome else fitsKey key

/-- The name that a reference looks up. -/
def lookupName (braced : Bool) : Variable → String
  | scalar name => name
  | element array key => (element array (if braced then key else lookupKey key)).name

/-- Whether a reference gives what was assigned. The key of an element in braces is
taken as it is, but then only a namespace keeps the name from being checked. Without
braces, a key that is a number has to be written as numbers are. -/
def isReadable (braced : Bool) : Variable → Bool
  | scalar _ => true
  | element array key =>
    if braced then (splitNamespace? array.toList).isSome else fitsKey key && lookupKey key == key

/-- What a key is read as. -/
def keyNode (key : String) : Expression :=
  match Text.int64? key.toList with
  | some value => .number default value
  | none =>
    if key = "true" then .boolean default true
    else if key = "false" then .boolean default false
    else .identifier default key false false

/-- A key declares nothing. -/
theorem names_keyNode (key : String) : (keyNode key).names = [] := by
  unfold keyNode
  repeat' split
  all_goals simp [Expression.names, Node.declares]

/-- What a reference is read as. -/
def node (braced : Bool) : Variable → Expression
  | scalar name => .identifier default name true false
  | element array key =>
    if braced then .identifier default (element array key).name true false
    else .element default (.identifier default array true false) (keyNode key)

theorem element_name_inj {array key other : String} :
    (element array key).name = (element array other).name ↔ key = other := by
  simp [name, ← String.toList_inj]

/-- A reference gives what was assigned if it is accepted and looks up the same name. -/
theorem isReadable_eq (assigned : Variable) (braced : Bool) :
    assigned.isReadable braced =
      (assigned.isAccepted braced && assigned.lookupName braced == assigned.name) := by
  cases assigned with
  | scalar text => simp [isReadable, isAccepted, lookupName, name]
  | element array key =>
    cases braced with
    | true => simp [isReadable, isAccepted, lookupName]
    | false =>
      have same : ((element array (lookupKey key)).name == (element array key).name) =
          (lookupKey key == key) := by
        rw [Bool.eq_iff_iff, beq_iff_eq, beq_iff_eq, element_name_inj]
      simp [isReadable, isAccepted, lookupName, same]

/-! ## Namespaces -/

theorem splitNamespace?_eq_none {text : List Char} (plain : ':' ∉ text) :
    splitNamespace? text = none := by
  fun_induction splitNamespace? text with
  | case1 => rfl
  | case2 => simp at plain
  | case3 char rest _ ih =>
    simp [ih fun inside => plain (List.mem_cons_of_mem _ inside)]

/-- A text has no more of a namespace for what follows it. -/
theorem splitNamespace?_append {text more : List Char} (plain : ':' ∉ more) :
    (splitNamespace? (text ++ more)).isSome = (splitNamespace? text).isSome := by
  fun_induction splitNamespace? text with
  | case1 => simp [splitNamespace?_eq_none plain]
  | case2 => simp [splitNamespace?]
  | case3 char rest notMark ih =>
    rw [List.cons_append, splitNamespace?.eq_3]
    · simpa using ih
    · rintro later rfl same
      cases rest with
      | nil => exact plain (by simp [show more = ':' :: later from same])
      | cons next rest =>
        obtain ⟨rfl, -⟩ := List.cons.inj same
        exact notMark _ rfl rfl

/-! ## Legal variables -/

section Legal

variable {assigned : Variable}

theorem isVariableName_of_isLegal (legal : assigned.isLegal) :
    Naming.isVariableName assigned.name := by
  simp only [isLegal, Bool.and_eq_true] at legal
  exact legal.1.1

theorem plain_of_isLegal (legal : assigned.isLegal) : '(' ∉ assigned.base.toList := by
  simp only [isLegal, Bool.and_eq_true, Bool.not_eq_true', List.contains_eq_mem,
    decide_eq_false_iff_not] at legal
  exact legal.1.2

theorem key_of_isLegal {array key : String} (legal : (element array key).isLegal) :
    key.toList ≠ [] ∧ ∀ char ∈ key.toList, char.isAlphanum := by
  simp only [isLegal, Bool.and_eq_true, Bool.not_eq_true', List.isEmpty_eq_false_iff,
    List.all_eq_true] at legal
  exact legal.2

/-- An assignment declares the base of the variable. -/
theorem arrayBase_name (legal : assigned.isLegal) :
    Naming.arrayBase assigned.name.toList = assigned.base.toList := by
  have plain := plain_of_isLegal legal
  cases assigned with
  | scalar name => exact Naming.arrayBase_of_scalar plain
  | element array key =>
    by_cases empty : array.toList = []
    · -- Without an array the parenthesis would be part of the name itself.
      have whole := Naming.Whole.of_legal (isVariableName_of_isLegal legal)
      have itself : Naming.arrayBase (element array key).name.toList =
          (element array key).name.toList := by
        simp [Naming.arrayBase, toList_name_element, empty]
      rw [itself, toList_name_element] at whole
      have paren := whole.notMem (show isNameChar '(' = false by decide) (by decide)
      simp at paren
    · rw [toList_name_element]
      exact Naming.arrayBase_of_element empty plain

theorem whole_of_isLegal (legal : assigned.isLegal) : Naming.Whole assigned.base.toList := by
  rw [← arrayBase_name legal]
  exact .of_legal (isVariableName_of_isLegal legal)

theorem declaredName_name (legal : assigned.isLegal) :
    declaredName assigned.name = assigned.base := by
  rw [declaredName, arrayBase_name legal, String.ofList_toList]

/-- The characters of a legal name. -/
theorem chars_of_isLegal (legal : assigned.isLegal) :
    ∀ char ∈ assigned.name.toList, isNameChar char ∨ char ∈ [':', '(', ')'] := by
  intro char inside
  have ofBase (there : char ∈ assigned.base.toList) :
      isNameChar char ∨ char ∈ [':', '(', ')'] :=
    ((whole_of_isLegal legal).chars char there).imp_right (by simp +contextual)
  cases assigned with
  | scalar name => exact ofBase inside
  | element array key =>
    obtain ⟨-, plain⟩ := key_of_isLegal legal
    simp only [name, String.toList_append, List.mem_append] at inside
    rcases inside with ((inside | inside) | inside) | inside
    · exact ofBase inside
    · exact .inr (by simpa using .inr (.inl (by simpa using inside)))
    · exact .inl (by simp [isNameChar, plain char inside])
    · exact .inr (by simpa using .inr (.inr (by simpa using inside)))

theorem isRawName_name (legal : assigned.isLegal) : isRawName assigned.name := by
  have raw (char : Char) (known : isNameChar char ∨ char ∈ [':', '(', ')']) : isRawChar char := by
    by_contra special
    simp only [isRawChar, Lexeme.startsTrivia, Lexeme.isSpace, Bool.not_eq_true',
      Bool.not_eq_false, Bool.or_eq_true, beq_iff_eq, List.contains_cons, List.contains_nil,
      Bool.false_eq_true, or_false] at special
    rcases special with ((((((rfl | rfl) | rfl) | rfl) | rfl) | rfl) | rfl) | rfl | rfl | rfl |
      rfl | rfl | rfl <;> simp [isNameChar] at known
  have nonempty : assigned.name.toList ≠ [] := by
    intro empty
    have base := (whole_of_isLegal legal).nonempty
    rw [← arrayBase_name legal, empty] at base
    simp [Naming.arrayBase] at base
  obtain ⟨first, later, written⟩ := List.exists_cons_of_ne_nil nonempty
  have unnamed : first ≠ '$' := by
    rintro rfl
    have known := chars_of_isLegal legal '$' (by simp [written])
    simp [isNameChar] at known
  simp only [isRawName, Bool.and_eq_true, List.all_eq_true]
  exact ⟨by simp [written, unnamed],
    fun char inside => raw char (chars_of_isLegal legal char inside)⟩

/-- The name of an element is checked unless its array has a namespace. -/
theorem allow_name_element {array key : String} (legal : (element array key).isLegal) :
    ({ known := [array] } : Names).allow (element array key).name =
      (splitNamespace? array.toList).isSome := by
  obtain ⟨-, plain⟩ := key_of_isLegal legal
  have noColon : ':' ∉ '(' :: (key.toList ++ [')']) := by
    simp only [List.mem_cons, List.mem_append, List.not_mem_nil, or_false, not_or]
    refine ⟨by decide, fun inside => ?_, by decide⟩
    have colon := plain ':' inside
    simp at colon
  have unknown : (element array key).name ≠ array := by
    intro same
    have lengths := congrArg (·.toList.length) same
    simp [toList_name_element] at lengths
  simp [Names.allow, toList_name_element, splitNamespace?_append noColon, unknown]

end Legal

end Variable

end IRule
