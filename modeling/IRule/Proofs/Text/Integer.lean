import IRule.Text.Integer
import Mathlib.Tactic

/-!
# Integers written and read back

The digits of a 64-bit integer are read back as that integer.
-/

namespace IRule.Text

/-- Digits are read as the number they denote. -/
theorem digitsValue?_eq_ofDigitChars {digits : List Char} {value : Nat}
    (digit : ∀ char ∈ digits, char.isDigit) :
    digitsValue? value digits = some (Nat.ofDigitChars 10 digits value) := by
  induction digits generalizing value with
  | nil => rfl
  | cons char rest ih =>
    have here : char.isDigit := digit char (List.mem_cons_self ..)
    rw [digitsValue?, if_pos here, ih fun later inside =>
      digit later (List.mem_cons_of_mem _ inside), Nat.mul_comm value 10]
    rfl

/-- Decimal digits. -/
theorem isDigit_of_mem_toDigits {value : Nat} {char : Char}
    (inside : char ∈ Nat.toDigits 10 value) :
    char.isDigit :=
  Nat.isDigit_of_mem_toDigits (by decide) (by decide) inside

@[simp]
theorem natural?_toDigits (value : Nat) : natural? (Nat.toDigits 10 value) = some value := by
  have reads : digitsValue? 0 (Nat.toDigits 10 value) = _ :=
    digitsValue?_eq_ofDigitChars fun _ => isDigit_of_mem_toDigits
  rw [Nat.ofDigitChars_ten_toDigits] at reads
  unfold natural?
  split
  · exact absurd ‹_› Nat.toDigits_ne_nil
  · exact reads

/-- Written form of an integer: its digits, with a sign when it is negative. -/
theorem toList_toString (value : Int) :
    (toString value).toList =
      if 0 ≤ value then Nat.toDigits 10 value.toNat
      else '-' :: Nat.toDigits 10 (-value).toNat := by
  rw [Int.toString_eq_repr, Int.repr_eq_if]
  split <;> simp [Nat.toList_repr]

@[simp]
theorem toDigits_oneLine (value : Nat) : '\n' ∉ Nat.toDigits 10 value :=
  fun mem => absurd (isDigit_of_mem_toDigits mem) (by decide)

/-- A number is written on one line. -/
theorem toString_oneLine (value : Int) : '\n' ∉ (toString value).toList := by
  rw [toList_toString]
  split <;> simp

theorem integer?_unsigned {first : Char} {rest : List Char} (notMinus : first ≠ '-')
    (notPlus : first ≠ '+') :
    integer? (first :: rest) = (natural? (first :: rest)).map Int.ofNat := by
  unfold integer?
  split <;> simp_all

/-- An integer is what its written form is read as. -/
theorem integer?_toString (value : Int) : integer? (toString value).toList = some value := by
  rw [toList_toString]
  split
  · obtain ⟨first, rest, digits⟩ := List.exists_cons_of_ne_nil
      (Nat.toDigits_ne_nil (n := value.toNat) (b := 10))
    have inside : first ∈ Nat.toDigits 10 value.toNat := by simp [digits]
    have digit := isDigit_of_mem_toDigits inside
    have reads := natural?_toDigits value.toNat
    have notMinus : first ≠ '-' := by rintro rfl; simp at digit
    have notPlus : first ≠ '+' := by rintro rfl; simp at digit
    rw [digits] at reads ⊢
    simp [integer?_unsigned notMinus notPlus, reads]
    omega
  · simp [integer?]
    omega

/-- A 64-bit integer is what its written form is read as. -/
@[simp]
theorem int64?_int64Text (value : Int64) : int64? (int64Text value).toList = some value := by
  have low := Int64.minValue_le value
  have high := Int64.le_maxValue value
  rw [Int64.le_iff_toInt_le] at low high
  have fits : (Int64.minValue.toInt ≤ value.toInt && value.toInt ≤ Int64.maxValue.toInt) =
      true := by
    simp only [Bool.and_eq_true, decide_eq_true_eq]
    exact ⟨low, high⟩
  rw [int64?, int64Text, integer?_toString, Option.bind_some, int64OfInt?, if_pos fits,
    Int64.ofInt_toInt]

/-- Digits with anything else among them are no number. -/
theorem digitsValue?_eq_none {text : List Char} {value : Nat} {char : Char}
    (inside : char ∈ text) (other : char.isDigit = false) : digitsValue? value text = none := by
  induction text generalizing value with
  | nil => simp at inside
  | cons first rest ih =>
    unfold digitsValue?
    rcases List.mem_cons.1 inside with rfl | inside
    · simp [other]
    · split
      · exact ih inside
      · rfl

/-- A text with a value is a run of digits. -/
theorem isDigit_of_natural? {text : List Char} {value : Nat} (reads : natural? text = some value) :
    text ≠ [] ∧ ∀ char ∈ text, char.isDigit := by
  cases text with
  | nil => simp [natural?] at reads
  | cons first rest =>
    refine ⟨by simp, fun char inside => ?_⟩
    by_contra other
    have none : natural? (first :: rest) = none :=
      digitsValue?_eq_none inside (Bool.eq_false_iff.2 other)
    simp [none] at reads

/-- What denotes an integer, and has no plus sign in front, is a run of digits with or
without a minus sign. -/
theorem exists_digits_of_int64? {text : List Char} {value : Int64}
    (reads : int64? text = some value) (unsigned : text.head? ≠ some '+') :
    ∃ digits : List Char, digits ≠ [] ∧ (∀ char ∈ digits, char.isDigit) ∧
      (text = digits ∨ text = '-' :: digits) := by
  obtain ⟨whole, reads, -⟩ := Option.bind_eq_some_iff.1 reads
  unfold integer? at reads
  split at reads
  · obtain ⟨magnitude, reads, -⟩ := Option.map_eq_some_iff.1 reads
    obtain ⟨nonempty, digit⟩ := isDigit_of_natural? reads
    exact ⟨_, nonempty, digit, .inr rfl⟩
  · simp at unsigned
  · obtain ⟨magnitude, reads, -⟩ := Option.map_eq_some_iff.1 reads
    obtain ⟨nonempty, digit⟩ := isDigit_of_natural? reads
    exact ⟨_, nonempty, digit, .inl rfl⟩

/-- A word with a letter in it is no number. -/
theorem int64?_eq_none {text : List Char} (plain : ∀ char ∈ text, char.isAlphanum) {letter : Char}
    (inside : letter ∈ text) (other : letter.isDigit = false) : int64? text = none := by
  cases text with
  | nil => simp at inside
  | cons first rest =>
    have here := plain first (List.mem_cons_self ..)
    have notMinus : first ≠ '-' := by rintro rfl; simp at here
    have notPlus : first ≠ '+' := by rintro rfl; simp at here
    have none : natural? (first :: rest) = none := digitsValue?_eq_none inside other
    simp [int64?, integer?_unsigned notMinus notPlus, none]

/-! ## Integers of 64 bits -/

/-- The integer is that of a 64-bit word. -/
def Fits (value : Int) : Prop :=
  Int64.minValue.toInt ≤ value ∧ value ≤ Int64.maxValue.toInt

instance (value : Int) : Decidable (Fits value) :=
  inferInstanceAs (Decidable (_ ∧ _))

theorem fits_toInt (word : Int64) : Fits word.toInt :=
  ⟨Int64.minValue_le_toInt word, Int64.toInt_le word⟩

/-- An integer of 64 bits has the word that denotes it. -/
theorem int64OfInt?_eq_some_iff {value : Int} {word : Int64} :
    int64OfInt? value = some word ↔ word.toInt = value := by
  unfold int64OfInt?
  split <;> rename_i range
  · obtain ⟨low, high⟩ : Fits value := by simpa [Fits] using range
    have same : (Int64.ofInt value).toInt = value := by
      rw [Int64.toInt_minValue] at low
      rw [Int64.toInt_maxValue] at high
      exact Int64.toInt_ofInt_of_le low (by omega)
    rw [Option.some_inj, ← Int64.toInt_inj, same, eq_comm]
  · refine iff_of_false (by simp) ?_
    rintro rfl
    exact range (by simpa [Fits] using fits_toInt word)

theorem fits_iff {value : Int} : Fits value ↔ ∃ word : Int64, word.toInt = value := by
  constructor
  · intro fits
    obtain ⟨word, found⟩ : ∃ word, int64OfInt? value = some word :=
      ⟨Int64.ofInt value, by simpa [int64OfInt?, Fits] using fits⟩
    exact ⟨word, int64OfInt?_eq_some_iff.1 found⟩
  · rintro ⟨word, rfl⟩
    exact fits_toInt word

/-- Only integers beyond 64 bits have no word. -/
theorem int64OfInt?_eq_none_iff {value : Int} : int64OfInt? value = none ↔ ¬ Fits value := by
  simp [int64OfInt?, Fits]

end IRule.Text
