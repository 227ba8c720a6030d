import IRule.Text.Cursor
import Mathlib.Tactic

/-!
# Cutting texts at byte offsets

A cut at the number of bytes of a text that stands in front gives that text and
what follows it. Among the bytes of a text, those of its line feeds are the only
ones with their value.
-/

namespace IRule.Text

/-- A text is split where its first part ends. -/
@[simp]
theorem splitBytes?_byteLength (first second : List Char) :
    splitBytes? (byteLength first) (first ++ second) = some (first, second) := by
  induction first with
  | nil => cases second <;> rfl
  | cons char rest ih =>
    have positive := char.utf8Size_pos
    obtain ⟨count, sum⟩ : ∃ count, char.utf8Size + byteLength rest = count + 1 :=
      ⟨char.utf8Size + byteLength rest - 1, by omega⟩
    have left : count + 1 - char.utf8Size = byteLength rest := by omega
    have fits : char.utf8Size ≤ count + 1 := by omega
    rw [byteLength_cons, List.cons_append, sum, splitBytes?, if_pos fits, left, ih]
    rfl

/-- The text between two others is what the offsets around it cut out. -/
theorem slice_append (before middle after : List Char) :
    slice (before ++ (middle ++ after)) ⟨byteLength before, byteLength (before ++ middle)⟩ =
      middle := by
  have ordered : byteLength before ≤ byteLength (before ++ middle) := by simp
  have between : byteLength (before ++ middle) - byteLength before = byteLength middle := by simp
  simp only [slice, ordered, between, splitBytes?_byteLength, if_true]

/-- A cut takes nothing away. -/
theorem splitBytes?_append {count : Nat} {text taken left : List Char}
    (split : splitBytes? count text = some (taken, left)) : text = taken ++ left := by
  fun_induction splitBytes? count text generalizing taken left with
  | case1 text =>
    cases split
    rfl
  | case2 => cases split
  | case3 count char rest _ ih =>
    obtain ⟨⟨taken, left⟩, inner, same⟩ := Option.map_eq_some_iff.1 split
    cases same
    rw [ih inner, List.cons_append]
  | case4 => cases split

/-- What is cut out of a text stands in it. -/
theorem slice_stands (text : List Char) (span : Span) : slice text span <:+: text := by
  unfold slice
  split
  · split
    · exact List.nil_infix
    · rename_i before rest first
      split
      · exact List.nil_infix
      · rename_i taken after second
        refine ⟨before, after, ?_⟩
        rw [splitBytes?_append first, splitBytes?_append second, List.append_assoc]
  · exact List.nil_infix

/-! ## Bytes of characters -/

theorem length_flatMap_utf8EncodeChar (text : List Char) :
    (text.flatMap String.utf8EncodeChar).length = byteLength text := by
  induction text with
  | nil => rfl
  | cons char rest ih => simp [ih]

/-- A character of ASCII is one byte; the bytes of any other are all above those. -/
theorem utf8EncodeChar_cases (char : Char) :
    (char.toNat < 128 ∧ String.utf8EncodeChar char = [UInt8.ofNat char.toNat]) ∨
      (128 ≤ char.toNat ∧ ∀ byte ∈ String.utf8EncodeChar char, 128 ≤ byte.toNat) := by
  have high (code : Nat) (above : 128 ≤ code) (small : code < 256) :
      128 ≤ (UInt8.ofNat code).toNat := by
    rw [UInt8.toNat_ofNat']
    omega
  by_cases ascii : char.val.toNat ≤ 127
  · exact .inl ⟨Nat.lt_succ_of_le ascii, by rw [String.utf8EncodeChar, if_pos ascii]; rfl⟩
  · refine .inr ⟨Nat.lt_of_not_le ascii, ?_⟩
    unfold String.utf8EncodeChar
    rw [if_neg ascii]
    split
    · simp only [List.forall_mem_cons, List.not_mem_nil, false_imp_iff, implies_true, and_true]
      exact ⟨high _ (by omega) (by omega), high _ (by omega) (by omega)⟩
    split
    · simp only [List.forall_mem_cons, List.not_mem_nil, false_imp_iff, implies_true, and_true]
      exact ⟨high _ (by omega) (by omega), high _ (by omega) (by omega),
        high _ (by omega) (by omega)⟩
    · simp only [List.forall_mem_cons, List.not_mem_nil, false_imp_iff, implies_true, and_true]
      exact ⟨high _ (by omega) (by omega), high _ (by omega) (by omega),
        high _ (by omega) (by omega), high _ (by omega) (by omega)⟩

/-- Characters of ASCII differ from each other in their bytes. -/
theorem ofNat_toNat_eq_iff {char mark : Char} (first : char.toNat < 128)
    (second : mark.toNat < 128) :
    UInt8.ofNat char.toNat = UInt8.ofNat mark.toNat ↔ char = mark := by
  rw [← UInt8.toNat_inj, UInt8.toNat_ofNat', UInt8.toNat_ofNat',
    Nat.mod_eq_of_lt (first.trans (by decide)), Nat.mod_eq_of_lt (second.trans (by decide)),
    Char.toNat_inj]

/-- The first byte of a text is that of a character of ASCII exactly when the text starts
with the character. -/
theorem head?_flatMap_utf8EncodeChar {mark : Char} (ascii : mark.toNat < 128)
    (text : List Char) :
    (text.flatMap String.utf8EncodeChar).head? = some (UInt8.ofNat mark.toNat) ↔
      text.head? = some mark := by
  cases text with
  | nil => simp
  | cons char rest =>
    rw [List.flatMap_cons, List.head?_cons, Option.some_inj]
    rcases utf8EncodeChar_cases char with ⟨small, one⟩ | ⟨large, high⟩
    · rw [one, List.singleton_append, List.head?_cons, Option.some_inj,
        ofNat_toNat_eq_iff small ascii]
    · have other : char ≠ mark := by
        rintro rfl
        omega
      obtain ⟨byte, bytes, starts⟩ :=
        List.exists_cons_of_ne_nil (String.utf8EncodeChar_ne_nil (c := char))
      have above := high byte (by simp [starts])
      rw [starts, List.cons_append, List.head?_cons, Option.some_inj]
      refine iff_of_false (fun same => ?_) other
      rw [same, UInt8.toNat_ofNat'] at above
      omega

/-- The byte of a character of ASCII stands only where the character does. -/
theorem exists_of_getElem?_utf8EncodeChar {mark : Char} (ascii : mark.toNat < 128)
    {text : List Char} {offset : Nat}
    (stands : (text.flatMap String.utf8EncodeChar)[offset]? = some (UInt8.ofNat mark.toNat)) :
    ∃ before rest, text = before ++ mark :: rest ∧ byteLength before = offset := by
  induction text generalizing offset with
  | nil => simp at stands
  | cons char rest ih =>
    have size : (String.utf8EncodeChar char).length = char.utf8Size := by simp
    by_cases first : offset = 0
    · subst first
      rw [← List.head?_eq_getElem?, head?_flatMap_utf8EncodeChar ascii] at stands
      obtain rfl : char = mark := by simpa using stands
      exact ⟨[], rest, rfl, rfl⟩
    rw [List.flatMap_cons] at stands
    by_cases within : offset < char.utf8Size
    · -- Only the first byte of a character can be one of ASCII.
      rw [List.getElem?_append_left (size ▸ within)] at stands
      rcases utf8EncodeChar_cases char with ⟨-, one⟩ | ⟨-, high⟩
      · rw [one] at size
        simp at size
        omega
      · have above := high _ (List.mem_of_getElem? stands)
        rw [UInt8.toNat_ofNat'] at above
        omega
    · rw [List.getElem?_append_right (by omega), size] at stands
      obtain ⟨before, after, rfl, count⟩ := ih stands
      exact ⟨char :: before, after, rfl, by rw [byteLength_cons]; omega⟩

/-- The byte of a line feed is part of no other character. -/
theorem count_utf8EncodeChar (char : Char) :
    (String.utf8EncodeChar char).count 10 = if char = '\n' then 1 else 0 := by
  rcases utf8EncodeChar_cases char with ⟨ascii, one⟩ | ⟨other, high⟩
  · have small := ofNat_toNat_eq_iff ascii (show '\n'.toNat < 128 by decide)
    rw [one, List.count_singleton]
    simp only [beq_iff_eq]
    exact if_congr small rfl rfl
  · rw [if_neg (fun same => absurd other (by subst same; decide)), List.count_eq_zero]
    exact fun mem => absurd (high 10 mem) (by decide)

/-- A text has as many line feed bytes as line feeds. -/
theorem count_flatMap_utf8EncodeChar (text : List Char) :
    (text.flatMap String.utf8EncodeChar).count 10 = text.count '\n' := by
  induction text with
  | nil => rfl
  | cons char rest ih =>
    rw [List.flatMap_cons, List.count_append, ih, count_utf8EncodeChar, List.count_cons,
      Nat.add_comm]
    simp only [beq_iff_eq]

end IRule.Text
