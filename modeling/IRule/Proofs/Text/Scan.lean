import IRule.Proofs.Text.Bytes

/-!
# Scans for the end of a nested text

A scan reads characters, keeps track of what they open and close, and is over at
the first one that leaves nothing open; a backslash hides the character after it.
Since all that matters is in ASCII, reading bytes instead of characters comes to
the same end, at the same place of the text.
-/

namespace IRule.Text

/-- How a character changes what is open, and when nothing is. Only characters of ASCII
change anything. -/
structure Scan (α : Type) where
  change : α → Char → α
  done : α → Bool
  plain : ∀ state char, 128 ≤ char.toNat → change state char = state

namespace Scan

variable {α : Type} (scan : Scan α)

/-- Characters in front of the one that ends the scan. -/
def length? (state : α) : List Char → Option Nat
  | [] => none
  | '\\' :: rest =>
    match rest with
    | [] => none
    | _ :: later => (length? state later).map (· + 2)
  | char :: rest =>
    if scan.done (scan.change state char) then some 0
    else (length? (scan.change state char) rest).map (· + 1)

section Extension

variable {scan} {state : α} {text : List Char} {length : Nat}

/-- What follows the end of a scan does not matter. -/
theorem length?_append (found : scan.length? state text = some length) (more : List Char) :
    scan.length? state (text ++ more) = some length := by
  fun_induction length? scan state text generalizing length with
  | case1 | case2 => simp at found
  | case3 | case5 =>
    obtain ⟨inner, known, rfl⟩ := Option.map_eq_some_iff.1 found
    simp_all [length?]
  | case4 => simp_all [length?]

/-- A scan that ends within a text ends there without what follows the text. -/
theorem length?_of_append {more : List Char}
    (found : scan.length? state (text ++ more) = some length) (within : length < text.length) :
    scan.length? state text = some length := by
  fun_induction length? scan state text generalizing length with
  | case1 => simp at within
  | case2 =>
    obtain rfl : length = 0 := by simpa using within
    cases more <;> simp [length?] at found
  | case3 | case5 =>
    rename_i ih
    simp_all only [List.cons_append, length?, List.length_cons]
    obtain ⟨inner, known, rfl⟩ := Option.map_eq_some_iff.1 found
    simp [ih known (by omega)]
  | case4 => simp_all [length?]

end Extension

/-! ## Bytes -/

/-- What is open at a place of a text, and whether a backslash hides the next byte. -/
structure Place (α : Type) where
  state : α
  hidden : Bool := false

/-- Read one byte. The one of a backslash is 92. -/
def read (place : Place α) (byte : UInt8) : Place α :=
  if place.hidden then ⟨place.state, false⟩
  else if byte = 92 then ⟨place.state, true⟩
  else ⟨scan.change place.state (Char.ofNat byte.toNat), false⟩

/-- Read some bytes. -/
def readAll (place : Place α) (bytes : List UInt8) : Place α :=
  bytes.foldl scan.read place

/-- What is open at the byte offset `stop` of a text, read from the offset `start` on,
where `state` is. -/
def between (state : α) (text : List Char) (start stop : Nat) : α :=
  (scan.readAll ⟨state, false⟩
    (((Cursor.bytes { source := text }).drop start).take (stop - start))).state

/-- Read from `start` on, where `state` is open, the byte at `index` is the first that
leaves nothing open. -/
structure EndsAt (state : α) (text : List Char) (start index : Nat) : Prop where
  ordered : start ≤ index
  inside : index < byteLength text
  ends : scan.done (scan.between state text start (index + 1))
  first : ∀ stop, start ≤ stop → stop ≤ index → ¬scan.done (scan.between state text start stop)

variable {scan} {state : α} {text : List Char}

/-- Only one byte is the first. -/
theorem EndsAt.unique {start index other : Nat} (here : scan.EndsAt state text start index)
    (there : scan.EndsAt state text start other) : index = other := by
  rcases Nat.lt_trichotomy index other with less | same | less
  · exact absurd here.ends (there.first _ (here.ordered.trans (Nat.le_succ _)) less)
  · exact same
  · exact absurd there.ends (here.first _ (there.ordered.trans (Nat.le_succ _)) less)

variable (scan) in
/-- The scan is not over in front of any of the bytes, nor behind the last. -/
def GoesOn (place : Place α) (bytes : List UInt8) : Prop :=
  ∀ first, first <+: bytes → ¬scan.done (scan.readAll place first).state

variable {place : Place α} {bytes : List UInt8}

@[simp]
theorem readAll_nil : scan.readAll place [] = place := rfl

@[simp]
theorem readAll_cons (byte : UInt8) :
    scan.readAll place (byte :: bytes) = scan.readAll (scan.read place byte) bytes := rfl

theorem readAll_append (first second : List UInt8) :
    scan.readAll place (first ++ second) = scan.readAll (scan.readAll place first) second :=
  List.foldl_append

theorem GoesOn.nil (more : ¬scan.done place.state) : scan.GoesOn place [] := by
  intro first within
  rwa [List.prefix_nil.1 within]

theorem GoesOn.cons {byte : UInt8} (more : ¬scan.done place.state)
    (later : scan.GoesOn (scan.read place byte) bytes) : scan.GoesOn place (byte :: bytes) := by
  intro first within
  rcases List.prefix_cons_iff.1 within with rfl | ⟨rest, rfl, inLater⟩
  · exact more
  · exact later rest inLater

/-! ## Characters -/

variable (scan) in
/-- Read one character. -/
def pass (place : Place α) (char : Char) : Place α :=
  if place.hidden then ⟨place.state, false⟩
  else if char = '\\' then ⟨place.state, true⟩
  else ⟨scan.change place.state char, false⟩

/-- Bytes outside ASCII change nothing. -/
theorem read_high {byte : UInt8} (high : 128 ≤ byte.toNat) :
    scan.read place byte = ⟨place.state, false⟩ := by
  have apart : byte ≠ 92 := by
    rintro rfl
    exact absurd high (by decide)
  have code : (Char.ofNat byte.toNat).toNat = byte.toNat := by
    have small := byte.toNat_lt
    have valid : byte.toNat.isValidChar := .inl (by omega)
    rw [Char.ofNat, dif_pos valid]
    rfl
  have same := scan.plain place.state _ (code ▸ high)
  unfold read
  rw [same, if_neg apart]
  split <;> rfl

theorem readAll_high (high : ∀ byte ∈ bytes, 128 ≤ byte.toNat) (nonempty : bytes ≠ []) :
    scan.readAll place bytes = ⟨place.state, false⟩ := by
  induction bytes generalizing place with
  | nil => exact absurd rfl nonempty
  | cons byte rest ih =>
    rw [readAll_cons, read_high (high byte (by simp))]
    by_cases last : rest = []
    · rw [last, readAll_nil]
    · rw [ih (fun other mem => high other (by simp [mem])) last]

theorem GoesOn.of_high {later : List UInt8} (high : ∀ byte ∈ bytes, 128 ≤ byte.toNat)
    (more : ¬scan.done place.state) (goesOn : scan.GoesOn (scan.readAll place bytes) later) :
    scan.GoesOn place (bytes ++ later) := by
  induction bytes generalizing place with
  | nil => exact goesOn
  | cons byte rest ih =>
    refine .cons more (ih (fun other mem => high other (by simp [mem])) ?_ goesOn)
    rwa [read_high (high byte (by simp))]

theorem readAll_utf8EncodeChar (char : Char) :
    scan.readAll place (String.utf8EncodeChar char) = scan.pass place char := by
  rcases utf8EncodeChar_cases char with ⟨ascii, one⟩ | ⟨other, high⟩
  · have hides := ofNat_toNat_eq_iff ascii (show '\\'.toNat < 128 by decide)
    have code : (UInt8.ofNat char.toNat).toNat = char.toNat := by
      rw [UInt8.toNat_ofNat']
      omega
    rw [one, readAll_cons, readAll_nil, read, code, Char.ofNat_toNat]
    exact if_congr Iff.rfl rfl (if_congr hides rfl rfl)
  · have apart : char ≠ '\\' := by
      rintro rfl
      exact absurd other (by decide)
    rw [readAll_high high (by simp [String.utf8EncodeChar_ne_nil]), pass, if_neg apart,
      scan.plain _ _ other]
    split <;> rfl

theorem GoesOn.char {char : Char} (more : ¬scan.done place.state)
    (later : scan.GoesOn (scan.pass place char) bytes) :
    scan.GoesOn place (String.utf8EncodeChar char ++ bytes) := by
  rw [← readAll_utf8EncodeChar] at later
  rcases utf8EncodeChar_cases char with ⟨ascii, one⟩ | ⟨other, high⟩
  · rw [one] at later ⊢
    exact .cons more later
  · exact .of_high high more later

variable (scan) in
/-- The scan goes on all the way through a text and is over at the character behind it. -/
structure Reaches (place : Place α) (text : List Char) (char : Char) : Prop where
  goesOn : scan.GoesOn place (text.flatMap String.utf8EncodeChar)
  ends : ∃ last, scan.readAll place (text.flatMap String.utf8EncodeChar) = ⟨last, false⟩ ∧
    scan.done (scan.change last char)

theorem Reaches.char {char last : Char} (more : ¬scan.done place.state)
    (later : scan.Reaches (scan.pass place char) text last) :
    scan.Reaches place (char :: text) last where
  goesOn := .char more later.goesOn
  ends := by
    obtain ⟨open', reads, ended⟩ := later.ends
    refine ⟨open', ?_, ended⟩
    rw [List.flatMap_cons, readAll_append, readAll_utf8EncodeChar, reads]

theorem pass_plain {char : Char} (plain : char ≠ '\\') :
    scan.pass ⟨state, false⟩ char = ⟨scan.change state char, false⟩ := by
  simp [pass, plain]

/-- A scan that ends reaches the character at which it does. -/
theorem length?_reaches {length : Nat} (found : scan.length? state text = some length)
    (more : ¬scan.done state) :
    ∃ char later, text.drop length = char :: later ∧ char ≠ '\\' ∧
      scan.Reaches ⟨state, false⟩ (text.take length) char := by
  fun_induction length? scan state text generalizing length with
  | case1 | case2 => simp at found
  | case3 state hidden rest ih =>
    obtain ⟨inner, known, rfl⟩ := Option.map_eq_some_iff.1 found
    obtain ⟨char, later, drop, plain, reaches⟩ := ih known more
    exact ⟨char, later, drop, plain, .char more (.char more reaches)⟩
  | case4 state char rest plain ended =>
    obtain rfl : 0 = length := by simpa using found
    exact ⟨char, rest, rfl, by simpa using plain, .nil more, state, rfl, ended⟩
  | case5 state char rest plain goesOn ih =>
    obtain ⟨inner, known, rfl⟩ := Option.map_eq_some_iff.1 found
    obtain ⟨last, later, drop, notHiding, reaches⟩ := ih known goesOn
    refine ⟨last, later, drop, notHiding, .char more ?_⟩
    rwa [pass_plain (by simpa using plain)]

/-- A scan without an end goes on to the end of the text. -/
theorem length?_goesOn (missing : scan.length? state text = none) (more : ¬scan.done state) :
    scan.GoesOn ⟨state, false⟩ (text.flatMap String.utf8EncodeChar) := by
  fun_induction length? scan state text with
  | case1 => exact .nil more
  | case2 => exact .char more (.nil more)
  | case3 state hidden rest ih =>
    exact .char more (.char more (ih (Option.map_eq_none_iff.1 missing) more))
  | case4 => simp at missing
  | case5 state char rest plain goesOn ih =>
    refine .char more ?_
    rw [pass_plain (by simpa using plain)]
    exact ih (Option.map_eq_none_iff.1 missing) goesOn

/-! ## Where a scan ends -/

/-- Read from the end of some text, only what follows it counts. -/
theorem between_append (passed rest : List Char) (stop : Nat) :
    scan.between state (passed ++ rest) (byteLength passed) stop =
      (scan.readAll ⟨state, false⟩
        ((rest.flatMap String.utf8EncodeChar).take (stop - byteLength passed))).state := by
  rw [between, Cursor.bytes, List.flatMap_append, ← length_flatMap_utf8EncodeChar,
    List.drop_left]

/-- The character that ends a scan is a byte. -/
theorem utf8EncodeChar_of_ends {last : α} {char : Char} (more : ¬scan.done last)
    (ended : scan.done (scan.change last char)) :
    String.utf8EncodeChar char = [UInt8.ofNat char.toNat] := by
  rcases utf8EncodeChar_cases char with ⟨-, one⟩ | ⟨other, -⟩
  · exact one
  · rw [scan.plain _ _ other] at ended
    exact absurd ended more

/-- The first byte that leaves nothing open is the one at which the scan ends. -/
theorem endsAt_of_length? {rest : List Char} {length : Nat} (passed : List Char)
    (found : scan.length? state rest = some length) (more : ¬scan.done state) :
    scan.EndsAt state (passed ++ rest) (byteLength passed)
      (byteLength passed + byteLength (rest.take length)) := by
  obtain ⟨char, later, drop, notHiding, goesOn, last, reads, ended⟩ := length?_reaches found more
  have whole := List.take_append_drop length rest
  rw [drop] at whole
  generalize rest.take length = body at *
  subst whole
  have size := length_flatMap_utf8EncodeChar body
  have open' := goesOn _ (List.prefix_refl _)
  rw [reads] at open'
  have one := utf8EncodeChar_of_ends open' ended
  constructor
  case ordered => omega
  case inside =>
    have := char.utf8Size_pos
    simp only [byteLength_append, byteLength_cons]
    omega
  case ends =>
    have count : byteLength passed + byteLength body + 1 - byteLength passed =
        (body.flatMap String.utf8EncodeChar).length + 1 := by omega
    rw [between_append, List.flatMap_append, count, List.take_length_add_append,
      List.flatMap_cons, one, List.singleton_append, List.take_succ_cons, List.take_zero, ← one,
      readAll_append, reads, readAll_utf8EncodeChar, pass_plain notHiding]
    exact ended
  case first =>
    intro stop _ within
    rw [between_append, List.flatMap_append, List.take_append_of_le_length (by omega)]
    exact goesOn _ (List.take_prefix _ _)

/-- A scan ends at a byte exactly when it comes to an end, in front of that byte. -/
theorem endsAt_iff {rest : List Char} (passed : List Char) (more : ¬scan.done state)
    (index : Nat) :
    scan.EndsAt state (passed ++ rest) (byteLength passed) index ↔
      ∃ length, scan.length? state rest = some length ∧
        index = byteLength passed + byteLength (rest.take length) := by
  constructor
  · intro here
    cases found : scan.length? state rest with
    | none =>
      have ended := here.ends
      rw [between_append] at ended
      exact absurd ended (length?_goesOn found more _ (List.take_prefix _ _))
    | some length => exact ⟨length, rfl, here.unique (endsAt_of_length? passed found more)⟩
  · rintro ⟨length, found, rfl⟩
    exact endsAt_of_length? passed found more

end Scan

end IRule.Text
