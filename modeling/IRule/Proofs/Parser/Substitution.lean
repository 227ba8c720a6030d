import IRule.Proofs.Lexer.Lines
import IRule.Proofs.Lexer.Locality
import IRule.Proofs.Lexer.Tiling
import IRule.Proofs.Parser.Embedding
import IRule.Proofs.Text.Scan

/-!
# Where substitutions end

The lexer keeps a `[...]` in a string together, and the parser cuts the string into
its embeddings later. Both find the same closing bracket: where quotes and brackets,
nested in each other, are all closed for the first time.
-/

namespace IRule

open Text

/-! ## Brackets and quotes -/

namespace Lexeme

/-- Keeps track of the brackets and quotes that are open; the scan ends when none is.
Quotes hide brackets. -/
def brackets : Scan (List Pending) where
  change pending char :=
    match pending with
    | .quote :: outer => if char == '"' then outer else pending
    | .bracket :: outer =>
      if char == '"' then .quote :: pending
      else if char == '[' then .bracket :: pending
      else if char == ']' then outer
      else pending
    | [] => []
  done pending := pending.isEmpty
  plain := by
    intro pending char high
    have notQuote : char ≠ '"' := by rintro rfl; exact absurd high (by decide)
    have notOpening : char ≠ '[' := by rintro rfl; exact absurd high (by decide)
    have notClosing : char ≠ ']' := by rintro rfl; exact absurd high (by decide)
    split <;> simp [notQuote, notOpening, notClosing]

/-- The lexer goes on behind the bracket at which the scan ends. -/
theorem substitution?_length {pending : List Pending} (bottom : [.bracket] <:+ pending)
    (text : List Char) :
    (substitution? pending text).map (·.length) = (brackets.length? pending text).map (· + 1) := by
  -- A quote is closed before what it stands in.
  have quoted (outer : List Pending) (bottom : [.bracket] <:+ .quote :: outer) :
      [.bracket] <:+ outer ∧ outer ≠ [] := by
    have inner : [.bracket] <:+ outer := by simpa [List.suffix_cons_iff] using bottom
    exact ⟨inner, by rintro rfl; simp at inner⟩
  fun_induction substitution? pending text with
  | case1 | case2 => rfl
  | case3 =>
    rename_i ih
    rw [Passage.map_extend_length, ih bottom]
    simp_all [Scan.length?]
  | case4 => simp at bottom
  | case5 char rest plain outer quote ih =>
    obtain ⟨inner, nonempty⟩ := quoted outer bottom
    rw [Passage.map_extend_length, ih inner]
    simp_all [Scan.length?, brackets]
  | case7 char rest plain outer _ ih | case8 char rest plain outer _ _ ih =>
    rw [Passage.map_extend_length, ih (bottom.trans (List.suffix_cons _ _))]
    simp_all [Scan.length?, brackets]
  | case9 => simp_all [Scan.length?, brackets]
  | case10 char rest plain outer _ _ _ _ ih =>
    have inner : [.bracket] <:+ outer := by simp_all [List.suffix_cons_iff]
    rw [Passage.map_extend_length, ih inner]
    simp_all [Scan.length?, brackets]
  | case6 | case11 =>
    rename_i ih
    rw [Passage.map_extend_length, ih bottom]
    simp_all [Scan.length?, brackets]

/-- Offset behind the bracket that closes a substitution in a string, where the script
starts at a byte offset of a text. -/
def substitutionEnd? (text : List Char) (start : Nat) : Option Nat :=
  (splitBytes? start text).bind fun (_, rest) =>
    (substitution? [.bracket] rest).map fun passage =>
      start + byteLength (rest.take passage.length)

/-- What a bracket or a quote is closed by. -/
def Pending.closer : Pending → Char
  | .bracket => ']'
  | .quote => '"'

end Lexeme

/-- The body of a string that the lexer gives stands behind a quote of the text, and in
front of another. -/
theorem Lexer.next_string {lexer : Lexer} {source : List Char}
    (stands : lexer.scanner.StandsIn source) (string : lexer.next.1.kind = .string) :
    ∃ lead more, source = lead ++ (lexer.next.1.literal.toList ++ '"' :: more) ∧
      byteLength lead = lexer.next.1.span.start + 1 := by
  obtain ⟨passed, rfl, offset⟩ := stands
  have telling := lexer.next_telling
  obtain ⟨body, text, literal⟩ := telling.quoted string
  have start := telling.start
  refine ⟨passed ++ lexer.tokenGap ++ ['"'], lexer.next.2.scanner.rest, ?_, ?_⟩
  · rw [telling.input, text, literal]
    simp
  · have size : Char.utf8Size '"' = 1 := rfl
    simp [start, offset, size, Nat.add_assoc]

namespace Parser.Segment

open Lexeme

/-- The parser closes and opens what the scan does. -/
theorem map_closer_change {pending : List Pending} (nonempty : pending ≠ []) (char : Char) :
    (brackets.change pending char).map Pending.closer =
      if char == '"' then
        if (pending.map Pending.closer).head? == some '"' then (pending.map Pending.closer).tail
        else '"' :: pending.map Pending.closer
      else if char == '[' then
        if (pending.map Pending.closer).head? == some '"' then pending.map Pending.closer
        else ']' :: pending.map Pending.closer
      else if char == ']' then
        if (pending.map Pending.closer).head? == some ']' then (pending.map Pending.closer).tail
        else pending.map Pending.closer
      else pending.map Pending.closer := by
  cases pending with
  | nil => exact absurd rfl nonempty
  | cons innermost outer =>
    cases innermost <;> simp only [brackets] <;> grind [Pending.closer]

theorem scriptUpTo?_cons {pending : List Pending} (nonempty : pending ≠ []) {char : Char}
    (plain : char ≠ '\\') (rest : List Char) :
    scriptUpTo? (pending.map Pending.closer) (char :: rest) =
      if brackets.done (brackets.change pending char) then some []
      else (scriptUpTo? ((brackets.change pending char).map Pending.closer) rest).map
        (char :: ·) := by
  rw [map_closer_change nonempty, scriptUpTo?]
  · simp only [← map_closer_change nonempty, List.isEmpty_map]
    rfl
  · simpa using plain

/-- The parser takes what stands in front of the bracket at which the scan ends. -/
theorem scriptUpTo?_eq {pending : List Pending} (nonempty : pending ≠ []) (text : List Char) :
    scriptUpTo? (pending.map Pending.closer) text =
      (brackets.length? pending text).map (text.take ·) := by
  fun_induction Scan.length? brackets pending text with
  | case1 | case2 => rfl
  | case3 pending hidden rest ih =>
    rw [scriptUpTo?, ih nonempty]
    simp [Function.comp_def]
  | case4 pending char rest plain ends =>
    rw [scriptUpTo?_cons nonempty plain, if_pos ends]
    rfl
  | case5 pending char rest plain more ih =>
    rw [scriptUpTo?_cons nonempty plain, if_neg more, ih (by simpa [brackets] using more)]
    simp [Function.comp_def]

/-- The parser finds a script exactly where the scan ends. -/
theorem scriptUpTo?_eq_some_iff {text script : List Char} :
    scriptUpTo? [']'] text = some script ↔
      brackets.length? [.bracket] text = some script.length ∧
        ∃ later, text = script ++ ']' :: later := by
  have taken : scriptUpTo? [']'] text = _ :=
    scriptUpTo?_eq (List.cons_ne_nil Pending.bracket []) text
  constructor
  · intro found
    obtain ⟨later, rfl⟩ := scriptUpTo?_closed rfl found
    obtain ⟨length, ends, same⟩ := Option.map_eq_some_iff.1 (taken.symm.trans found)
    obtain ⟨char, rest, drop, -⟩ := Scan.length?_reaches ends (by simp [brackets])
    have within : length < (script ++ ']' :: later).length := by
      by_contra beyond
      simp [List.drop_eq_nil_of_le (Nat.le_of_not_lt beyond)] at drop
    have exactly := congrArg List.length same
    rw [List.length_take_of_le within.le] at exactly
    exact ⟨exactly ▸ ends, later, rfl⟩
  · rintro ⟨found, later, rfl⟩
    rw [taken, found, Option.map_some, List.take_left]

/-- Where the scan ends, the parser finds a script. -/
theorem exists_script {text : List Char} {length : Nat}
    (found : brackets.length? [.bracket] text = some length) :
    ∃ script, script.length = length ∧ scriptUpTo? [']'] text = some script := by
  have taken : scriptUpTo? [']'] text = _ :=
    scriptUpTo?_eq (List.cons_ne_nil Pending.bracket []) text
  rw [found, Option.map_some] at taken
  have again := (scriptUpTo?_eq_some_iff.1 taken).1
  exact ⟨_, Option.some.inj (again.symm.trans found), taken⟩

/-- A script is found in a text exactly when it is found in a longer one and ends within
the first. -/
theorem scriptUpTo?_append_iff {text script : List Char} (more : List Char) :
    scriptUpTo? [']'] text = some script ↔
      scriptUpTo? [']'] (text ++ more) = some script ∧ byteLength script < byteLength text := by
  simp only [scriptUpTo?_eq_some_iff]
  constructor
  · rintro ⟨found, later, rfl⟩
    have := Char.utf8Size_pos ']'
    refine ⟨⟨Scan.length?_append found more, later ++ more, by simp⟩, ?_⟩
    rw [byteLength_append, byteLength_cons]
    omega
  · rintro ⟨⟨found, later, split⟩, shorter⟩
    rcases List.append_eq_append_iff.1 split with ⟨beyond, rfl, -⟩ | ⟨inner, rfl, rest⟩
    · simp at shorter
    · cases inner with
      | nil => simp at shorter
      | cons char inner =>
        obtain ⟨rfl, rfl⟩ := List.cons.inj rest
        exact ⟨Scan.length?_of_append found (by simp), inner, rfl⟩

/-! ## Offsets -/

theorem script?_eq_some_iff {text script : List Char} :
    script? text = some script ↔
      (∃ char, text.head? = some char ∧ opensScript char) ∧
        scriptUpTo? [']'] text = some script := by
  cases text with
  | nil => simp [script?]
  | cons char rest => simp [script?, opensScript]

/-- The embedded script whose opening bracket stands at a byte offset of a text, and the
offset behind the closing one. -/
def commandAt? (text : List Char) (offset : Nat) : Option (List Char × Nat) :=
  match splitBytes? offset text with
  | some (before, char :: rest) =>
    match embedding? before char rest with
    | some (.command script _, length) =>
      some (script, offset + byteLength (char :: rest.take length))
    | _ => none
  | _ => none

/-- A script may start with the byte at an offset: one of a letter, of a colon or of an
opening bracket. -/
def OpensAt (text : List Char) (offset : Nat) : Prop :=
  ∃ char, opensScript char ∧
    (Cursor.bytes { source := text })[offset]? = some (UInt8.ofNat char.toNat)

theorem commandAt?_append {before rest script : List Char} {stop : Nat} :
    commandAt? (before ++ '[' :: rest) (byteLength before) = some (script, stop) ↔
      script? rest = some script ∧ stop = byteLength before + byteLength script + 2 := by
  simp only [commandAt?, splitBytes?_byteLength, embedding?, beq_iff_eq, Char.reduceEq, if_true,
    if_false]
  cases read : script? rest with
  | none => simp
  | some found =>
    obtain ⟨-, later, rfl⟩ := script?_closed read
    have size : Char.utf8Size '[' = 1 ∧ Char.utf8Size ']' = 1 := ⟨rfl, rfl⟩
    have stops : byteLength ('[' :: (found ++ ']' :: later).take (found.length + 1)) =
        byteLength found + 2 := by
      simp [List.take_length_add_append, size]
      omega
    simp only [Option.map_some, stops, Option.some.injEq, Prod.mk.injEq, ← Nat.add_assoc]
    constructor
    · rintro ⟨same, ends⟩
      exact ⟨same, same ▸ ends.symm⟩
    · rintro ⟨same, ends⟩
      exact ⟨same, same ▸ ends.symm⟩

/-- Letters are single bytes. -/
theorem isAlpha_ascii {char : Char} (letter : char.isAlpha) : char.toNat < 128 := by
  unfold Char.isAlpha Char.isUpper Char.isLower at letter
  simp only [Bool.or_eq_true, Bool.and_eq_true, decide_eq_true_eq, UInt32.le_iff_toNat_le] at letter
  rcases letter with upper | lower
  · exact upper.2.trans_lt (by decide)
  · exact lower.2.trans_lt (by decide)

theorem opensAt_append (passed rest : List Char) :
    OpensAt (passed ++ rest) (byteLength passed) ↔
      ∃ char, rest.head? = some char ∧ opensScript char := by
  have first : (Cursor.bytes { source := passed ++ rest })[byteLength passed]? =
      (rest.flatMap String.utf8EncodeChar).head? := by
    rw [Cursor.bytes, List.flatMap_append, ← length_flatMap_utf8EncodeChar,
      List.getElem?_append_right (Nat.le_refl _), Nat.sub_self, List.head?_eq_getElem?]
  have ascii (char : Char) (opens : opensScript char) : char.toNat < 128 := by
    simp only [opensScript, Bool.or_eq_true, beq_iff_eq] at opens
    rcases opens with (letter | rfl) | rfl
    · exact isAlpha_ascii letter
    · decide
    · decide
  constructor
  · rintro ⟨char, opens, byte⟩
    rw [first, head?_flatMap_utf8EncodeChar (ascii char opens)] at byte
    exact ⟨char, byte, opens⟩
  · rintro ⟨char, head, opens⟩
    refine ⟨char, opens, ?_⟩
    rwa [first, head?_flatMap_utf8EncodeChar (ascii char opens)]

/-- The lexer goes on behind the bracket that closes what the parser takes. -/
theorem substitutionEnd?_append {passed rest : List Char} {stop : Nat} :
    substitutionEnd? (passed ++ rest) (byteLength passed) = some stop ↔
      ∃ script, scriptUpTo? [']'] rest = some script ∧
        stop = byteLength passed + byteLength script + 1 := by
  have same := substitution?_length (List.suffix_refl [Pending.bracket]) rest
  have ends : substitutionEnd? (passed ++ rest) (byteLength passed) =
      ((substitution? [.bracket] rest).map (·.length)).map fun length =>
        byteLength passed + byteLength (rest.take length) := by
    simp [substitutionEnd?, Option.map_map, Function.comp_def]
  have bytes (script later : List Char) :
      byteLength ((script ++ ']' :: later).take (script.length + 1)) = byteLength script + 1 := by
    simp [List.take_length_add_append]
    rfl
  simp only [ends, same, Option.map_map, Option.map_eq_some_iff, Function.comp_apply]
  constructor
  · rintro ⟨length, found, rfl⟩
    obtain ⟨script, rfl, read⟩ := exists_script found
    obtain ⟨later, rfl⟩ := (scriptUpTo?_eq_some_iff.1 read).2
    exact ⟨script, read, by rw [bytes]; rfl⟩
  · rintro ⟨script, read, rfl⟩
    obtain ⟨found, later, rfl⟩ := scriptUpTo?_eq_some_iff.1 read
    exact ⟨script.length, found, by rw [bytes]; rfl⟩

theorem substitutionEnd?_le {passed rest : List Char} {stop : Nat}
    (ends : substitutionEnd? (passed ++ rest) (byteLength passed) = some stop) :
    stop ≤ byteLength (passed ++ rest) := by
  obtain ⟨script, read, rfl⟩ := substitutionEnd?_append.1 ends
  obtain ⟨-, later, rfl⟩ := scriptUpTo?_eq_some_iff.1 read
  have := Char.utf8Size_pos ']'
  simp only [byteLength_append, byteLength_cons]
  omega

/-- That is behind the first byte that leaves no bracket and no quote open. -/
theorem substitutionEnd?_iff_endsAt {passed rest : List Char} {stop : Nat} :
    substitutionEnd? (passed ++ rest) (byteLength passed) = some stop ↔
      ∃ index, brackets.EndsAt [.bracket] (passed ++ rest) (byteLength passed) index ∧
        stop = index + 1 := by
  rw [substitutionEnd?_append]
  simp only [Scan.endsAt_iff passed (show ¬brackets.done [.bracket] by simp [brackets])]
  constructor
  · rintro ⟨script, read, rfl⟩
    obtain ⟨found, later, rfl⟩ := scriptUpTo?_eq_some_iff.1 read
    exact ⟨_, ⟨script.length, found, by rw [List.take_left]⟩, rfl⟩
  · rintro ⟨_, ⟨length, found, rfl⟩, rfl⟩
    obtain ⟨script, rfl, read⟩ := exists_script found
    obtain ⟨later, rfl⟩ := (scriptUpTo?_eq_some_iff.1 read).2
    exact ⟨script, read, by rw [List.take_left]⟩

/-- The same at an opening bracket of a text that stands between two others. -/
theorem substitutionEnd?_bracket (lead before rest more : List Char) {stop : Nat} :
    substitutionEnd? (lead ++ (before ++ '[' :: rest ++ more))
        (byteLength lead + byteLength before + 1) = some stop ↔
      ∃ script, scriptUpTo? [']'] (rest ++ more) = some script ∧
        stop = byteLength lead + byteLength before + 1 + byteLength script + 1 := by
  have place : byteLength lead + byteLength before + 1 =
      byteLength (lead ++ (before ++ ['['])) := by
    rw [byteLength_append, byteLength_append, Nat.add_assoc]
    rfl
  have whole : lead ++ (before ++ '[' :: rest ++ more) =
      lead ++ (before ++ ['[']) ++ (rest ++ more) := by simp
  rw [whole, place]
  exact substitutionEnd?_append

/-- The parser takes the script at a bracket of a text exactly when it may be one and the
lexer, reading on behind the text if need be, closes it within the text. -/
theorem commandAt?_iff {text script : List Char} {offset stop : Nat} (lead more : List Char)
    (bracket : (Cursor.bytes { source := text })[offset]? = some 91) :
    commandAt? text offset = some (script, stop) ↔
      OpensAt text (offset + 1) ∧
      substitutionEnd? (lead ++ (text ++ more)) (byteLength lead + offset + 1) =
        some (byteLength lead + stop) ∧
      stop ≤ byteLength text ∧ script = slice text ⟨offset + 1, stop - 1⟩ := by
  obtain ⟨before, rest, rfl, rfl⟩ :=
    exists_of_getElem?_utf8EncodeChar (show '['.toNat < 128 by decide) bracket
  have size : byteLength (before ++ ['[']) = byteLength before + 1 := byteLength_append _ _
  have opens : OpensAt (before ++ '[' :: rest) (byteLength before + 1) ↔
      ∃ char, rest.head? = some char ∧ opensScript char := by
    rw [← size, List.append_cons]
    exact opensAt_append _ _
  have closes : substitutionEnd? (lead ++ (before ++ '[' :: rest ++ more))
      (byteLength lead + byteLength before + 1) = some (byteLength lead + stop) ↔
        ∃ found, scriptUpTo? [']'] (rest ++ more) = some found ∧
          stop = byteLength before + byteLength found + 2 := by
    rw [substitutionEnd?_bracket]
    refine exists_congr fun found => and_congr_right fun _ => ?_
    omega
  have cut (found : List Char) (read : scriptUpTo? [']'] rest = some found) :
      slice (before ++ '[' :: rest)
        ⟨byteLength before + 1, byteLength before + byteLength found + 2 - 1⟩ = found := by
    obtain ⟨-, later, rfl⟩ := scriptUpTo?_eq_some_iff.1 read
    have sliced := slice_append (before ++ ['[']) found (']' :: later)
    rw [byteLength_append _ found, size, ← List.append_cons] at sliced
    have stop : byteLength before + byteLength found + 2 - 1 =
        byteLength before + 1 + byteLength found := by omega
    rw [stop, sliced]
  have total : byteLength (before ++ '[' :: rest) = byteLength before + (1 + byteLength rest) :=
    byteLength_append _ _
  rw [commandAt?_append, script?_eq_some_iff, opens, closes, and_assoc]
  refine and_congr_right fun _ => ?_
  constructor
  · rintro ⟨read, rfl⟩
    obtain ⟨longer, shorter⟩ := (scriptUpTo?_append_iff more).1 read
    exact ⟨⟨script, longer, rfl⟩, by omega, (cut script read).symm⟩
  · rintro ⟨⟨found, longer, rfl⟩, within, rfl⟩
    have read := (scriptUpTo?_append_iff more).2 ⟨longer, by omega⟩
    rw [cut found read]
    exact ⟨read, rfl⟩

/-! ## Strings -/

/-- The lexer and the parser of strings agree on where a substitution ends. The parser takes
the script at a bracket exactly when it may be one and the lexer closes the bracket: behind
the first byte that leaves no bracket and no quote open. In a string that the lexer has
given, the parser closes a bracket where the lexer does in the source, and leaves one alone
that the lexer does not close. -/
theorem commandAt?_iff_substitutionEnd? :
    (∀ text offset, (Cursor.bytes { source := text })[offset]? = some 91 →
      (∀ stop, substitutionEnd? text (offset + 1) = some stop ↔
        ∃ index, brackets.EndsAt [.bracket] text (offset + 1) index ∧ stop = index + 1) ∧
      ∀ script stop, commandAt? text offset = some (script, stop) ↔
        OpensAt text (offset + 1) ∧ substitutionEnd? text (offset + 1) = some stop ∧
          script = slice text ⟨offset + 1, stop - 1⟩) ∧
    ∀ source line calls,
      let token := (Lexer.Session.after calls ⟨.start source line, []⟩).lexer.next.1
      let body := token.literal.toList
      token.kind = .string →
        (∀ offset, (Cursor.bytes { source := body })[offset]? = some 91 → ∀ script stop,
          commandAt? body offset = some (script, stop) ↔
            OpensAt body (offset + 1) ∧
            substitutionEnd? source (token.span.start + 1 + offset + 1) =
              some (token.span.start + 1 + stop) ∧
            stop ≤ byteLength body ∧ script = slice body ⟨offset + 1, stop - 1⟩) ∧
        ∀ script before, .command script before ∈ segments body →
          substitutionEnd? source (token.span.start + 1 + byteLength before + 1) =
            some (token.span.start + 1 + byteLength before + 1 + byteLength script + 1) := by
  have size (before : List Char) : byteLength (before ++ ['[']) = byteLength before + 1 :=
    byteLength_append _ _
  constructor
  · intro text offset bracket
    have agree {script : List Char} {stop : Nat} :
        commandAt? text offset = some (script, stop) ↔ _ := commandAt?_iff [] [] bracket
    obtain ⟨before, rest, rfl, rfl⟩ :=
      exists_of_getElem?_utf8EncodeChar (show '['.toNat < 128 by decide) bracket
    simp only [List.nil_append, List.append_nil, byteLength_nil, Nat.zero_add] at agree
    simp only [agree]
    rw [← size, List.append_cons]
    refine ⟨fun stop => substitutionEnd?_iff_endsAt, fun script stop => ?_⟩
    refine and_congr_right fun _ => and_congr_right fun ends => and_iff_right ?_
    exact substitutionEnd?_le ends
  · intro source line calls token body string
    have stands : Scanner.StandsIn _ source :=
      ((Lexer.Session.start_countsLines source line).after calls).here.standsIn
    obtain ⟨lead, more, whole, start⟩ := Lexer.next_string stands string
    rw [whole, ← start]
    refine ⟨fun offset bracket script stop => commandAt?_iff lead ('"' :: more) bracket, ?_⟩
    intro script before mem
    obtain ⟨rest, split, read⟩ := segments_finds mem
    obtain ⟨longer, -⟩ := (scriptUpTo?_append_iff ('"' :: more)).1 (script?_eq_some_iff.1 read).2
    rw [show token.literal.toList = before ++ '[' :: rest from split]
    exact (substitutionEnd?_bracket lead before rest _).2 ⟨script, longer, rfl⟩

/-- A quoted bracket within a script, and a bracket that the string leaves open. -/
theorem commandAt?_behind_quote :
    let source := "x \"é[a \"]\\\"\" é][b\"".toList
    let script := "a \"]\\\"\" é".toList
    let token := (Lexer.Session.after [.next] ⟨.start source 1, []⟩).lexer.next.1
    (Cursor.bytes { source })[5]? = some 91 ∧ commandAt? source 5 = some (script, 17) ∧
      token.kind = .string ∧ .command script ['é'] ∈ segments token.literal.toList ∧
      substitutionEnd? source (token.span.start + 1 + byteLength ['é'] + 1) =
        some (token.span.start + 1 + byteLength ['é'] + 1 + byteLength script + 1) := by
  intro source script token
  have bracket : (Cursor.bytes { source })[5]? = some 91 := by decide +kernel
  have string : token.kind = .string := by decide +kernel
  have embedded : .command script ['é'] ∈ segments token.literal.toList := by decide +kernel
  have opens : OpensAt source 6 := ⟨'a', by decide +kernel, by decide +kernel⟩
  have ends : substitutionEnd? source 6 = some 17 := by decide +kernel
  have cut : script = slice source ⟨6, 16⟩ := by decide +kernel
  obtain ⟨here, inStrings⟩ := commandAt?_iff_substitutionEnd?
  exact ⟨bracket, ((here source 5 bracket).2 script 17).2 ⟨opens, ends, cut⟩, string, embedded,
    (inStrings source 1 [.next] string).2 script ['é'] embedded⟩

end Parser.Segment

end IRule
