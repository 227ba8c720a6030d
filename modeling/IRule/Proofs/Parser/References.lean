import IRule.Proofs.Parser.Decomposition
import Mathlib.Data.List.TakeWhile

/-!
# References inside and outside of strings

A reference is looked for in two places: by the lexer, which makes a token of it, and by
the parser in the body of a string. Where both find one, they take the same name and the same
bytes. A braced name with a line feed is one to the parser alone, as the lexer closes a brace
on the line of its `$` or not at all.
-/

namespace IRule

open Text

namespace Parser

namespace Segment

open Lexeme (isNameChar referenceLength)

/-! ## Plain names -/

/-- Both scanners pass over the same characters of a plain name. -/
theorem length_leadingName (text : List Char) :
    (leadingName text).length = Lexeme.nameLength text := by
  fun_induction leadingName text with
  | case1 rest ih => simp [Lexeme.nameLength, ih]
  | case2 char rest apart name ih =>
    rw [Lexeme.nameLength.eq_2 _ _ apart]
    simp [name, ih]
  | case3 char rest apart notName =>
    rw [Lexeme.nameLength.eq_2 _ _ apart]
    simp [notName]
  | case4 => rfl

theorem leadingName_chars (text : List Char) :
    ∀ char ∈ leadingName text, isNameChar char ∨ char = ':' := by
  fun_induction leadingName text with
  | case1 rest ih => simpa using ih
  | case2 char rest apart name ih => simpa [name] using ih
  | case3 => simp
  | case4 => simp

section Plain

variable {text name : List Char} {length : Nat}

/-- The parser takes a plain name as far as it goes, if it is not all colons. -/
theorem reference?_plain_iff (plain : text.head? ≠ some '\x7b') :
    reference? text = some (name, length) ↔
      leadingName text = name ∧ name.length = length ∧ ∃ char ∈ name, char ≠ ':' := by
  have named : (leadingName text).any isNameChar ↔ ∃ char ∈ leadingName text, char ≠ ':' := by
    rw [List.any_eq_true]
    refine exists_congr fun char => and_congr_right fun inside => ⟨?_, ?_⟩
    · rintro name rfl
      simp [isNameChar] at name
    · exact fun other => (leadingName_chars text char inside).resolve_right other
  rw [reference?_plain plain]
  split
  case isTrue found =>
    have some := named.1 found
    simp only [Option.some.injEq, Prod.mk.injEq]
    constructor
    · rintro ⟨rfl, rfl⟩
      exact ⟨rfl, rfl, some⟩
    · rintro ⟨rfl, rfl, -⟩
      exact ⟨rfl, rfl⟩
  case isFalse missing =>
    simp only [reduceCtorEq, false_iff]
    rintro ⟨rfl, -, some⟩
    exact missing (named.2 some)

/-- The lexer takes the same characters. -/
theorem referenceLength_plain (plain : text.head? ≠ some '\x7b') :
    referenceLength text = (leadingName text).length := by
  rw [Lexeme.referenceLength.eq_2 _ (by rintro rest rfl; exact plain rfl), length_leadingName]

/-- What the lexer takes of a plain reference is its name. -/
theorem plainName_taken (plain : text.head? ≠ some '\x7b') :
    referenceName (String.ofList ('$' :: text.take (leadingName text).length)) =
      String.ofList (leadingName text) := by
  have taken := List.prefix_iff_eq_take.1 (leadingName_opens text)
  rw [← taken, referenceName_unbraced]
  intro brace
  rw [taken, List.head?_take] at brace
  split at brace
  · cases brace
  · exact plain brace

end Plain

/-! ## Braced names -/

section Braced

variable {rest name : List Char} {length : Nat}

/-- A text is passed over up to the first character that stops it. -/
theorem takeWhile_stopped {accepts : Char → Bool} {mark : Char} (later : List Char)
    (inside : ∀ char ∈ name, accepts char) (stops : accepts mark = false) :
    (name ++ mark :: later).takeWhile accepts = name := by
  rw [List.takeWhile_append_of_pos inside, List.takeWhile_cons, stops]
  simp

/-- The parser takes what stands in front of the first closing brace. -/
theorem reference?_braced_iff :
    reference? ('\x7b' :: rest) = some (name, length) ↔
      (∃ later, rest = name ++ '\x7d' :: later) ∧ '\x7d' ∉ name ∧ name ≠ [] ∧
        name.length + 2 = length := by
  constructor
  · intro found
    have whole : rest.takeWhile (· != '\x7d') ++ rest.dropWhile (· != '\x7d') = rest :=
      List.takeWhile_append_dropWhile
    have stops := List.head?_dropWhile_not (· != '\x7d') rest
    have outside : '\x7d' ∉ rest.takeWhile (· != '\x7d') := fun inside => by
      simpa using List.mem_takeWhile_imp inside
    simp only [reference?] at found
    generalize rest.takeWhile (· != '\x7d') = name at found whole outside
    generalize rest.dropWhile (· != '\x7d') = left at whole stops
    split at found
    case isTrue => cases found
    case isFalse closed =>
      simp only [Option.some.injEq, Prod.mk.injEq] at found
      obtain ⟨rfl, rfl⟩ := found
      subst whole
      cases left with
      | nil => simp at closed
      | cons brace later =>
        obtain rfl : brace = '\x7d' := by simpa using stops
        exact ⟨⟨later, rfl⟩, outside, by rintro rfl; simp at closed, rfl⟩
  · rintro ⟨⟨later, rfl⟩, outside, nonempty, rfl⟩
    have taken : (name ++ '\x7d' :: later).takeWhile (· != '\x7d') = name :=
      takeWhile_stopped later
        (fun char inside => by simpa using ne_of_mem_of_not_mem inside outside) (by simp)
    simp [reference?, taken, nonempty]

/-- The lexer takes what stands in front of the first closing brace, on the same line. -/
theorem referenceLength_braced_iff :
    referenceLength ('\x7b' :: rest) = length ∧ length ≠ 0 ↔
      ∃ name later, rest = name ++ '\x7d' :: later ∧ '\x7d' ∉ name ∧ '\n' ∉ name ∧ name ≠ [] ∧
        name.length + 2 = length := by
  constructor
  · rintro ⟨rfl, some⟩
    have accepted {char : Char} (inside : char ∈
        rest.takeWhile fun char => char != '\x7d' && char != '\n') :
        char ≠ '\x7d' ∧ char ≠ '\n' := by
      simpa using List.mem_takeWhile_imp inside
    have taken := List.prefix_iff_eq_append.1
      (List.takeWhile_prefix (fun char => char != '\x7d' && char != '\n') (l := rest))
    simp only [referenceLength] at some ⊢
    generalize rest.takeWhile (fun char => char != '\x7d' && char != '\n') = name at *
    split at some
    case isTrue => exact absurd rfl some
    split at some
    case isFalse => exact absurd rfl some
    rename_i nonempty closed
    obtain ⟨later, left⟩ := List.head?_eq_some_iff.1 (beq_iff_eq.1 closed)
    refine ⟨name, later, by rw [← left, taken], fun inside => (accepted inside).1 rfl,
      fun inside => (accepted inside).2 rfl, by simpa using nonempty, ?_⟩
    rw [if_neg nonempty, if_pos closed]
  · rintro ⟨name, later, rfl, outside, oneLine, nonempty, rfl⟩
    have taken : (name ++ '\x7d' :: later).takeWhile
        (fun char => char != '\x7d' && char != '\n') = name := by
      refine takeWhile_stopped later (fun char inside => ?_) (by simp)
      simp [ne_of_mem_of_not_mem inside outside, ne_of_mem_of_not_mem inside oneLine]
    simp [referenceLength, taken, nonempty]

end Braced

/-! ## Both scanners -/

/-- The parser finds a reference on one line exactly where the lexer takes as many
characters and they have the same name. -/
theorem reference?_iff {text name : List Char} {length : Nat}
    (named : text.head? = some '\x7b' ∨ ∃ char ∈ name, char ≠ ':') :
    reference? text = some (name, length) ∧ '\n' ∉ name ↔
      (referenceLength text = length ∧ length ≠ 0) ∧
        (referenceName (String.ofList ('$' :: text.take length))).toList = name := by
  by_cases braced : text.head? = some '\x7b'
  · obtain ⟨rest, rfl⟩ := List.head?_eq_some_iff.1 braced
    have inside (name later : List Char) :
        (referenceName (String.ofList ('$' :: ('\x7b' :: (name ++ '\x7d' :: later)).take
          (name.length + 2)))).toList = name := by
      have taken : ('\x7b' :: (name ++ '\x7d' :: later)).take (name.length + 2) =
          '\x7b' :: (name ++ ['\x7d']) := by
        simp [List.take_length_add_append]
      rw [taken, referenceName_braced, String.toList_ofList]
    rw [reference?_braced_iff, referenceLength_braced_iff]
    constructor
    · rintro ⟨⟨⟨later, rfl⟩, outside, nonempty, rfl⟩, oneLine⟩
      exact ⟨⟨name, later, rfl, outside, oneLine, nonempty, rfl⟩, inside name later⟩
    · rintro ⟨⟨found, later, rfl, outside, oneLine, nonempty, rfl⟩, same⟩
      obtain rfl : found = name := (inside found later).symm.trans same
      exact ⟨⟨⟨later, rfl⟩, outside, nonempty, rfl⟩, oneLine⟩
  · have some := named.resolve_left braced
    have taken := plainName_taken braced
    rw [reference?_plain_iff braced, referenceLength_plain braced]
    constructor
    · rintro ⟨⟨rfl, rfl, -⟩, -⟩
      obtain ⟨char, inside, -⟩ := some
      exact ⟨⟨rfl, (List.length_pos_of_mem inside).ne'⟩, by rw [taken, String.toList_ofList]⟩
    · rintro ⟨⟨rfl, -⟩, same⟩
      rw [taken, String.toList_ofList] at same
      subst same
      refine ⟨⟨rfl, rfl, some⟩, fun feed => ?_⟩
      simpa [isNameChar] using leadingName_chars text _ feed

/-- The parser of strings finds a reference with the given name behind a `$` of the body,
which takes up the given bytes. -/
def FindsReference (before rest name : List Char) (bytes : Nat) : Prop :=
  (embedding? before '$' rest).map (fun (segment, length) =>
    (segment, byteLength ('$' :: rest.take length))) = some (.reference name, bytes)

instance (before rest name : List Char) (bytes : Nat) :
    Decidable (FindsReference before rest name bytes) :=
  inferInstanceAs (Decidable (_ = _))

theorem findsReference_iff {before rest name : List Char} {bytes : Nat} :
    FindsReference before rest name bytes ↔
      ∃ length, reference? rest = some (name, length) ∧
        byteLength ('$' :: rest.take length) = bytes := by
  simp only [FindsReference, embedding?, beq_self_eq_true, if_true, Option.map_map,
    Option.map_eq_some_iff]
  constructor
  · rintro ⟨⟨found, length⟩, read, same⟩
    simp only [Function.comp, Prod.mk.injEq, reference.injEq] at same
    obtain ⟨rfl, rfl⟩ := same
    exact ⟨length, read, rfl⟩
  · rintro ⟨length, read, rfl⟩
    exact ⟨(name, length), read, rfl⟩

end Segment

end Parser

namespace Lexer

open Lexeme (referenceLength)

/-- The next token is a reference with the given name, which takes up the given bytes. -/
def ReadsReference (lexer : Lexer) (name : List Char) (bytes : Nat) : Prop :=
  lexer.next.1.kind = .reference ∧
    lexer.next.1.span = ⟨lexer.scanner.offset, lexer.scanner.offset + bytes⟩ ∧
    (Parser.referenceName lexer.next.1.literal).toList = name

instance (lexer : Lexer) (name : List Char) (bytes : Nat) :
    Decidable (lexer.ReadsReference name bytes) :=
  inferInstanceAs (Decidable (_ ∧ _))

variable {lexer : Lexer} {rest : List Char}

/-- The token of a `$`. -/
theorem next_dollar (stands : lexer.scanner.rest = '$' :: rest) :
    lexer.next.1.kind = (if referenceLength rest = 0 then .dollar else .reference) ∧
      lexer.next.1.span = ⟨lexer.scanner.offset,
        lexer.scanner.offset + byteLength ('$' :: rest.take (referenceLength rest))⟩ ∧
      lexer.next.1.literal = String.ofList ('$' :: rest.take (referenceLength rest)) := by
  have tight := Lexeme.Trivia.scan_tight rest (show Lexeme.startsTrivia '$' = false from rfl)
  have lexeme : Lexeme.scan lexer.scanner.braceDepth lexer.scanner.bracketDepth ('$' :: rest) =
      ⟨if referenceLength rest = 0 then .dollar else .reference, referenceLength rest + 1,
        none⟩ := by
    simp only [Lexeme.scan, Lexeme.reference]
    cases referenceLength rest <;> simp
  have notString : ((if referenceLength rest = 0 then TokenKind.dollar else .reference) ==
      .string) = false := by
    split <;> rfl
  simp [next, stands, tight, Lexeme.Trivia.empty, Scanner.advance, lexeme, Lexeme.literal,
    notString]

theorem readsReference_iff (stands : lexer.scanner.rest = '$' :: rest) {name : List Char}
    {bytes : Nat} :
    lexer.ReadsReference name bytes ↔
      ∃ length, ((referenceLength rest = length ∧ length ≠ 0) ∧
        (Parser.referenceName (String.ofList ('$' :: rest.take length))).toList = name) ∧
        byteLength ('$' :: rest.take length) = bytes := by
  obtain ⟨kind, span, literal⟩ := next_dollar stands
  rw [ReadsReference, kind, span, literal]
  simp only [Span.mk.injEq, Nat.add_left_cancel_iff, true_and, and_assoc, exists_eq_left']
  have some : (if referenceLength rest = 0 then TokenKind.dollar else .reference) = .reference ↔
      referenceLength rest ≠ 0 := by
    split <;> simp_all
  rw [some]
  exact and_congr_right fun _ => and_comm

end Lexer

namespace Parser.Segment

variable {before rest name : List Char} {bytes : Nat}

/-- Where the parser of strings finds a reference, the name has a character besides colons
or stands in braces. -/
theorem FindsReference.named (found : FindsReference before rest name bytes) :
    rest.head? = some '\x7b' ∨ ∃ char ∈ name, char ≠ ':' := by
  obtain ⟨length, read, -⟩ := findsReference_iff.1 found
  by_cases braced : rest.head? = some '\x7b'
  · exact .inl braced
  · exact .inr ((reference?_plain_iff braced).1 read).2.2

/-- The lexer reads a reference exactly where the parser of strings finds it and its name
is on one line. -/
theorem readsReference_iff_finds {lexer : Lexer} (stands : lexer.scanner.rest = '$' :: rest)
    (named : rest.head? = some '\x7b' ∨ ∃ char ∈ name, char ≠ ':') :
    lexer.ReadsReference name bytes ↔ FindsReference before rest name bytes ∧ '\n' ∉ name := by
  rw [Lexer.readsReference_iff stands, findsReference_iff]
  simp only [← reference?_iff named]
  constructor
  · rintro ⟨length, ⟨read, oneLine⟩, taken⟩
    exact ⟨⟨length, read, taken⟩, oneLine⟩
  · rintro ⟨⟨length, read, taken⟩, oneLine⟩
    exact ⟨length, ⟨read, oneLine⟩, taken⟩

/-- A reference in the body of a string was found behind a `$` of it. -/
theorem exists_findsReference {body : List Char} (mem : .reference name ∈ segments body) :
    ∃ before rest bytes, body = before ++ '$' :: rest ∧ FindsReference before rest name bytes := by
  obtain ⟨before, char, rest, length, rfl, found⟩ := segments_embeds mem (by simp)
  have dollar : char = '$' := by
    rcases embedding?_starts found with rfl | rfl
    · rfl
    · simp [embedding?] at found
  subst dollar
  exact ⟨before, rest, _, rfl, by rw [FindsReference, found]; rfl⟩

/-- The lexer and the parser of strings agree on references. At a `$`, the lexer reads a
reference with a name that is braced or has a character besides colons exactly where the
parser finds it with the same bytes, and the name is on one line; a `$` that is no reference
is a token of its own. So a reference in a string is the one that the same text is outside of
strings, unless its name has a line feed. -/
theorem reference_scans_agree :
    (∀ {lexer : Lexer} {rest : List Char}, lexer.scanner.rest = '$' :: rest →
      (∀ before name bytes, (rest.head? = some '\x7b' ∨ ∃ char ∈ name, char ≠ ':') →
        (lexer.ReadsReference name bytes ↔
          FindsReference before rest name bytes ∧ '\n' ∉ name)) ∧
      (lexer.next.1.kind ≠ .reference → lexer.next.1.kind = .dollar ∧
        lexer.next.1.span = ⟨lexer.scanner.offset, lexer.scanner.offset + 1⟩)) ∧
    ∀ {body name : List Char}, .reference name ∈ segments body →
      ∃ before rest bytes, body = before ++ '$' :: rest ∧ FindsReference before rest name bytes ∧
        ∀ lexer : Lexer, lexer.scanner.rest = '$' :: rest →
          (lexer.ReadsReference name bytes ↔ '\n' ∉ name) := by
  constructor
  · intro lexer rest stands
    refine ⟨fun before name bytes named => readsReference_iff_finds stands named, ?_⟩
    intro other
    obtain ⟨kind, span, -⟩ := Lexer.next_dollar stands
    have none : Lexeme.referenceLength rest = 0 := by
      by_contra some
      exact other (by rw [kind, if_neg some])
    rw [kind, span, none]
    exact ⟨rfl, rfl⟩
  · intro body name mem
    obtain ⟨before, rest, bytes, rfl, found⟩ := exists_findsReference mem
    refine ⟨before, rest, bytes, rfl, found, fun lexer stands => ?_⟩
    rw [readsReference_iff_finds stands found.named, and_iff_right found]

/-- A name with a namespace, behind a reference in braces and behind text. -/
theorem reference_scans_agree_namespaced :
    let rest := "::ns::x: y".toList
    let lexer := (Lexer.start ("$\x7ba b\x7d$".toList ++ rest) 1).next.2
    lexer.scanner.rest = '$' :: rest ∧ (∃ char ∈ "::ns::x".toList, char ≠ ':') ∧
      lexer.ReadsReference "::ns::x".toList 8 ∧
      .reference "::ns::x".toList ∈ segments ("é$".toList ++ rest) ∧
      ∃ before rest' bytes, "é$".toList ++ rest = before ++ '$' :: rest' ∧
        FindsReference before rest' "::ns::x".toList bytes := by
  intro rest lexer
  have stands : lexer.scanner.rest = '$' :: rest := by decide +kernel
  have named : ∃ char ∈ "::ns::x".toList, char ≠ ':' := ⟨'n', by decide, by decide⟩
  have found : FindsReference ['é'] rest "::ns::x".toList 8 := by decide +kernel
  have embedded : .reference "::ns::x".toList ∈ segments ("é$".toList ++ rest) := by
    decide +kernel
  have reads := (reference_scans_agree.1 stands).1 ['é'] "::ns::x".toList 8 (.inr named)
  obtain ⟨before, after, bytes, whole, there, -⟩ := reference_scans_agree.2 embedded
  exact ⟨stands, named, reads.2 ⟨found, by decide⟩, embedded, before, after, bytes, whole, there⟩

/-- The scanners differ in two ways. A braced name with a line feed is a reference in a string,
but a lone `$` outside; and a `$` in front of nothing but colons is a reference outside of
strings, named by the colons, where a string has none. -/
theorem reference_scans_differ :
    (FindsReference [] "\x7ba\nb\x7d".toList "a\nb".toList 6 ∧
      (Lexer.start "$\x7ba\nb\x7d".toList 1).next.1.kind = .dollar ∧
      ¬(Lexer.start "$\x7ba\nb\x7d".toList 1).ReadsReference "a\nb".toList 6) ∧
    (Lexer.start "$::".toList 1).ReadsReference "::".toList 3 ∧
      embedding? [] '$' "::".toList = none ∧
      ¬FindsReference [] "::".toList "::".toList 3 := by
  decide +kernel

end Parser.Segment

end IRule
