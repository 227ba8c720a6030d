import IRule.Proofs.Lexer.Reading
import IRule.Proofs.Parser.Word

/-!
# Scripts embedded in strings

Where the script of an embedding stands in the body of a string, and that it has a
first command: it starts with a character that opens one.
-/

namespace IRule

namespace Lexeme

/-- Nothing but a semicolon is read as one. -/
theorem scan_semicolon {braceDepth bracketDepth : Nat} {char : Char} {rest : List Char} :
    (scan braceDepth bracketDepth (char :: rest)).kind = .semicolon → char = ';' := by
  refine scan_cases braceDepth bracketDepth char rest ?_ ?_ ?_ ?_ ?_ ?_ ?_ ?_ ?_ ?_ ?_
  · simp
  · intro _ kind
    unfold closer illegal at kind
    split at kind <;> simp at kind
  · simp
  · intro _ kind
    unfold closer illegal at kind
    split at kind <;> simp at kind
  · intro _ kind
    rcases reference_kind rest with other | other <;> simp [other] at kind
  · intro _ kind
    unfold quotedString illegal at kind
    split at kind <;> simp at kind
  · intro _ kind
    rcases numeral_kind (char :: rest) with other | other | other <;> simp [other] at kind
  · intro _ kind
    have word := bareWord_isWord (char :: rest)
    simp [kind, TokenKind.isWord] at word
  · simp
  · intro spelling kind known starts separates
    have only : ∀ entry ∈ symbols, entry.2 = .semicolon → entry.1 = [';'] := by decide
    obtain rfl : spelling = [';'] := only _ known separates
    exact (List.cons_prefix_cons.1 starts).1.symm
  · simp [illegal]

/-- A character that separates nothing ends the gap in front of a token. -/
theorem Trivia.scan_eq_empty {char : Char} {rest : List Char} (notLine : char ≠ '\n')
    (notSpace : isSpace char = false) (notComment : char ≠ '#') (notHidden : char ≠ '\\') :
    scan false (char :: rest) = empty := by
  rw [scan.eq_def]
  simp [notLine, notSpace, notComment, notHidden]

end Lexeme

namespace Parser

namespace Segment

/-- Whether a script that starts with the character may be embedded. -/
def opensScript (char : Char) : Bool :=
  char.isAlpha || char == ':' || char == '['

/-- A script has a first character, which opens it. -/
def Opens (script : List Char) : Prop :=
  ∃ char rest, script = char :: rest ∧ opensScript char

/-- A script ends before the bracket that closes it. -/
theorem scriptUpTo?_closed {pending text script : List Char}
    (bottom : pending.getLast? = some ']') (found : scriptUpTo? pending text = some script) :
    ∃ later, text = script ++ ']' :: later := by
  fun_induction scriptUpTo? pending text generalizing script with
  | case1 => simp at found
  | case2 => simp at found
  | case3 pending hidden later ih =>
    obtain ⟨inner, read, rfl⟩ := Option.map_eq_some_iff.1 found
    obtain ⟨rest, rfl⟩ := ih bottom read
    exact ⟨rest, by simp⟩
  | case4 pending char rest =>
    rename_i closes
    obtain rfl : [] = script := by simpa using found
    obtain ⟨outer, rfl⟩ := List.getLast?_eq_some_iff.1 bottom
    obtain rfl : char = ']' := by cases outer <;> grind
    exact ⟨rest, rfl⟩
  | case5 pending char rest _ next =>
    rename_i more ih
    obtain ⟨inner, read, rfl⟩ := Option.map_eq_some_iff.1 found
    have kept : next.getLast? = some ']' := by
      obtain ⟨outer, rfl⟩ := List.getLast?_eq_some_iff.1 bottom
      cases outer <;> grind
    obtain ⟨later, rfl⟩ := ih kept read
    exact ⟨later, by simp⟩

theorem script?_closed {text script : List Char} (found : script? text = some script) :
    Opens script ∧ ∃ later, text = script ++ ']' :: later := by
  cases text with
  | nil => simp [script?] at found
  | cons char rest =>
    simp only [script?] at found
    split at found
    · rename_i opens
      obtain ⟨later, whole⟩ := scriptUpTo?_closed rfl found
      refine ⟨?_, later, whole⟩
      cases script with
      | nil =>
        obtain ⟨rfl, -⟩ := List.cons.inj whole
        simp at opens
      | cons first more =>
        obtain ⟨rfl, -⟩ := List.cons.inj whole
        exact ⟨char, more, rfl, opens⟩
    · simp at found

/-- An embedded script is what was found behind its opening bracket. -/
theorem embedding?_finds {before rest script origin : List Char} {char : Char} {length : Nat}
    (found : embedding? before char rest = some (.command script origin, length)) :
    origin = before ∧ char = '[' ∧ script? rest = some script ∧ length = script.length + 1 := by
  simp only [embedding?] at found
  split at found
  · simp at found
  · split at found
    · rename_i bracket
      obtain ⟨inner, read, same⟩ := Option.map_eq_some_iff.1 found
      simp only [Prod.mk.injEq, command.injEq] at same
      obtain ⟨⟨rfl, rfl⟩, rfl⟩ := same
      exact ⟨rfl, by simpa using bracket, read, rfl⟩
    · simp at found

theorem eq_text_of_mem_ofText {run : List Char} {segment : Segment} (mem : segment ∈ ofText run) :
    segment = .text run := by
  unfold ofText at mem
  split at mem
  · simp at mem
  · exact List.mem_singleton.1 mem

/-- What is no text was found in the text as an embedding. -/
theorem split_embeds {before run text : List Char} {skip : Nat} {segment : Segment}
    (mem : segment ∈ split before run skip text) (embeds : ∀ run, segment ≠ .text run) :
    ∃ origin char rest length, before.reverse ++ text = origin ++ char :: rest ∧
      embedding? origin char rest = some (segment, length) := by
  fun_induction split before run skip text with
  | case1 => exact absurd (eq_text_of_mem_ofText mem) (embeds _)
  | case2 before run char rest more ih => simpa using ih mem
  | case3 => exact absurd (eq_text_of_mem_ofText mem) (embeds _)
  | case4 before run char _ hidden later ih => simpa using ih mem
  | case5 before run char rest _ found length here ih =>
    rcases List.mem_append.1 mem with text | mem
    · exact absurd (eq_text_of_mem_ofText text) (embeds _)
    rcases List.mem_cons.1 mem with rfl | mem
    · exact ⟨before.reverse, char, rest, length, rfl, here⟩
    · simpa using ih mem
  | case6 before run char rest _ _ ih => simpa using ih mem

/-- The text of a segment, without what marks it as an embedding. -/
def content : Segment → List Char
  | .text run => run
  | .reference name => name
  | .command script _ => script

theorem leadingName_subset (text : List Char) : leadingName text ⊆ text := by
  fun_induction leadingName text with
  | case1 rest ih =>
    exact List.cons_subset_cons ':' (List.cons_subset_cons ':' ih)
  | case2 char rest _ _ ih => exact List.cons_subset_cons char ih
  | case3 => simp
  | case4 => simp

theorem reference?_subset {text name : List Char} {length : Nat}
    (found : reference? text = some (name, length)) : name ⊆ text := by
  unfold reference? at found
  split at found
  · simp only at found
    split at found
    · cases found
    · cases found
      exact List.subset_cons_of_subset _ (List.takeWhile_subset _)
  · simp only at found
    split at found
    · cases found
      exact leadingName_subset _
    · cases found

theorem embedding?_content {before rest : List Char} {char : Char} {segment : Segment}
    {length : Nat} (found : embedding? before char rest = some (segment, length)) :
    segment.content ⊆ rest := by
  simp only [embedding?] at found
  split at found
  · obtain ⟨⟨name, _⟩, read, same⟩ := Option.map_eq_some_iff.1 found
    cases same
    exact reference?_subset read
  · split at found
    · obtain ⟨script, read, same⟩ := Option.map_eq_some_iff.1 found
      cases same
      obtain ⟨-, later, rfl⟩ := script?_closed read
      exact List.subset_append_left _ _
    · cases found

theorem content_ofText {run : List Char} {segment : Segment} (mem : segment ∈ ofText run) :
    segment.content = run := by
  rw [eq_text_of_mem_ofText mem, content]

/-- Nothing is in a segment that is not in the text. -/
theorem split_content {before run text : List Char} {skip : Nat} {segment : Segment}
    (mem : segment ∈ split before run skip text) : segment.content ⊆ run ++ text := by
  fun_induction split before run skip text with
  | case1 before run => simp [content_ofText mem]
  | case2 before run char rest more ih => exact List.Subset.trans (ih mem) (by simp)
  | case3 before run char => simp [content_ofText mem]
  | case4 before run char _ hidden later ih => exact List.Subset.trans (ih mem) (by grind)
  | case5 before run char rest _ found length embeds ih =>
    rcases List.mem_append.1 mem with text | mem
    · simp [content_ofText text]
    rcases List.mem_cons.1 mem with rfl | later
    · exact List.Subset.trans (embedding?_content embeds) (by simp)
    · exact List.Subset.trans (ih later) (by simp)
  | case6 before run char rest _ _ ih => exact List.Subset.trans (ih mem) (by simp)

end Segment

/-- What is embedded in the body of a string was found in it. -/
theorem segments_embeds {body : List Char} {segment : Segment} (mem : segment ∈ segments body)
    (embeds : ∀ run, segment ≠ .text run) :
    ∃ origin char rest length, body = origin ++ char :: rest ∧
      Segment.embedding? origin char rest = some (segment, length) := by
  simpa using Segment.split_embeds mem embeds

/-- The script of an embedding was found behind a bracket of the body of a string, with
what precedes the bracket. -/
theorem segments_finds {body script before : List Char}
    (mem : .command script before ∈ segments body) :
    ∃ rest, body = before ++ '[' :: rest ∧ Segment.script? rest = some script := by
  obtain ⟨origin, char, rest, length, rfl, found⟩ := segments_embeds mem (by simp)
  obtain ⟨rfl, rfl, read, -⟩ := Segment.embedding?_finds found
  exact ⟨rest, rfl, read⟩

/-- Where the script of an embedding stands in the body of a string. -/
theorem segments_located {body script before : List Char}
    (mem : .command script before ∈ segments body) :
    Segment.Opens script ∧ ∃ later, body = before ++ '[' :: (script ++ ']' :: later) := by
  obtain ⟨rest, rfl, read⟩ := segments_finds mem
  obtain ⟨opens, later, rfl⟩ := Segment.script?_closed read
  exact ⟨opens, later, rfl⟩

/-- Nothing is in a segment that is not in the body of the string. -/
theorem segments_content {body : List Char} {segment : Segment} (mem : segment ∈ segments body) :
    segment.content ⊆ body :=
  Segment.split_content mem

/-- The parser of an embedded script starts on the first token of a command. -/
theorem State.snippet_opens {script : List Char} (opens : Segment.Opens script) (line : Nat)
    (nesting : Nesting) (declared : List String) :
    (State.snippet script line nesting declared).current.kind ≠ .endOfInput ∧
      (State.snippet script line nesting declared).current.kind ≠ .semicolon := by
  obtain ⟨char, rest, rfl, opener⟩ := opens
  have gap : Lexeme.Trivia.scan false (char :: rest) = .empty := by
    refine Lexeme.Trivia.scan_eq_empty ?_ ?_ ?_ ?_
    · rintro rfl; simp [Segment.opensScript] at opener
    · by_contra space
      simp only [Lexeme.isSpace, Bool.not_eq_false, Bool.or_eq_true, beq_iff_eq] at space
      rcases space with ((rfl | rfl) | rfl) | rfl <;> simp [Segment.opensScript] at opener
    · rintro rfl; simp [Segment.opensScript] at opener
    · rintro rfl; simp [Segment.opensScript] at opener
  have first : (State.snippet (char :: rest) line nesting declared).current.kind =
      (Lexeme.scan 0 0 (char :: rest)).kind := by
    change (Lexer.start (char :: rest) line).lexeme.kind = _
    rw [Lexer.lexeme, Lexer.tokenStart, Lexer.trivia, Lexer.start, gap]
    rfl
  rw [first]
  constructor
  · exact (Lexeme.scan_fits 0 0 char rest).goesOn
  · intro separates
    obtain rfl := Lexeme.scan_semicolon separates
    simp [Segment.opensScript] at opener

end Parser

end IRule
