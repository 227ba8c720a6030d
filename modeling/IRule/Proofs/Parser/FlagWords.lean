import IRule.Proofs.Parser.Language
import IRule.Proofs.Parser.RealLines
import Mathlib.Data.List.TakeWhile

/-!
# Flags of `regsub`

The flags of a `regsub` are the option words behind it, up to `--`. The table of flags has
no dashes; a word is looked up without those that it starts with, and it starts with one
at least. `FlagWords` follows the words through the rule and tells which of them are
reported.
-/

namespace IRule

/-- A word that is listed as a flag of `regsub` behind one or more dashes. -/
def IsListedFlag (word : String) : Prop :=
  ∃ dashes name, 0 < dashes ∧ name ∈ Vocabulary.regsubFlags ∧
    word.toList = List.replicate dashes '-' ++ name.toList

/-- No flag of the table starts with a dash. -/
theorem dropWhile_regsubFlag {name : String} (listed : name ∈ Vocabulary.regsubFlags) :
    name.toList.dropWhile (· == '-') = name.toList := by
  have names : ∀ name ∈ Vocabulary.regsubFlags,
      name.toList.dropWhile (· == '-') = name.toList := by decide
  exact names name listed

/-- A word with a dash in front is listed if what is behind its dashes is in the table. -/
theorem isListedFlag_iff {word : String} (dash : word.toList.head? = some '-') :
    IsListedFlag word ↔
      Vocabulary.isRegsubFlag (String.ofList (word.toList.dropWhile (· == '-'))) := by
  constructor
  · rintro ⟨dashes, name, -, listed, split⟩
    have behind : word.toList.dropWhile (· == '-') = name.toList := by
      rw [split, List.dropWhile_append_of_pos (by simp), dropWhile_regsubFlag listed]
    rw [behind, String.ofList_toList]
    exact List.contains_iff_mem.2 listed
  · intro found
    have dashes : word.toList.takeWhile (· == '-') =
        List.replicate (word.toList.takeWhile (· == '-')).length '-' :=
      List.eq_replicate_of_mem fun char inside => by simpa using List.mem_takeWhile_imp inside
    refine ⟨(word.toList.takeWhile (· == '-')).length, _, ?_, List.contains_iff_mem.1 found, ?_⟩
    · obtain ⟨rest, split⟩ := List.head?_eq_some_iff.1 dash
      simp [split]
    · rw [String.toList_ofList, ← dashes, List.takeWhile_append_dropWhile]

namespace Text

/-- What is cut out from a character on starts with it. -/
theorem head?_slice {passed rest before later : List Char} {char : Char}
    (whole : passed ++ char :: rest = before ++ later)
    (behind : byteLength passed < byteLength before) :
    (slice (passed ++ char :: rest) ⟨byteLength passed, byteLength before⟩).head? = some char := by
  rcases List.append_eq_append_iff.1 whole with ⟨middle, rfl, split⟩ | ⟨middle, rfl, -⟩
  · rw [split, slice_append]
    cases middle with
    | nil => simp at behind
    | cons first middle => simp [(List.cons.inj split).1]
  · simp at behind

end Text

/-- A minus sign is a dash of the text. -/
theorem Lexer.tokenText_of_minus {lexer : Lexer} (minus : lexer.next.1.kind = .minus) :
    ∃ rest, lexer.tokenText = '-' :: rest := by
  have minus : lexer.lexeme.kind = .minus := minus
  unfold lexeme at minus
  unfold tokenText lexeme
  cases text : lexer.tokenStart.rest with
  | nil => simp [text, Lexeme.scan] at minus
  | cons char rest =>
    rw [text] at minus
    obtain rfl := Lexeme.scan_minus minus
    have positive := (Lexeme.scan_fits lexer.tokenStart.braceDepth
      lexer.tokenStart.bracketDepth '-' rest).length_pos
    obtain ⟨length, more⟩ := Nat.exists_eq_succ_of_ne_zero positive.ne'
    exact ⟨rest.take length, by rw [more, List.take_succ_cons]⟩

namespace Parser

open Text

variable {source : List Char} {declared : List String} {state last : State}

/-- What the language reads is a passage through the text. -/
theorem language_passage {production : Production} {result : production.Result}
    (coherent : state.Coherent) (reads : language.parse production state = some (result, last)) :
    Passage state last := by
  obtain ⟨_, _, runs, -, passage, -⟩ :=
    unfold_reads coherent (Nat.lt_succ_self (state.depth production)) (Nat.lt_succ_self _)
  cases reads.symm.trans runs
  exact passage

/-- A parser stays where its text stands. -/
theorem Steps.placed {whole before : List Char} (steps : Steps state last)
    (placed : state.Placed whole before) : last.Placed whole before := by
  induction steps with
  | refl => exact placed
  | tail _ step ih => exact step.placed ih

/-- A minus sign ahead is a dash of the text. -/
theorem Sound.dash_ahead (sound : Sound source declared state)
    (minus : state.lookahead.kind = .minus) :
    ∃ passed rest, state.source = passed ++ '-' :: rest ∧
      state.lookahead.span.start = byteLength passed := by
  obtain ⟨before, placed⟩ := sound.placed
  have counts : (Lexer.mk state.lexer.before state.lexer.before).scanner.CountsLines
      state.source _ := placed.aligned.lexer.before
  obtain ⟨passed, rest, whole, stands⟩ := Lexer.next_stands counts
  rw [placed.coherent.read] at stands
  have kind : (Lexer.mk state.lexer.before state.lexer.before).next.1.kind = .minus := by
    rw [placed.coherent.read]
    exact minus
  obtain ⟨more, text⟩ := Lexer.tokenText_of_minus kind
  exact ⟨passed, more ++ rest, by rw [whole, text, List.cons_append], stands.start⟩

/-- A word that starts with a minus sign starts with a dash. -/
theorem head?_rawWordText {word : String} (sound : Sound source declared state)
    (minus : state.lookahead.kind = .minus)
    (reads : rawWordText language state.advance = some (word, last)) :
    word.toList.head? = some '-' := by
  obtain ⟨passed, rest, whole, start⟩ := sound.dash_ahead minus
  obtain ⟨before, placed⟩ := sound.advance.placed
  unfold rawWordText at reads
  obtain ⟨_, _, looked, reads⟩ := bind_eq_some reads
  cases looked
  obtain ⟨_, middle, passes, reads⟩ := bind_eq_some reads
  obtain ⟨_, _, looked, reads⟩ := bind_eq_some reads
  cases looked
  cases reads
  have passage := language_passage placed.coherent passes
  have placed := Steps.placed passage.steps placed
  have same : last.source = passed ++ '-' :: rest := passage.source_eq.trans whole
  obtain ⟨taken, split, offset, -⟩ := placed.aligned.lexer.before
  have stop : last.current.span.stop = byteLength taken := placed.aligned.joined.trans offset
  have behind : byteLength passed < byteLength taken := by
    rw [← start, ← offset]
    by_cases ended : last.current.kind = .endOfInput
    · have total := placed.coherent.stands.total
      rw [(placed.coherent.atEnd ended).2, same] at total
      have positive := Char.utf8Size_pos '-'
      simp at total
      omega
    · exact (passage.start_le sound.advance.coherent).trans_lt (placed.coherent.goesOn ended)
  change (last.slice ⟨state.lookahead.span.start, last.current.span.stop⟩).toList.head? = _
  rw [State.slice, String.toList_ofList, start, stop, same]
  exact head?_slice (same.symm.trans split) behind

/-- The option words ahead, up to `--` or up to the first word that is none. Those that
are not listed are reported where they end, and the next is read from there. -/
inductive FlagWords (reports : List Diagnostic) : State → List String → Prop where
  | none {first : State} (plain : ¬first.optionAhead) : FlagWords reports first []
  | dashes {first last : State} (ahead : first.optionAhead)
      (reads : rawWordText language first.advance = some ("--", last)) : FlagWords reports first []
  | listed {first middle : State} {word : String} {words : List String}
      (ahead : first.optionAhead)
      (reads : rawWordText language first.advance = some (word, middle))
      (listed : IsListedFlag word) (later : FlagWords reports middle words) :
      FlagWords reports first (word :: words)
  | reported {first middle : State} {word : String} {words : List String}
      (ahead : first.optionAhead)
      (reads : rawWordText language first.advance = some (word, middle)) (goesOn : word ≠ "--")
      (unlisted : ¬IsListedFlag word)
      (reported : (Problem.regsubFlag word).diagnostic middle.current.line ∈ reports)
      (later : FlagWords reports
        (middle.record ((Problem.regsubFlag word).diagnostic middle.current.line)) words) :
      FlagWords reports first (word :: words)

/-- Every flag is listed or reported. -/
theorem FlagWords.listed_or_reported {reports : List Diagnostic} {words : List String}
    (stand : FlagWords reports state words) :
    ∀ word ∈ words,
      IsListedFlag word ∨ ∃ line, (Problem.regsubFlag word).diagnostic line ∈ reports := by
  induction stand with
  | none | dashes => simp
  | listed _ _ listed _ ih => exact List.forall_mem_cons.2 ⟨.inl listed, ih⟩
  | reported _ _ _ _ reported _ ih => exact List.forall_mem_cons.2 ⟨.inr ⟨_, reported⟩, ih⟩

end Parser

end IRule
