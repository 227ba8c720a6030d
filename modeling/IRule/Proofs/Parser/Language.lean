import IRule.Proofs.Parser.Termination

/-!
# The language without steps

Because the depth of unfolding does not matter, the grammar has a meaning that
mentions none: `language` unfolds every production as deep as the state it is
started in can need. In coherent states it satisfies its own rules, so what a
text means can be worked out rule by rule. `Yields` is the statement that a
computation gives a result of some kind.
-/

namespace IRule.Parser

open Text

/-- The meaning of all productions. -/
def language : Grammar where
  parse := fun production state => unfold (state.depth production + 1) production state

variable {state : State}

/-- In a coherent state, every depth that is large enough gives the meaning of a
production. -/
theorem unfold_eq_language {production : Production} {steps : Nat} (coherent : state.Coherent)
    (deep : state.depth production < steps) :
    unfold steps production state = language.parse production state := by
  obtain ⟨_, _, left, right, -, -⟩ := unfold_reads coherent deep (Nat.lt_succ_self _)
  exact left.trans right.symm

/-- The language satisfies its own rules. -/
theorem language_eq {production : Production} (coherent : state.Coherent) :
    language.parse production state = rules language production state := by
  have calls : Calls ⟨unfold (state.depth production)⟩ language production.rank state := by
    refine ⟨coherent, fun called inner descends => ?_⟩
    have less := descends.depth_lt
    exact unfold_reads (descends.leads.coherent coherent) less (Nat.lt_succ_self _)
  obtain ⟨_, _, left, right, -, -⟩ := rules_reads calls
  exact left.trans right.symm

/-- Every rule is a script of the language, and is read as that. -/
theorem exists_language (declared : List String) (source : String) :
    ∃ statements last,
      language.script (.start source.toList declared) = some (statements, last) ∧
      parseWith declared source =
        ⟨⟨statements⟩, last.balanced.diagnostics, last.balanced.declared,
          last.balanced.braceCount⟩ := by
  obtain ⟨statements, last, completed⟩ := exists_completed declared source
  have bound := Reached.depth_lt (.refl : Reached source.toList declared _) .script
  have same := unfold_eq_language (start_coherent source.toList declared) bound
  rw [completed.unfolds _ le_rfl] at same
  exact ⟨statements, last, same.symm, completed.outcome⟩

/-- Reading a rule is reading a script in the language. -/
theorem parseWith_eq_language {declared : List String} {source : String}
    {statements : List Statement} {last : State}
    (reads : language.script (.start source.toList declared) = some (statements, last)) :
    parseWith declared source =
      ⟨⟨statements⟩, last.balanced.diagnostics, last.balanced.declared,
        last.balanced.braceCount⟩ := by
  obtain ⟨_, _, runs, outcome⟩ := exists_language declared source
  cases reads.symm.trans runs
  exact outcome

/-! ## Results -/

/-- The computation ends, and its result and final state are as described. -/
def Yields {α : Type} (computation : Parse α) (state : State) (post : α → State → Prop) : Prop :=
  ∃ result last, computation state = some (result, last) ∧ post result last

namespace Yields

variable {α β : Type}

theorem pure {value : α} {post : α → State → Prop} (holds : post value state) :
    Yields (Pure.pure value) state post :=
  ⟨value, state, rfl, holds⟩

theorem mono {computation : Parse α} {post better : α → State → Prop}
    (yields : Yields computation state post)
    (implies : ∀ result last, post result last → better result last) :
    Yields computation state better := by
  obtain ⟨result, last, runs, holds⟩ := yields
  exact ⟨result, last, runs, implies result last holds⟩

theorem bind {computation : Parse α} {next : α → Parse β} {middle : α → State → Prop}
    {post : β → State → Prop} (yields : Yields computation state middle)
    (goesOn : ∀ value later, middle value later → Yields (next value) later post) :
    Yields (computation >>= next) state post := by
  obtain ⟨value, later, runs, holds⟩ := yields
  obtain ⟨result, last, ends, final⟩ := goesOn value later holds
  exact ⟨result, last, (congrArg (Option.bind · _) runs).trans ends, final⟩

/-- Productions mean what their rules say. -/
theorem rule {production : Production} {post : production.Result → State → Prop}
    (coherent : state.Coherent) (yields : Yields (rules language production) state post) :
    Yields (language.parse production) state post := by
  obtain ⟨result, last, runs, holds⟩ := yields
  exact ⟨result, last, (language_eq coherent).trans runs, holds⟩

/-- What is read inside a construct is read with the construct open. -/
theorem within {nesting : Nesting} {body : Parse α} {post : α → State → Prop}
    (inner : Yields body (state.enter nesting) fun result last => post result last.leave) :
    Yields (within nesting body) state post := by
  obtain ⟨result, last, runs, holds⟩ := inner
  exact ⟨result, last.leave, congrArg (Option.bind · _) runs, holds⟩

/-- A snippet is read on its own. -/
theorem isolated {snippet : State} {body : Parse α} {post : α × State → State → Prop}
    (inner : Yields body snippet fun result last => post (result, last) state) :
    Yields (isolated snippet body) state post := by
  obtain ⟨result, last, runs, holds⟩ := inner
  exact ⟨(result, last), state, congrArg (Option.map _) runs, holds⟩

section Look

variable {post : β → State → Prop}

@[simp]
theorem get_bind {next : State → Parse β} :
    Yields (get >>= next) state post ↔ Yields (next state) state post := Iff.rfl

@[simp]
theorem current_bind {next : Token → Parse β} :
    Yields (current >>= next) state post ↔ Yields (next state.current) state post := Iff.rfl

@[simp]
theorem lookahead_bind {next : Token → Parse β} :
    Yields (lookahead >>= next) state post ↔ Yields (next state.lookahead) state post := Iff.rfl

@[simp]
theorem endsCommand_bind {next : Bool → Parse β} :
    Yields (endsCommand >>= next) state post ↔ Yields (next state.endsCommand) state post := Iff.rfl

@[simp]
theorem isAhead_bind {kind : TokenKind} {next : Bool → Parse β} :
    Yields (isAhead kind >>= next) state post ↔
      Yields (next (state.lookahead.kind == kind)) state post := Iff.rfl

@[simp]
theorem modify_bind {change : State → State} {next : Unit → Parse β} :
    Yields (modify change >>= next) state post ↔ Yields (next ()) (change state) post := Iff.rfl

@[simp]
theorem advance_bind {next : Unit → Parse β} :
    Yields (advance >>= next) state post ↔ Yields (next ()) state.advance post := Iff.rfl

end Look

end Yields

end IRule.Parser
