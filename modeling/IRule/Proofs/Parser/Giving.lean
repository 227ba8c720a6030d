import IRule.Parser.Basic
import IRule.Proofs.Parser.Run

/-!
# What a computation gives

A computation may run out of steps. `Gives` says what is known of its result, and of the
state that it ends in, if it does end.
-/

namespace IRule.Parser

/-- If the computation ends, its result is known to be as described. -/
def Gives {α : Type} (action : Parse α) (state : State) (known : α → State → Prop) : Prop :=
  ∀ result last, action state = some (result, last) → known result last

namespace Gives

variable {α β : Type} {state : State}

theorem pure {value : α} {known : α → State → Prop} (holds : known value state) :
    Gives (Pure.pure value) state known := by
  intro result last runs
  cases runs
  exact holds

theorem mono {action : Parse α} {known better : α → State → Prop} (gives : Gives action state known)
    (implies : ∀ result last, known result last → better result last) :
    Gives action state better :=
  fun result last runs => implies result last (gives result last runs)

theorem bind {action : Parse α} {next : α → Parse β} {known : α → State → Prop}
    {final : β → State → Prop} (gives : Gives action state known)
    (goesOn : ∀ value middle, known value middle → Gives (next value) middle final) :
    Gives (action >>= next) state final := by
  intro result last runs
  obtain ⟨value, middle, left, right⟩ := bind_eq_some runs
  exact goesOn value middle (gives value middle left) result last right

/-- Going on after an action of which nothing has to be known. -/
theorem after {action : Parse α} {next : α → Parse β} {final : β → State → Prop}
    (goesOn : ∀ value middle, Gives (next value) middle final) :
    Gives (action >>= next) state final := by
  have ends : Gives action state fun _ _ => True := fun _ _ _ => trivial
  exact ends.bind fun value middle _ => goesOn value middle

theorem ite {condition : Prop} [Decidable condition] {first second : Parse α}
    {known : α → State → Prop} (yes : condition → Gives first state known)
    (no : ¬condition → Gives second state known) :
    Gives (if condition then first else second) state known := by
  by_cases holds : condition
  · simpa only [if_pos holds] using yes holds
  · simpa only [if_neg holds] using no holds

section Look

variable {final : β → State → Prop}

@[simp]
theorem get_bind {next : State → Parse β} :
    Gives (get >>= next) state final ↔ Gives (next state) state final := Iff.rfl

@[simp]
theorem current_bind {next : Token → Parse β} :
    Gives (current >>= next) state final ↔ Gives (next state.current) state final := Iff.rfl

@[simp]
theorem report_bind {problem : Problem} {line : Nat} {next : Unit → Parse β} :
    Gives (report problem line >>= next) state final ↔
      Gives (next ()) (state.record (problem.diagnostic line)) final := Iff.rfl

end Look

end Gives

end IRule.Parser
