import IRule.Script.View
import Mathlib.Tactic

/-!
# Arms of a switch

A `switch` is a list of arms, each a pattern with a body or with a dash in its place.
A dash falls through: it leads to the next body. A subject selects the body that the
arm of its pattern leads to, or else the one that the default arm leads to.
-/

namespace IRule

/-- An arm: its pattern, and its body, none for a dash in its place. -/
structure Arm (π β : Type) where
  pattern : π
  body : Option β
deriving DecidableEq, Repr

namespace Arm

variable {π ρ β γ : Type}

/-- The arm with other patterns and bodies. -/
def map (pattern : π → ρ) (body : β → γ) (arm : Arm π β) : Arm ρ γ :=
  ⟨pattern arm.pattern, arm.body.map body⟩

/-- Arms that all lead to one body: all but the last have a dash. -/
def falling (body : β) : List π → List (Arm π β)
  | [] => []
  | [pattern] => [⟨pattern, some body⟩]
  | pattern :: later => ⟨pattern, none⟩ :: falling body later

/-- Arms that lead to one body, of which there is at least one. -/
structure Fall (π β : Type) where
  first : π
  later : List π
  body : β

/-- The arms that lead to the body. -/
def Fall.arms (fall : Fall π β) : List (Arm π β) :=
  falling fall.body (fall.first :: fall.later)

theorem map_falling (pattern : π → ρ) (body : β → γ) (leads : β) (patterns : List π) :
    (falling leads patterns).map (map pattern body) =
      falling (body leads) (patterns.map pattern) := by
  fun_induction falling leads patterns with
  | case1 => rfl
  | case2 => rfl
  | case3 first later more ih =>
    rw [List.map_cons, ih]
    cases later with
    | nil => exact absurd rfl more
    | cons second later => rfl

theorem map_pattern_falling (leads : β) (patterns : List π) :
    (falling leads patterns).map Arm.pattern = patterns := by
  fun_induction falling leads patterns with
  | case1 => rfl
  | case2 => rfl
  | case3 first later more ih => simp [ih]

/-- Arms of which the last has a body are runs of arms that lead to one body each. -/
theorem exists_falls {arms : List (Arm π β)}
    (closed : ∀ last ∈ arms.getLast?, last.body ≠ none) :
    ∃ falls : List (Fall π β), arms = falls.flatMap Fall.arms := by
  induction arms with
  | nil => exact ⟨[], rfl⟩
  | cons arm later ih =>
    obtain ⟨pattern, body⟩ := arm
    cases later with
    | nil =>
      obtain ⟨body, rfl⟩ := Option.ne_none_iff_exists'.1 (closed ⟨pattern, body⟩ rfl)
      exact ⟨[⟨pattern, [], body⟩], rfl⟩
    | cons next later =>
      obtain ⟨falls, same⟩ := ih (by simpa [List.getLast?_cons_cons] using closed)
      cases body with
      | some body => exact ⟨⟨pattern, [], body⟩ :: falls, by rw [same]; rfl⟩
      | none =>
        -- A dash joins the run of arms behind it.
        cases falls with
        | nil => simp at same
        | cons fall falls =>
          exact ⟨⟨pattern, fall.first :: fall.later, fall.body⟩ :: falls, by rw [same]; rfl⟩

/-! ## Selection -/

section Selection

/-- The first body at or behind the first arm with the given pattern. -/
def bodyFrom (pattern : Option String) (arms : List (Arm (Option String) β)) : Option β :=
  (arms.dropWhile fun arm => arm.pattern != pattern).findSome? body

/-- The body that a subject selects: the first one at or behind the arm of its pattern,
or at or behind the default arm if no pattern is the subject. -/
def chosen (subject : String) (arms : List (Arm (Option String) β)) : Option β :=
  if arms.any fun arm => arm.pattern == some subject then bodyFrom (some subject) arms
  else bodyFrom none arms

/-- The arms as they are read: behind a dash the word `default` is a pattern like any
other. -/
def asRead (behindDash : Bool) : List (Arm (Option String) β) → List (Arm (Option String) β)
  | [] => []
  | arm :: later =>
    ⟨if behindDash then some (arm.pattern.getD "default") else arm.pattern, arm.body⟩ ::
      asRead arm.body.isNone later

/-- Unless a dash falls through to a default arm, the arms are read as they are. -/
theorem asRead_eq_self {arms : List (Arm (Option String) β)}
    (apart : arms.IsChain fun first second => first.body = none → second.pattern ≠ none) :
    asRead false arms = arms := by
  -- Behind a dash this holds of arms that do not start with a default arm.
  have behind (behindDash : Bool) (first : behindDash → ∀ arm ∈ arms.head?, arm.pattern ≠ none) :
      asRead behindDash arms = arms := by
    induction arms generalizing behindDash with
    | nil => rfl
    | cons arm later ih =>
      have next : asRead arm.body.isNone later = later := by
        refine ih (List.isChain_cons.1 apart).2 _ fun dash other mem => ?_
        exact (List.isChain_cons.1 apart).1 other mem (Option.isNone_iff_eq_none.1 dash)
      obtain ⟨pattern, body⟩ := arm
      rw [asRead, next]
      cases behindDash with
      | false => rfl
      | true =>
        obtain ⟨text, rfl⟩ := Option.ne_none_iff_exists'.1 (first rfl ⟨pattern, body⟩ rfl)
        rfl
  exact behind false (by simp)

/-- Only the first of the arms that lead to one body can be a default arm. -/
theorem asRead_falling (behindDash : Bool) (first : Option String) (others : List (Option String))
    (leads : β) (later : List (Arm (Option String) β)) :
    asRead behindDash (falling leads (first :: others) ++ later) =
      falling leads ((if behindDash then some (first.getD "default") else first) ::
        others.map fun pattern => some (pattern.getD "default")) ++ asRead false later := by
  induction others generalizing behindDash first with
  | nil => rfl
  | cons second others ih => simp [falling, asRead, ih]

/-- Arms that lead to one body lead to it from each of their patterns. -/
theorem bodyFrom_falling (pattern : Option String) (leads : β) (patterns : List (Option String))
    (later : List (Arm (Option String) β)) :
    bodyFrom pattern (falling leads patterns ++ later) =
      if pattern ∈ patterns then some leads else bodyFrom pattern later := by
  -- Where one of the arms is the first, the body is the first one behind it.
  have reached (patterns : List (Option String)) (some : patterns ≠ []) :
      (falling leads patterns ++ later).findSome? body = .some leads := by
    fun_induction falling leads patterns with
    | case1 => exact absurd rfl some
    | case2 => simp
    | case3 first others more ih => simpa using ih (by simpa using more)
  fun_induction falling leads patterns with
  | case1 => simp
  | case2 first =>
    by_cases here : first = pattern
    · simp [bodyFrom, here]
    · simp [bodyFrom, here, Ne.symm here]
  | case3 first others more ih =>
    by_cases here : first = pattern
    · have next := reached others (by simpa using more)
      simp [bodyFrom, here, next]
    · have next : bodyFrom pattern (⟨first, none⟩ :: (falling leads others ++ later)) =
          bodyFrom pattern (falling leads others ++ later) := by
        simp [bodyFrom, here]
      rw [List.cons_append, next, ih]
      simp [Ne.symm here]

theorem any_falling (pattern : Option String) (leads : β) (patterns : List (Option String)) :
    ((falling leads patterns).any fun arm => arm.pattern == pattern) =
      patterns.any (· == pattern) := by
  fun_induction falling leads patterns with
  | case1 => rfl
  | case2 => simp
  | case3 first later more ih => simp [ih]

end Selection

end Arm

/-! ## Arms of a parsed switch -/

/-- The patterns in front of a body. -/
def CasePattern.patterns : CasePattern → List Pattern
  | .one pattern => [pattern]
  | .several _ patterns => patterns

/-- The patterns of an arm with its body, none for the default arm. -/
def Case.patterns : Case → List (Option String)
  | .mk _ none _ => [none]
  | .mk _ (some pattern) _ => pattern.patterns.map fun pattern => some pattern.text

/-- An arm with several patterns is several arms that lead to its body. -/
def Case.arms (arm : Case) : List (Arm (Option String) Block) :=
  Arm.falling arm.body arm.patterns

end IRule
