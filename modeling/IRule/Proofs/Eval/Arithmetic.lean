import IRule.Eval.Operation
import IRule.Proofs.Text.Integer
import Mathlib

/-!
# Exact arithmetic

Arithmetic on 64-bit integers is that of the integers wherever the result fits. The
quotient rounded down and its remainder are made from those of a division that rounds
toward zero, by one correction where the division does not come out even and the
operands differ in sign.

One remainder is missing: that of the least integer by `-1`, where the result is zero
but the quotient does not fit.
-/

namespace IRule

open Text

/-! ## Rounding down by way of rounding toward zero -/

section Rounding

variable (first : Int) {second : Int}

/-- Where the quotient rounded toward zero is above the exact one. -/
def RoundsUp (first second : Int) : Prop :=
  first.tmod second ≠ 0 ∧ decide (first < 0) ≠ decide (second < 0)

instance (first second : Int) : Decidable (RoundsUp first second) :=
  inferInstanceAs (Decidable (_ ∧ _))

theorem fdiv_eq_tdiv_sub (nonzero : second ≠ 0) :
    first.fdiv second = first.tdiv second - if RoundsUp first second then 1 else 0 := by
  rw [Int.fdiv_eq_tdiv]
  simp only [RoundsUp, ne_eq, ← Int.dvd_iff_tmod_eq_zero]
  by_cases even : second ∣ first
  · simp [even]
  · rcases lt_or_gt_of_ne nonzero with negative | positive
    · have sign := Int.sign_eq_neg_one_of_neg negative
      by_cases opposite : first < 0 <;> simp [even, negative, negative.not_ge, opposite, sign]
    · have sign := Int.sign_eq_one_of_pos positive
      by_cases opposite : first < 0 <;>
        simp [even, positive.le, positive.not_gt, opposite, sign]

theorem fmod_eq_tmod_add (nonzero : second ≠ 0) :
    first.fmod second = first.tmod second + if RoundsUp first second then second else 0 := by
  have whole := Int.mul_fdiv_add_fmod first second
  have truncated := Int.mul_tdiv_add_tmod first second
  rw [fdiv_eq_tdiv_sub first nonzero] at whole
  split at whole <;> simp_all <;> linarith

/-- A quotient that is rounded up is not positive. -/
theorem RoundsUp.tdiv_nonpos (up : RoundsUp first second) : first.tdiv second ≤ 0 := by
  obtain ⟨-, opposite⟩ := up
  rcases lt_or_ge first 0 with negative | positive
  · have divisor : 0 ≤ second := by simpa [negative] using opposite
    rw [← neg_neg first, Int.neg_tdiv]
    simpa using Int.tdiv_nonneg (a := -first) (by omega) divisor
  · have divisor : second < 0 := by simpa [not_lt.2 positive] using opposite
    exact Int.tdiv_nonpos_of_nonneg_of_nonpos positive divisor.le

/-- A remainder is smaller than its divisor and has the sign of it, or is zero. -/
theorem fmod_signed (nonzero : second ≠ 0) :
    |first.fmod second| < |second| ∧
      (first.fmod second = 0 ∨ (first.fmod second < 0 ↔ second < 0)) := by
  rcases lt_or_gt_of_ne nonzero with negative | positive
  · have low := Int.fmod_nonneg_of_pos (-first) (show 0 < -second by omega)
    have high := Int.fmod_lt_of_pos (-first) (show 0 < -second by omega)
    rw [Int.neg_fmod_neg] at low high
    rw [abs_of_nonpos (by omega), abs_of_neg negative]
    omega
  · have low := Int.fmod_nonneg_of_pos first positive
    have high := Int.fmod_lt_of_pos first positive
    rw [abs_of_nonneg low, abs_of_pos positive]
    omega

/-- The quotient rounded down is the floor of the exact one. -/
theorem floor_div_eq_fdiv (second : Int) : ⌊(first : ℚ) / second⌋ = first.fdiv second := by
  have natural (first : Int) (count : ℕ) : ⌊(first : ℚ) / (count : Int)⌋ = first.fdiv count := by
    rw [Int.fdiv_eq_ediv_of_nonneg first (Int.natCast_nonneg _)]
    exact Rat.floor_intCast_div_natCast first count
  rcases le_total 0 second with positive | negative
  · lift second to ℕ using positive
    exact natural first second
  · obtain ⟨count, rfl⟩ := Int.exists_eq_neg_ofNat negative
    have flipped := natural (-first) count
    rw [← Int.neg_fdiv_neg, neg_neg] at flipped
    simpa [neg_div, div_neg] using flipped

end Rounding

/-! ## Quotients and remainders of words -/

section Words

variable {left right : Int64}

theorem toInt_ne_zero : right.toInt ≠ 0 ↔ right ≠ 0 := by
  rw [← Int64.toInt_zero, Ne, Int64.toInt_inj]

theorem roundsUp_iff :
    (left % right != 0 && decide (left < 0) != decide (right < 0)) = true ↔
      RoundsUp left.toInt right.toInt := by
  have remains : left % right ≠ 0 ↔ left.toInt.tmod right.toInt ≠ 0 := by
    rw [← toInt_ne_zero, Int64.toInt_mod]
  simp [RoundsUp, Int64.lt_iff_toInt_lt, remains]

/-- The one quotient of two words that is no word. -/
def QuotientOverflows (left right : Int64) : Prop :=
  left = Int64.minValue ∧ right = -1

instance (left right : Int64) : Decidable (QuotientOverflows left right) :=
  inferInstanceAs (Decidable (_ ∧ _))

theorem fits_tdiv_iff (nonzero : right ≠ 0) :
    Fits (left.toInt.tdiv right.toInt) ↔ ¬ QuotientOverflows left right := by
  constructor
  · rintro fits ⟨rfl, rfl⟩
    exact absurd fits (by decide)
  · intro within
    by_cases least : left = Int64.minValue
    · rw [← Int64.toInt_div_of_ne_right _ _ fun minus => within ⟨least, minus⟩]
      exact fits_toInt _
    · rw [← Int64.toInt_div_of_ne_left _ _ least]
      exact fits_toInt _

theorem truncatedQuotient?_eq_some_iff {quotient : Int64} :
    truncatedQuotient? left right = some quotient ↔
      right ≠ 0 ∧ quotient.toInt = left.toInt.tdiv right.toInt := by
  by_cases zero : right = 0 <;> simp [truncatedQuotient?, zero, int64OfInt?_eq_some_iff]

/-- Rounding down corrects the truncated quotient to the floor of the exact one. -/
theorem floorQuotient?_eq_some_iff {quotient : Int64} :
    floorQuotient? left right = some quotient ↔
      right ≠ 0 ∧ quotient.toInt = left.toInt.fdiv right.toInt := by
  unfold floorQuotient?
  rw [Option.bind_eq_bind, Option.bind_eq_some_iff]
  constructor
  · rintro ⟨truncated, found, result⟩
    obtain ⟨nonzero, exact⟩ := truncatedQuotient?_eq_some_iff.1 found
    rw [fdiv_eq_tdiv_sub _ (toInt_ne_zero.2 nonzero), ← exact]
    split at result <;> rename_i up
    · simp [nonzero, roundsUp_iff.1 up, int64OfInt?_eq_some_iff.1 result]
    · obtain rfl : truncated = quotient := by simpa using result
      simp [nonzero, mt roundsUp_iff.2 up]
  · rintro ⟨nonzero, exact⟩
    rw [fdiv_eq_tdiv_sub _ (toInt_ne_zero.2 nonzero)] at exact
    by_cases up : RoundsUp left.toInt right.toInt
    · -- What is rounded up lies between the floor and zero, so it is a word as well.
      rw [if_pos up] at exact
      have low := (fits_toInt quotient).1
      have high := up.tdiv_nonpos
      obtain ⟨truncated, whole⟩ := fits_iff.1
        (show Fits (left.toInt.tdiv right.toInt) from ⟨by omega, high.trans (by decide)⟩)
      refine ⟨truncated, truncatedQuotient?_eq_some_iff.2 ⟨nonzero, whole⟩, ?_⟩
      rw [if_pos (roundsUp_iff.2 up), int64OfInt?_eq_some_iff, exact, whole]
    · rw [if_neg up, Int.sub_zero] at exact
      refine ⟨quotient, truncatedQuotient?_eq_some_iff.2 ⟨nonzero, exact⟩, ?_⟩
      rw [if_neg (mt roundsUp_iff.1 up)]

/-- What a truncated division leaves over has the sign of the dividend. -/
theorem mod_signed (remains : left % right ≠ 0) :
    decide (left % right < 0) = decide (left < 0) := by
  rw [← toInt_ne_zero, Int64.toInt_mod] at remains
  simp only [Int64.lt_iff_toInt_lt, Int64.toInt_mod, Int64.toInt_zero, decide_eq_decide]
  rcases lt_or_ge left.toInt 0 with negative | positive
  · have flipped := Int.tmod_nonneg (a := -left.toInt) right.toInt (by omega)
    rw [Int.neg_tmod] at flipped
    omega
  · have := Int.tmod_nonneg right.toInt positive
    omega

theorem truncatedRemainder?_eq_some_iff {remainder : Int64} :
    truncatedRemainder? left right = some remainder ↔
      right ≠ 0 ∧ ¬ QuotientOverflows left right ∧ left % right = remainder := by
  have divides : (∃ quotient, truncatedQuotient? left right = some quotient) ↔
      right ≠ 0 ∧ ¬ QuotientOverflows left right := by
    simp only [truncatedQuotient?_eq_some_iff, exists_and_left, ← fits_iff]
    exact and_congr_right fits_tdiv_iff
  rw [truncatedRemainder?, Option.map_eq_some_iff, exists_and_right, divides, and_assoc]

/-- The remainder is corrected likewise, but there is one only where the quotient
fits. -/
theorem floorRemainder?_eq_some_iff {remainder : Int64} :
    floorRemainder? left right = some remainder ↔
      right ≠ 0 ∧ ¬ QuotientOverflows left right ∧
        remainder.toInt = left.toInt.fmod right.toInt := by
  have up : (left % right != 0 && decide (left % right < 0) != decide (right < 0)) = true ↔
      RoundsUp left.toInt right.toInt := by
    rw [← roundsUp_iff]
    by_cases remains : left % right = 0
    · simp [remains]
    · rw [mod_signed remains]
  simp only [floorRemainder?, Option.bind_eq_bind, Option.bind_eq_some_iff,
    truncatedRemainder?_eq_some_iff, and_assoc, exists_and_left, exists_eq_left']
  refine and_congr_right fun nonzero => and_congr_right fun _ => ?_
  rw [fmod_eq_tmod_add _ (toInt_ne_zero.2 nonzero), ← Int64.toInt_mod]
  split <;> rename_i corrected
  · rw [if_pos (up.1 corrected), int64OfInt?_eq_some_iff]
  · rw [if_neg (mt up.2 corrected), Int.add_zero, Option.some_inj, Int64.toInt_inj, eq_comm]

/-- Rounded down, a quotient fits whenever it does without its fraction. -/
theorem fits_fdiv (nonzero : right ≠ 0) (within : ¬ QuotientOverflows left right) :
    Fits (left.toInt.fdiv right.toInt) := by
  have divisor := toInt_ne_zero.2 nonzero
  have whole := Int.mul_fdiv_add_fmod left.toInt right.toInt
  obtain ⟨smaller, signed⟩ := fmod_signed left.toInt divisor
  obtain ⟨low, high⟩ := fits_toInt left
  have above : left.toInt.fdiv right.toInt ≤ Int64.maxValue.toInt := by
    have truncated := (fits_tdiv_iff nonzero).2 within
    rw [fdiv_eq_tdiv_sub _ divisor]
    have := truncated.2
    split <;> omega
  refine ⟨?_, above⟩
  by_contra below
  rw [Int64.toInt_minValue, Int64.toInt_maxValue] at *
  rcases lt_or_gt_of_ne divisor with negative | positive
  · rw [abs_of_neg negative, abs_lt] at smaller
    nlinarith
  · rw [abs_of_pos positive, abs_lt] at smaller
    nlinarith

theorem fits_fmod (left : Int64) (nonzero : right ≠ 0) : Fits (left.toInt.fmod right.toInt) := by
  obtain ⟨smaller, signed⟩ := fmod_signed left.toInt (toInt_ne_zero.2 nonzero)
  obtain ⟨low, high⟩ := fits_toInt right
  unfold Fits
  rw [Int64.toInt_minValue, Int64.toInt_maxValue] at *
  rcases abs_cases right.toInt with ⟨size, sign⟩ | ⟨size, sign⟩ <;>
    rw [size, abs_lt] at smaller <;> omega

end Words

/-! ## The operators -/

/-- The exact result of an arithmetic operator: of a division the floor, and of a
remainder what the floor leaves over. There is none for a zero divisor. -/
def Operator.result? (operator : Operator) (first second : Int) : Option Int :=
  match operator with
  | .add => some (first + second)
  | .subtract => some (first - second)
  | .multiply => some (first * second)
  | .divide => if second = 0 then none else some ⌊(first : ℚ) / second⌋
  | .modulo => if second = 0 then none else some (first - second * ⌊(first : ℚ) / second⌋)
  | _ => none

theorem Operator.result?_divide {second : Int} (first : Int) (nonzero : second ≠ 0) :
    Operator.divide.result? first second = some (first.fdiv second) := by
  rw [result?, if_neg nonzero, floor_div_eq_fdiv]

theorem Operator.result?_modulo {second : Int} (first : Int) (nonzero : second ≠ 0) :
    Operator.modulo.result? first second = some (first.fmod second) := by
  rw [result?, if_neg nonzero, floor_div_eq_fdiv, ← Int.fmod_def]

section Operators

variable {operator : Operator} {left right : Int64}

theorem checked_eq_ok_iff {name : String} {result : Option Int64} {value : Int64} :
    checked name result = .ok (.integer value) ↔ result = some value := by
  cases result <;> simp [checked]

theorem checked_eq_overflow_iff {name : String} {result : Option Int64} :
    checked name result = .error (.overflow name) ↔ result = none := by
  cases result <;> simp [checked]

theorem checked_ne_divisionByZero {name : String} {result : Option Int64} :
    checked name result ≠ .error .divisionByZero := by
  cases result <;> simp [checked]

/-- How an operator answers: a zero divisor aside, with the word of the exact result if
that has one. A remainder is left out where the quotient has none. -/
inductive Answers (operator : Operator) (left right : Int64) : Except EvalError Value → Prop where
  | undefined (divides : operator = .divide ∨ operator = .modulo) (zero : right = 0) :
      Answers operator left right (.error .divisionByZero)
  | defined {exact : Int} {result : Option Int64}
      (known : operator.result? left.toInt right.toInt = some exact)
      (word : ∀ value, result = some value ↔
        value.toInt = exact ∧ ¬ (operator = .modulo ∧ QuotientOverflows left right)) :
      Answers operator left right (checked operator.text result)

theorem binaryOperation_divide (nonzero : right ≠ 0) :
    binaryOperation (.integer left) "/" (.integer right) =
      checked "/" (floorQuotient? left right) :=
  if_neg (by simpa using nonzero)

theorem binaryOperation_modulo (nonzero : right ≠ 0) :
    binaryOperation (.integer left) "%" (.integer right) =
      checked "%" (floorRemainder? left right) :=
  if_neg (by simpa using nonzero)

theorem answers (arithmetic : operator.kind = .arithmetic) (left right : Int64) :
    Answers operator left right
      (binaryOperation (.integer left) operator.text (.integer right)) := by
  cases operator with
  | add => exact .defined rfl fun value => by simp [int64OfInt?_eq_some_iff]
  | subtract => exact .defined rfl fun value => by simp [int64OfInt?_eq_some_iff]
  | multiply => exact .defined rfl fun value => by simp [int64OfInt?_eq_some_iff]
  | divide =>
    by_cases zero : right = 0
    · subst zero
      exact .undefined (.inl rfl) rfl
    · rw [Operator.text, binaryOperation_divide zero]
      refine .defined (Operator.result?_divide _ (toInt_ne_zero.2 zero)) fun value => ?_
      simp [floorQuotient?_eq_some_iff, zero]
  | modulo =>
    by_cases zero : right = 0
    · subst zero
      exact .undefined (.inr rfl) rfl
    · rw [Operator.text, binaryOperation_modulo zero]
      refine .defined (Operator.result?_modulo _ (toInt_ne_zero.2 zero)) fun value => ?_
      simp [floorRemainder?_eq_some_iff, zero, and_comm]
  | _ => simp [Operator.kind] at arithmetic

theorem result?_eq_none (arithmetic : operator.kind = .arithmetic) {first second : Int} :
    operator.result? first second = none ↔
      (operator = .divide ∨ operator = .modulo) ∧ second = 0 := by
  cases operator <;> simp_all [Operator.result?, Operator.kind]

/-- A quotient and a remainder go together: the remainder has the sign of the divisor
or is zero, and is smaller than the divisor. -/
theorem divides_with_remainder (nonzero : right ≠ 0) (within : ¬ QuotientOverflows left right) :
    ∃ quotient remainder : Int64,
      binaryOperation (.integer left) "/" (.integer right) = .ok (.integer quotient) ∧
      binaryOperation (.integer left) "%" (.integer right) = .ok (.integer remainder) ∧
      left.toInt = right.toInt * quotient.toInt + remainder.toInt ∧
      |remainder.toInt| < |right.toInt| ∧ (remainder = 0 ∨ (remainder < 0 ↔ right < 0)) := by
  have divisor := toInt_ne_zero.2 nonzero
  obtain ⟨quotient, quotientExact⟩ := fits_iff.1 (fits_fdiv nonzero within)
  obtain ⟨remainder, remainderExact⟩ := fits_iff.1 (fits_fmod left nonzero)
  have divided : floorQuotient? left right = some quotient :=
    floorQuotient?_eq_some_iff.2 ⟨nonzero, quotientExact⟩
  have leftOver : floorRemainder? left right = some remainder :=
    floorRemainder?_eq_some_iff.2 ⟨nonzero, within, remainderExact⟩
  refine ⟨quotient, remainder, ?_, ?_, ?_, ?_⟩
  · rw [binaryOperation_divide nonzero, divided, checked]
  · rw [binaryOperation_modulo nonzero, leftOver, checked]
  · rw [quotientExact, remainderExact, Int.mul_fdiv_add_fmod]
  · obtain ⟨smaller, signed⟩ := fmod_signed left.toInt divisor
    rw [← remainderExact] at smaller signed
    refine ⟨smaller, ?_⟩
    rwa [Int64.lt_iff_toInt_lt, Int64.lt_iff_toInt_lt, ← Int64.toInt_inj, Int64.toInt_zero]

/-- Integer arithmetic is exact, with one exception: the remainder of the least integer
by `-1`, which is zero, is an overflow. Else an overflow says that the result does not
fit, and a division by zero that there is none. -/
theorem arithmetic_exact (arithmetic : operator.kind = .arithmetic) (left right : Int64) :
    (binaryOperation (.integer left) operator.text (.integer right) = .error .divisionByZero ↔
      (operator = .divide ∨ operator = .modulo) ∧ right = 0) ∧
    (∀ value, binaryOperation (.integer left) operator.text (.integer right) =
        .ok (.integer value) ↔
      operator.result? left.toInt right.toInt = some value.toInt ∧
        ¬ (operator = .modulo ∧ QuotientOverflows left right)) ∧
    (binaryOperation (.integer left) operator.text (.integer right) =
        .error (.overflow operator.text) ↔
      ∃ exact, operator.result? left.toInt right.toInt = some exact ∧
        (¬ Fits exact ∨ operator = .modulo ∧ QuotientOverflows left right)) ∧
    (right ≠ 0 → ¬ QuotientOverflows left right → ∃ quotient remainder : Int64,
      binaryOperation (.integer left) "/" (.integer right) = .ok (.integer quotient) ∧
      binaryOperation (.integer left) "%" (.integer right) = .ok (.integer remainder) ∧
      left.toInt = right.toInt * quotient.toInt + remainder.toInt ∧
      |remainder.toInt| < |right.toInt| ∧ (remainder = 0 ∨ (remainder < 0 ↔ right < 0))) := by
  have undefined : operator.result? left.toInt right.toInt = none ↔
      (operator = .divide ∨ operator = .modulo) ∧ right.toInt = 0 := result?_eq_none arithmetic
  rw [show right.toInt = 0 ↔ right = 0 by rw [← not_iff_not, ← Ne, toInt_ne_zero]] at undefined
  have answers := answers arithmetic left right
  refine ⟨?_, ?_, ?_, divides_with_remainder⟩
  all_goals generalize binaryOperation _ _ _ = answer at answers
  · cases answers with
    | undefined divides zero => simp [divides, zero]
    | defined known => simp [checked_ne_divisionByZero, ← undefined, known]
  · intro value
    cases answers with
    | undefined divides zero => simp [undefined.2 ⟨divides, zero⟩]
    | defined known word => simp [checked_eq_ok_iff, word, known, eq_comm]
  · cases answers with
    | undefined divides zero => simp [undefined.2 ⟨divides, zero⟩]
    | @defined exact result known word =>
      have none : result = none ↔
          ¬ Fits exact ∨ operator = .modulo ∧ QuotientOverflows left right := by
        rw [← not_iff_not, ← Ne, Option.ne_none_iff_exists', fits_iff]
        simp only [word, exists_and_right]
        tauto
      simp [checked_eq_overflow_iff, none, known]

/-- Quotient and remainder of a negative dividend, and a product that does not fit. -/
theorem arithmetic_exact_negative :
    binaryOperation (.integer (-7)) "/" (.integer 3) = .ok (.integer (-3)) ∧
      binaryOperation (.integer (-7)) "%" (.integer 3) = .ok (.integer 2) ∧
      binaryOperation (.integer Int64.maxValue) "*" (.integer (-2)) = .error (.overflow "*") :=
  ⟨((@arithmetic_exact .divide rfl (-7) 3).2.1 (-3)).2
      ⟨(Operator.result?_divide _ (by decide)).trans (by decide), by decide⟩,
    ((@arithmetic_exact .modulo rfl (-7) 3).2.1 2).2
      ⟨(Operator.result?_modulo _ (by decide)).trans (by decide), by decide⟩,
    (@arithmetic_exact .multiply rfl Int64.maxValue (-2)).2.2.1.2
      ⟨-18446744073709551614, by decide⟩⟩

/-- The remainder that is missing. -/
example : binaryOperation (.integer Int64.minValue) "%" (.integer (-1)) = .error (.overflow "%") :=
  rfl

end Operators

end IRule
