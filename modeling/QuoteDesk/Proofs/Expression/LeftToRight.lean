import QuoteDesk.Expression.Evaluation
import QuoteDesk.Proofs.Decimal.Quotient

/-
The total of numbers. No operator binds closer than another, each step is rounded to the usual
number of digits, and only a division by zero has no result.
-/
namespace QuoteDesk

open Decimal

namespace Operator

/-- The operators that join numbers. -/
def joinsNumbers : Operator → Bool
  | .other _ => false
  | _ => true

/-- What is made of two numbers. -/
def join (op : Operator) (x y : ℚ) : ℚ :=
  match op with
  | .plus => x + y
  | .minus => x - y
  | .times => x * y
  | .over => x / y
  | .other _ => x

end Operator

namespace Expression

/-- From left to right, each result rounded. -/
def totalBy (round : ℚ → ℚ) (first : ℚ) (steps : List (Operator × ℚ)) : ℚ :=
  steps.foldl (fun total step => round (step.1.join total step.2)) first

/-- Each result has the property before it is rounded; behind a division by zero there is none. -/
def Stepwise (property : ℚ → Prop) (round : ℚ → ℚ) (total : ℚ) : List (Operator × ℚ) → Prop
  | [] => True
  | (op, q) :: steps => (op = .over ∧ q = 0) ∨
      (property (op.join total q) ∧ Stepwise property round (round (op.join total q)) steps)

/-- The numbers behind the first one, each with the operator in front of it. -/
def stepsOf (operators : List Operator) (rest : List Decimal) : List (Operator × ℚ) :=
  (operators.zip rest).map fun (op, v) => (op, v.value)

/-- A number that is divided by is zero. -/
def DividesByZero (steps : List (Operator × ℚ)) : Prop := (.over, 0) ∈ steps

/-- Nothing is lost when no exact result has too many digits. -/
theorem totalBy_of_fits {p : ℕ} {first : ℚ} {steps : List (Operator × ℚ)}
    (safe : ¬ DividesByZero steps) (fits : Stepwise (Fits p) id first steps) :
    totalBy (nearest p) first steps = totalBy id first steps := by
  induction steps generalizing first with
  | nil => rfl
  | cons step steps ih =>
    obtain ⟨op, q⟩ := step
    rw [DividesByZero, List.mem_cons, not_or] at safe
    rcases fits with ⟨rfl, rfl⟩ | ⟨few, rest⟩
    · exact absurd rfl safe.1
    · have later := ih safe.2 rest
      rw [totalBy, List.foldl_cons, nearest_of_fits few]
      exact later

/-- The refusal to divide by zero. -/
def zeroDivisor : Failure := .fault (.divisionByZero Fault.divisionByZeroMessage)

theorem applyNumeric_eq_ok {total value : Decimal} {op : Operator} (joins : op.joinsNumbers = true)
    (safe : ¬ (op = .over ∧ value.value = 0))
    (range : InRange precision (op.join total.value value.value)) :
    ∃ r, applyNumeric total op value = .ok r ∧
      r.value = nearest precision (op.join total.value value.value) := by
  cases op with
  | plus =>
    obtain ⟨r, added, rounded⟩ := add_eq_ok (by decide) range
    exact ⟨r, congrArg Outcome.ofArithmetic added, rounded⟩
  | minus =>
    obtain ⟨r, taken, rounded⟩ := sub_eq_ok (by decide) range
    exact ⟨r, congrArg Outcome.ofArithmetic taken, rounded⟩
  | times =>
    obtain ⟨r, multiplied, rounded⟩ := mul_eq_ok (by decide) range
    exact ⟨r, congrArg Outcome.ofArithmetic multiplied, rounded⟩
  | «over» =>
    have some : value.isZero = false := by
      rw [← Bool.not_eq_true, ← value_eq_zero_iff]
      intro zero
      exact safe ⟨rfl, zero⟩
    obtain ⟨r, divided, rounded⟩ := div_eq_ok (by decide) some range
    refine ⟨r, ?_, rounded⟩
    rw [applyNumeric, some, if_neg Bool.false_ne_true]
    exact congrArg Outcome.ofArithmetic divided
  | other text => cases joins

theorem applyNumeric_by_zero (total : Decimal) {value : Decimal} (zero : value.value = 0) :
    applyNumeric total .over value = .error zeroDivisor := by
  rw [value_eq_zero_iff] at zero
  rw [applyNumeric, if_pos zero]
  rfl

/-- From any total on, the steps that are left are refused for a division by zero only. -/
theorem foldlM_applyNumeric {steps : List (Operator × Decimal)} {total : Decimal}
    (joined : ∀ step ∈ steps, step.1.joinsNumbers = true)
    (range : Stepwise (InRange precision) (nearest precision) total.value
      (steps.map fun (op, v) => (op, v.value))) :
    (DividesByZero (steps.map fun (op, v) => (op, v.value)) ∧
      steps.foldlM (fun total (op, v) => applyNumeric total op v) total = .error zeroDivisor) ∨
    (¬ DividesByZero (steps.map fun (op, v) => (op, v.value)) ∧
      ∃ r, steps.foldlM (fun total (op, v) => applyNumeric total op v) total = .ok r ∧
        r.value = totalBy (nearest precision) total.value
          (steps.map fun (op, v) => (op, v.value))) := by
  induction steps generalizing total with
  | nil =>
    right
    constructor
    · exact List.not_mem_nil
    · exact ⟨total, rfl, rfl⟩
  | cons step steps ih =>
    obtain ⟨op, v⟩ := step
    have joins := joined _ List.mem_cons_self
    simp only [List.foldlM_cons, List.map_cons, DividesByZero, List.mem_cons] at ih ⊢
    by_cases zero : op = .over ∧ v.value = 0
    · obtain ⟨rfl, zero⟩ := zero
      left
      constructor
      · left
        rw [zero]
      · rw [applyNumeric_by_zero total zero]
        rfl
    · obtain ⟨inside, rest⟩ := range.resolve_left zero
      obtain ⟨next, applied, rounded⟩ := applyNumeric_eq_ok joins zero inside
      have apart : (.over, (0 : ℚ)) ≠ (op, v.value) := by
        intro same
        rw [Prod.mk.injEq] at same
        exact zero ⟨same.1.symm, same.2.symm⟩
      rw [← rounded] at rest
      rw [applied]
      rcases ih (fun step member => joined step (List.mem_cons_of_mem _ member)) rest with
        ⟨member, refused⟩ | ⟨safe, r, folded, same⟩
      · left
        exact ⟨.inr member, refused⟩
      · right
        constructor
        · intro member
          rcases member with first | later
          · exact apart first
          · exact safe later
        · refine ⟨r, folded, ?_⟩
          rw [same, totalBy, totalBy, List.foldl_cons, rounded]

/-- The total of numbers, as long as no result on the way leaves the range of places: it is refused
if and only if a number that is divided by is zero, whatever the others are, and for nothing else;
if no exact result on the way has more digits than are kept, it is the exact number that the steps
from left to right make. -/
theorem numericTotal_left_to_right (first : Decimal) (rest : List Decimal)
    (operators : List Operator) (joined : ∀ op ∈ operators, op.joinsNumbers = true)
    (range : Stepwise (InRange precision) (nearest precision) first.value
      (stepsOf operators rest)) :
    (numericTotal (first :: rest) operators = .error zeroDivisor ↔
      DividesByZero (stepsOf operators rest)) ∧
    (¬ DividesByZero (stepsOf operators rest) →
      ∃ r, numericTotal (first :: rest) operators = .ok r ∧
        r.value = totalBy (nearest precision) first.value (stepsOf operators rest) ∧
        (Stepwise (Fits precision) id first.value (stepsOf operators rest) →
          r.value = totalBy id first.value (stepsOf operators rest))) := by
  have steps : ∀ step ∈ operators.zip rest, step.1.joinsNumbers = true := by
    intro step member
    exact joined step.1 (List.of_mem_zip member).1
  rcases foldlM_applyNumeric steps range with ⟨zero, refused⟩ | ⟨safe, r, folded, rounded⟩
  · constructor
    · exact ⟨fun _ => zero, fun _ => refused⟩
    · intro safe
      exact absurd zero safe
  · constructor
    · constructor
      · intro refused
        cases folded.symm.trans refused
      · intro zero
        exact absurd zero safe
    · intro _
      refine ⟨r, folded, rounded, ?_⟩
      intro fits
      exact rounded.trans (totalBy_of_fits safe fits)

/-- One by eight is taken times three, not by the product of both; nothing is made of zero over
zero. -/
theorem eighth_times_three :
    (∃ r, numericTotal [ofNat 1, ofNat 8, ofNat 3] [.over, .times] = .ok r ∧ r.value = 3 / 8) ∧
      numericTotal [ofNat 7, ofNat 0, ofNat 0] [.times, .over] = .error zeroDivisor := by
  have whole : ∀ n, (ofNat n).value = n := by
    intro n
    simp [ofNat, value, signed]
  constructor
  · have steps : stepsOf [.over, .times] [ofNat 8, ofNat 3] = [(.over, 8), (.times, 3)] := by
      simp [stepsOf, whole]
    have eighth : Operator.join .over 1 8 = 1 / 8 := rfl
    have product : Operator.join .times (1 / 8) 3 = 3 / 8 := by norm_num [Operator.join]
    have few : Fits precision (1 / 8) := ⟨125, -3, by norm_num [precision], by norm_num⟩
    have few' : Fits precision (3 / 8) := ⟨375, -3, by norm_num [precision], by norm_num⟩
    have leading : place (1 / 8) = -1 := place_eq (by norm_num) (by norm_num)
    have leading' : place (3 / 8) = -1 := place_eq (by norm_num) (by norm_num)
    have range : Stepwise (InRange precision) (nearest precision) (ofNat 1).value
        (stepsOf [.over, .times] [ofNat 8, ofNat 3]) := by
      rw [steps, whole, Nat.cast_one]
      right
      rw [eighth, nearest_of_fits few]
      constructor
      · right
        rw [nearest_of_fits few, leading]
        decide
      · right
        rw [product, nearest_of_fits few']
        constructor
        · right
          rw [nearest_of_fits few', leading']
          decide
        · trivial
    have fits : Stepwise (Fits precision) id (ofNat 1).value
        (stepsOf [.over, .times] [ofNat 8, ofNat 3]) := by
      rw [steps, whole, Nat.cast_one]
      right
      rw [eighth]
      constructor
      · exact few
      · right
        rw [id_eq, product]
        exact ⟨few', trivial⟩
    have safe : ¬ DividesByZero (stepsOf [.over, .times] [ofNat 8, ofNat 3]) := by
      rw [steps, DividesByZero]
      simp
    obtain ⟨_, known⟩ := numericTotal_left_to_right _ _ _ (by decide) range
    obtain ⟨r, reached, _, exact⟩ := known safe
    refine ⟨r, reached, (exact fits).trans ?_⟩
    rw [steps, whole]
    norm_num [totalBy, Operator.join]
  · have steps : stepsOf [.times, .over] [ofNat 0, ofNat 0] = [(.times, 0), (.over, 0)] := by
      simp [stepsOf, whole]
    have range : Stepwise (InRange precision) (nearest precision) (ofNat 7).value
        (stepsOf [.times, .over] [ofNat 0, ofNat 0]) := by
      rw [steps]
      right
      constructor
      · left
        exact mul_zero _
      · left
        exact ⟨rfl, rfl⟩
    obtain ⟨refused, _⟩ := numericTotal_left_to_right _ _ _ (by decide) range
    rw [refused, steps, DividesByZero]
    simp

end Expression
end QuoteDesk
