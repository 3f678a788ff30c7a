import QuoteDesk.Proofs.Decimal.PriceText

/-
Rounding to places after the point. As many digits are asked for as the result can have, one more
than stand before the point included, so a number is never refused as long as it is not at the
upper end of the range of places. It is rounded from all its digits, and only once.
-/
namespace QuoteDesk.Decimal

/-! Sizes -/

namespace Rounds

variable {mode : Rounding} {whole : ℚ → ℤ}

theorem whole_nonneg (rounds : Rounds mode whole) {x : ℚ} (least : 0 ≤ x) : 0 ≤ whole x := by
  have near := (abs_le.mp (rounds.near x)).2
  have above : (-1 : ℚ) < whole x := by linarith
  have above : -1 < whole x := by exact_mod_cast above
  omega

/-- The sign of a number makes no difference to the size of its rounding. -/
theorem abs_whole (rounds : Rounds mode whole) (x : ℚ) : |whole x| = whole |x| := by
  rcases le_total 0 x with least | most
  · rw [abs_of_nonneg least, abs_of_nonneg (rounds.whole_nonneg least)]
  · have turned := rounds.whole_nonneg (neg_nonneg.mpr most)
    rw [abs_of_nonpos most, rounds.neg, abs_of_nonpos]
    rw [rounds.neg] at turned
    omega

/-- Brought to places after the point, a number has the rounded size as its digits. -/
theorem coefficient_toPlaces (rounds : Rounds mode whole) (d : Decimal) (places : ℕ) :
    ((d.toExponent mode (-places)).coefficient : ℤ) = whole (|d.value| * 10 ^ places) := by
  have unit : (0 : ℚ) < 10 ^ places := by positivity
  have size := congrArg (|·|) (rounds.value_toPlaces d places)
  rw [abs_value, exponent_toExponent, zpow_neg, zpow_natCast, ← div_eq_mul_inv, toPlaces, abs_div,
    abs_of_pos unit, div_left_inj' unit.ne'] at size
  have scaled : |d.value * 10 ^ places| = |d.value| * 10 ^ places := by
    rw [abs_mul, abs_of_pos unit]
  rw [← scaled, ← rounds.abs_whole]
  exact_mod_cast size

end Rounds

/-- A whole number is nearest; if another one is as near, that one is nearer to zero. -/
def NearAway (x : ℚ) (n : ℤ) : Prop := |x - n| < 1 / 2 ∨ (|x - n| = 1 / 2 ∧ |x| < |(n : ℚ)|)

theorem nearAway_wholeAway {x : ℚ} (least : 0 ≤ x) : NearAway x (wholeAway x) := by
  have near := near_wholeAway x
  rcases near.lt_or_eq with less | half
  · exact .inl less
  · refine .inr ⟨half, ?_⟩
    have low := Int.lt_floor_add_one (x + 1 / 2)
    rw [wholeAway, if_pos least] at half ⊢
    -- of the two whole numbers at this distance the floor is not the lower one
    rcases (abs_eq (by norm_num)).mp half with above | below
    · linarith
    · rw [abs_of_nonneg least]
      refine lt_of_lt_of_le ?_ (le_abs_self _)
      linarith

/-! Rounding -/

/-- The number with so many places after the point whose digits are those of the other rounded by
the rule, and with the sign of the other. -/
structure RoundedOnce (rule : ℚ → ℤ → Prop) (places : ℕ) (d r : Decimal) : Prop where
  exponent : r.exponent = -places
  sign : r.negative = d.negative
  digits : rule (|d.value| * 10 ^ places) r.coefficient

theorem roundTo_of_below {mode : Rounding} {whole : ℚ → ℤ} (rounds : Rounds mode whole)
    {rule : ℚ → ℤ → Prop} (obeys : ∀ x, 0 ≤ x → rule x (whole x)) {d : Decimal} {places : ℕ}
    (within : d.adjusted < emax) (few : (places : ℤ) ≤ emax) :
    ∃ r, roundTo places mode d = .ok r ∧ RoundedOnce rule places d r := by
  have clear : Clear (emax + 1 - precision) d.value := clear_of_adjusted within (by decide)
  have inside := adjusted_toExponent_le mode clear places
  refine ⟨d.toExponent mode (-places), ?_, exponent_toExponent mode _ d,
    negative_toExponent mode _ d, ?_⟩
  · rw [roundTo_eq mode few within.le, if_neg (not_lt.mpr inside)]
  · rw [rounds.coefficient_toPlaces]
    exact obeys _ (by positivity)

/-- A number below the upper end of the range of places is rounded to any number of places that is
in this range, with the sign it has: halves are rounded away from zero or to even, and whether
rounding carries into a new leading digit makes no difference. -/
theorem roundTo_rounds_once {d : Decimal} {places : ℕ} (within : d.adjusted < emax)
    (few : (places : ℤ) ≤ emax) :
    (∃ r, roundTo places .halfUp d = .ok r ∧ RoundedOnce NearAway places d r) ∧
      ∃ r, roundTo places .halfEven d = .ok r ∧ RoundedOnce Near places d r :=
  ⟨roundTo_of_below rounds_halfUp (fun _ least => nearAway_wholeAway least) within few,
    roundTo_of_below rounds_halfEven (fun x _ => near_wholeNearest x) within few⟩

/-- All nines, more of them than the usual digits, and a half. -/
def allNines : Decimal := ⟨true, 99999999999999999999999999999995, -1⟩

/-- Both ways of rounding end with one digit more than stood before the point. -/
theorem allNines_carried :
    allNines.adjusted < emax ∧
      (∃ r, roundTo (0 : ℕ) .halfUp allNines = .ok r ∧ RoundedOnce NearAway 0 allNines r) ∧
      (∃ r, roundTo (0 : ℕ) .halfEven allNines = .ok r ∧ RoundedOnce Near 0 allNines r) ∧
      roundTo (0 : ℕ) .halfUp allNines = .ok ⟨true, 10 ^ 31, 0⟩ := by
  have within : allNines.adjusted < emax := by decide +kernel
  have few : ((0 : ℕ) : ℤ) ≤ emax := by decide
  obtain ⟨away, even⟩ := roundTo_rounds_once within few
  exact ⟨within, away, even, by decide +kernel⟩

end QuoteDesk.Decimal
