import QuoteDesk.Proofs.Decimal.Reduced

/-
Quotients. The digits of a division end one place behind the last one that is kept, or later, so
that all numbers which begin with them are rounded alike; a one stands for the rest of an inexact
quotient, and the zeros that an exact one sheds do not count.
-/
namespace QuoteDesk.Decimal

theorem SameCell.of_between {k m : ℤ} {x y : ℚ} (left : m * 10 ^ k < x ∧ x < (m + 1) * 10 ^ k)
    (right : m * 10 ^ k < y ∧ y < (m + 1) * 10 ^ k) : SameCell k x y := by
  have unit := ten_zpow_pos k
  -- each mark is at the lower end of the cell or below it, or at the upper end or above it
  have marks : ∀ t, OnGrid k t → t ≤ m * 10 ^ k ∨ (m + 1) * 10 ^ k ≤ t := by
    intro t mark
    obtain ⟨i, rfl⟩ := mark
    rcases le_or_gt i m with below | above
    · left
      have low : (i : ℚ) ≤ m := by exact_mod_cast below
      exact mul_le_mul_of_nonneg_right low unit.le
    · right
      have high : (m : ℚ) + 1 ≤ i := by exact_mod_cast above
      exact mul_le_mul_of_nonneg_right high unit.le
  constructor
  · intro t mark
    rcases marks t mark with low | high
    · constructor <;> intro less <;> linarith
    · constructor <;> intro less <;> linarith
  · intro mark
    rcases marks x mark with low | high <;> linarith
  · intro mark
    rcases marks y mark with low | high <;> linarith

/-! Signs -/

/-- The side of zero that a sign means. -/
def side (negative : Bool) : ℚ := if negative then -1 else 1

theorem value_eq_side (d : Decimal) : d.value = side d.negative * (d.coefficient * 10 ^ d.exponent) := by
  rw [value, signed, side]
  split <;> push_cast <;> ring

theorem side_bne (a b : Bool) : side (a != b) = side a / side b := by
  cases a <;> cases b <;> norm_num [side]

theorem place_side (negative : Bool) (q : ℚ) : place (side negative * q) = place q := by
  cases negative with
  | false => rw [side, if_neg Bool.false_ne_true, one_mul]
  | true => rw [side, if_pos rfl, neg_one_mul, place_neg]

theorem nearest_side (p : ℕ) (negative : Bool) (q : ℚ) :
    nearest p (side negative * q) = side negative * nearest p q := by
  cases negative with
  | false => rw [side, if_neg Bool.false_ne_true, one_mul, one_mul]
  | true => rw [side, if_pos rfl, neg_one_mul, neg_one_mul, nearest_neg]

/-! Long division -/

/-- The places that the dividend is moved by, so that more digits than are kept come out. -/
def shiftFor (p : ℕ) (a b : Decimal) : ℤ := b.digitCount - a.digitCount + p + 1

/-- The dividend and the divisor of the long division. -/
def shifted (p : ℕ) (a b : Decimal) : ℕ × ℕ :=
  (a.coefficient * 10 ^ (shiftFor p a b).toNat, b.coefficient * 10 ^ (-shiftFor p a b).toNat)

theorem ten_pow_div (s : ℤ) : (10 : ℚ) ^ s.toNat / 10 ^ (-s).toNat = 10 ^ s := by
  obtain ⟨n, rfl | rfl⟩ := s.eq_nat_or_neg
  · simp
  · simp

variable {p : ℕ} {a b : Decimal}

theorem shifted_pos (divisor : b.isZero = false) : 0 < (shifted p a b).2 := by
  rw [isZero, beq_eq_false_iff_ne] at divisor
  exact Nat.mul_pos (Nat.pos_of_ne_zero divisor) (Nat.pow_pos (by decide))

/-- The quotient is that of the shifted numbers at its power of ten. -/
theorem value_div (p : ℕ) (a b : Decimal) :
    a.value / b.value = side (a.negative != b.negative) *
      ((shifted p a b).1 / (shifted p a b).2 * 10 ^ (a.exponent - b.exponent - shiftFor p a b)) := by
  have moved := ten_pow_div (shiftFor p a b)
  have back := (ten_zpow_pos (shiftFor p a b)).ne'
  rw [value_eq_side, value_eq_side, side_bne, shifted]
  generalize shiftFor p a b = s at moved back ⊢
  have parts : ((a.coefficient * 10 ^ s.toNat : ℕ) : ℚ) / (b.coefficient * 10 ^ (-s).toNat : ℕ) =
      a.coefficient / b.coefficient * 10 ^ s := by
    push_cast
    rw [mul_div_mul_comm, moved]
  have exponents : (10 : ℚ) ^ (a.exponent - b.exponent - s) = 10 ^ a.exponent / 10 ^ b.exponent / 10 ^ s := by
    rw [zpow_sub₀ (by norm_num), zpow_sub₀ (by norm_num)]
  dsimp only
  rw [parts, exponents, mul_div_mul_comm, mul_div_mul_comm]
  congr 1
  rw [mul_assoc, mul_div_cancel₀ _ back]

/-- The whole part of the quotient has more digits than are kept. -/
theorem pow_le_div_shifted (dividend : a.isZero = false) (divisor : b.isZero = false) :
    10 ^ p ≤ (shifted p a b).1 / (shifted p a b).2 := by
  have positive := shifted_pos (p := p) (a := a) divisor
  rw [Nat.le_div_iff_mul_le positive]
  rw [isZero, beq_eq_false_iff_ne] at dividend divisor
  obtain ⟨least, _⟩ := count_bounds (Nat.pos_of_ne_zero dividend)
  obtain ⟨_, below⟩ := count_bounds (Nat.pos_of_ne_zero divisor)
  have places : p + (Digits.count b.coefficient + (-shiftFor p a b).toNat) =
      Digits.count a.coefficient - 1 + (shiftFor p a b).toNat := by
    have counted : 1 ≤ Digits.count a.coefficient := Nat.le_add_left 1 _
    simp only [shiftFor, digitCount]
    omega
  calc 10 ^ p * (b.coefficient * 10 ^ (-shiftFor p a b).toNat)
      ≤ 10 ^ p * (10 ^ Digits.count b.coefficient * 10 ^ (-shiftFor p a b).toNat) :=
        Nat.mul_le_mul_left _ (Nat.mul_le_mul_right _ below.le)
    _ = 10 ^ (Digits.count a.coefficient - 1) * 10 ^ (shiftFor p a b).toNat := by
        rw [← Nat.pow_add, ← Nat.pow_add, places, Nat.pow_add]
    _ ≤ a.coefficient * 10 ^ (shiftFor p a b).toNat := Nat.mul_le_mul_right _ least

/-- Zeros at the end of a whole number may be taken off in part. -/
theorem shed_zeros (q k : ℕ) (few : k ≤ Digits.trailingZeros q) : q / 10 ^ k * 10 ^ k = q := by
  have stripped := Digits.stripBase_mul 10 q
  apply Nat.div_mul_cancel
  rw [← stripped]
  exact dvd_mul_of_dvd_right (Nat.pow_dvd_pow 10 few) _

theorem longQuotient_exact (exact : (shifted p a b).1 % (shifted p a b).2 = 0)
    (divisor : b.isZero = false) : (longQuotient p a b).value = a.value / b.value := by
  obtain ⟨whole, _⟩ := div_eq_add_rest (shifted p a b).1 (shifted_pos (p := p) (a := a) divisor)
  rw [exact, Nat.cast_zero, zero_div, add_zero] at whole
  have shed := shed_zeros _ _
    (Nat.min_le_left (Digits.trailingZeros ((shifted p a b).1 / (shifted p a b).2))
      (shiftFor p a b).toNat)
  have shape : longQuotient p a b =
      let q := (shifted p a b).1 / (shifted p a b).2
      let k := min (Digits.trailingZeros q) (shiftFor p a b).toNat
      ⟨a.negative != b.negative, q / 10 ^ k, a.exponent - b.exponent - shiftFor p a b + k⟩ :=
    if_neg (not_not.mpr exact)
  rw [shape, value_div p, whole, value_eq_side]
  dsimp only
  generalize (shifted p a b).1 / (shifted p a b).2 = q at shed ⊢
  generalize min (Digits.trailingZeros q) (shiftFor p a b).toNat = k at shed ⊢
  have digits : ((q / 10 ^ k : ℕ) : ℚ) * 10 ^ k = q := by exact_mod_cast shed
  rw [zpow_add₀ (by norm_num), zpow_natCast, ← digits]
  ring

/-- An inexact quotient lies between two whole numbers of its last place, and so does what stands
for it. -/
theorem longQuotient_inexact (inexact : (shifted p a b).1 % (shifted p a b).2 ≠ 0)
    (dividend : a.isZero = false) (divisor : b.isZero = false) :
    place (longQuotient p a b).value = place (a.value / b.value) ∧
      nearest p (longQuotient p a b).value = nearest p (a.value / b.value) := by
  have digits := pow_le_div_shifted (p := p) dividend divisor
  have shape : longQuotient p a b =
      ⟨a.negative != b.negative, 10 * ((shifted p a b).1 / (shifted p a b).2) + 1,
        a.exponent - b.exponent - shiftFor p a b - 1⟩ := if_pos inexact
  obtain ⟨parts, _, below⟩ := div_eq_add_rest (shifted p a b).1 (shifted_pos divisor)
  have rest : (0 : ℚ) < ((shifted p a b).1 % (shifted p a b).2 : ℕ) / (shifted p a b).2 := by
    have some : 0 < (shifted p a b).1 % (shifted p a b).2 := Nat.pos_of_ne_zero inexact
    have positive := shifted_pos (p := p) (a := a) divisor
    positivity
  rw [shape, value_div p, parts, value_eq_side, place_side, place_side, nearest_side, nearest_side]
  dsimp only
  generalize (shifted p a b).1 / (shifted p a b).2 = q at digits ⊢
  generalize ((shifted p a b).1 % (shifted p a b).2 : ℕ) / ((shifted p a b).2 : ℚ) = r at below rest ⊢
  generalize a.exponent - b.exponent - shiftFor p a b = e
  have unit := ten_zpow_pos e
  have stand : ((10 * q + 1 : ℕ) : ℚ) * 10 ^ (e - 1) = (q + 1 / 10) * 10 ^ e := by
    rw [ten_zpow_pred e]
    push_cast
    ring
  have cell : SameCell e ((q + 1 / 10) * 10 ^ e) ((q + r) * 10 ^ e) := by
    apply SameCell.of_between (m := q)
    · constructor
      · exact mul_lt_mul_of_pos_right (by push_cast; linarith) unit
      · exact mul_lt_mul_of_pos_right (by push_cast; linarith) unit
    · constructor
      · exact mul_lt_mul_of_pos_right (by push_cast; linarith) unit
      · exact mul_lt_mul_of_pos_right (by push_cast; linarith) unit
  have least : (10 : ℚ) ^ (e + p) ≤ (q + 1 / 10) * 10 ^ e := by
    have many : (10 : ℚ) ^ p ≤ q := by exact_mod_cast digits
    rw [zpow_add₀ (by norm_num), zpow_natCast, mul_comm]
    exact mul_le_mul_of_nonneg_right (by linarith) unit.le
  rw [stand, cell.place_eq (by omega) least, cell.nearest_eq least]
  exact ⟨rfl, rfl⟩

/-- The quotient is rounded once. -/
theorem div_eq_ok (digits : 1 ≤ p) (divisor : b.isZero = false)
    (range : InRange p (a.value / b.value)) :
    ∃ r, div p a b = .ok r ∧ r.value = nearest p (a.value / b.value) := by
  rw [div, divisor, if_neg Bool.false_ne_true]
  cases dividend : a.isZero with
  | true =>
    have zero : (⟨a.negative != b.negative, 0, a.exponent - b.exponent⟩ : Decimal).value = 0 := by
      rw [value_eq_zero_iff]
      rfl
    rw [if_pos rfl, (value_eq_zero_iff a).mpr dividend, zero_div, ← zero]
    exact fit_eq_ok digits (.inl zero)
  | false =>
    rw [if_neg Bool.false_ne_true]
    by_cases exact : (shifted p a b).1 % (shifted p a b).2 = 0
    · rw [← longQuotient_exact exact divisor] at range ⊢
      exact fit_eq_ok digits range
    · obtain ⟨places, roundings⟩ := longQuotient_inexact exact dividend divisor
      have some := div_ne_zero (value_ne_zero dividend) (value_ne_zero divisor)
      rw [← roundings]
      apply fit_eq_ok digits
      right
      rw [places, roundings]
      exact range.resolve_left some

end QuoteDesk.Decimal
