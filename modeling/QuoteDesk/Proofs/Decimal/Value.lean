import QuoteDesk.Decimal.Context
import QuoteDesk.Proofs.Decimal.Digits
import QuoteDesk.Proofs.Decimal.Nearest

/-
Arithmetic with a bounded number of digits, by the numbers that its operands and results stand
for. As long as the exact result keeps to the range of places, each operation gives the nearest
number of so many digits to it; the unit that stands in for a far smaller term makes no difference.
-/
namespace QuoteDesk.Decimal

/-- The number that a decimal stands for. -/
def value (d : Decimal) : ℚ := d.signed * 10 ^ d.exponent

theorem abs_signed (d : Decimal) : |(d.signed : ℚ)| = d.coefficient := by
  unfold signed
  split <;> simp

theorem abs_value (d : Decimal) : |d.value| = d.coefficient * 10 ^ d.exponent := by
  rw [value, abs_mul, abs_signed, abs_of_pos (ten_zpow_pos _)]

theorem value_eq_zero_iff (d : Decimal) : d.value = 0 ↔ d.isZero = true := by
  rw [← abs_eq_zero, abs_value, mul_eq_zero, isZero, beq_iff_eq, Nat.cast_eq_zero]
  exact or_iff_left (ten_zpow_pos _).ne'

theorem value_ne_zero {d : Decimal} (some : d.isZero = false) : d.value ≠ 0 := by
  rw [ne_eq, value_eq_zero_iff, some]
  exact Bool.false_ne_true

theorem value_pos_iff (d : Decimal) : 0 < d.value ↔ d.negative = false ∧ d.isZero = false := by
  rw [value, mul_pos_iff_of_pos_right (ten_zpow_pos _), Int.cast_pos, signed, isZero,
    beq_eq_false_iff_ne]
  cases d.negative with
  | false => simp [Nat.pos_iff_ne_zero]
  | true => simp

theorem count_bounds {n : ℕ} (some : 0 < n) : 10 ^ (Digits.count n - 1) ≤ n ∧ n < 10 ^ Digits.count n :=
  ⟨Digits.pow_ilog_le 10 n (by decide) some, Digits.lt_pow_count n⟩

theorem exponent_le_adjusted (d : Decimal) : d.exponent ≤ d.adjusted := by
  simp only [adjusted, digitCount, Digits.count]
  omega

/-- The leading place is that of the number. -/
theorem place_value {d : Decimal} (some : d.isZero = false) : place d.value = d.adjusted := by
  have positive : 0 < d.coefficient := by
    rw [isZero, beq_eq_false_iff_ne] at some
    exact Nat.pos_of_ne_zero some
  have beyond := value_ne_zero some
  obtain ⟨least, below⟩ := count_bounds positive
  have least : (10 : ℚ) ^ (Digits.count d.coefficient - 1) ≤ d.coefficient := by exact_mod_cast least
  have below : (d.coefficient : ℚ) < 10 ^ Digits.count d.coefficient := by exact_mod_cast below
  have split : d.adjusted = (Digits.count d.coefficient - 1 : ℕ) + d.exponent := by
    simp only [adjusted, digitCount, Digits.count]
    omega
  have next : d.adjusted + 1 = (Digits.count d.coefficient : ℕ) + d.exponent := by
    simp only [adjusted, digitCount]
    omega
  apply le_antisymm
  · rw [← Int.lt_add_one_iff, ← lt_zpow_iff beyond, abs_value, next, zpow_add₀ (by norm_num),
      zpow_natCast]
    exact mul_lt_mul_of_pos_right below (ten_zpow_pos _)
  · rw [← zpow_le_iff beyond, abs_value, split, zpow_add₀ (by norm_num), zpow_natCast]
    exact mul_le_mul_of_nonneg_right least (ten_zpow_pos _).le

theorem fits_value {d : Decimal} {p : ℕ} (few : d.digitCount ≤ p) : Fits p d.value := by
  refine ⟨d.signed, d.exponent, ?_, rfl⟩
  have size : |d.signed| = d.coefficient := by exact_mod_cast abs_signed d
  have below := Nat.lt_of_lt_of_le (Digits.lt_pow_count d.coefficient)
    (Nat.pow_le_pow_right (by decide) few)
  rw [size]
  exact_mod_cast below

/-! Exact operations -/

theorem value_neg (d : Decimal) : d.neg.value = -d.value := by
  obtain ⟨negative, coefficient, exponent⟩ := d
  cases negative <;> simp [neg, value, signed]

theorem value_exactProduct (a b : Decimal) : (exactProduct a b).value = a.value * b.value := by
  have signs : ((exactProduct a b).signed : ℚ) = a.signed * b.signed := by
    obtain ⟨negative, coefficient, exponent⟩ := a
    obtain ⟨negative', coefficient', exponent'⟩ := b
    cases negative <;> cases negative' <;> simp [exactProduct, signed]
  rw [value, signs, value, value, exactProduct, zpow_add₀ (by norm_num)]
  ring

theorem value_scaledTo {d : Decimal} {e : ℤ} (low : e ≤ d.exponent) :
    (d.scaledTo e : ℚ) * 10 ^ e = d.value := by
  unfold scaledTo
  split
  · rename_i zero
    rw [(value_eq_zero_iff d).mpr zero, Int.cast_zero, zero_mul]
  · rw [value, ten_zpow_split low]
    push_cast
    ring

theorem signed_natAbs (s e : ℤ) (zero : Bool) :
    (⟨if s = 0 then zero else s < 0, s.natAbs, e⟩ : Decimal).signed = s := by
  unfold signed
  by_cases nothing : s = 0
  · simp [nothing]
  · by_cases less : s < 0
    · simp only [nothing, less, ↓reduceIte, decide_true]
      omega
    · simp only [nothing, less, ↓reduceIte, decide_false, Bool.false_eq_true]
      omega

theorem value_exactSum (a b : Decimal) : (exactSum a b).value = a.value + b.value := by
  have left := value_scaledTo (d := a) (min_le_left a.exponent b.exponent)
  have right := value_scaledTo (d := b) (min_le_right a.exponent b.exponent)
  have whole : (exactSum a b).signed =
      a.scaledTo (min a.exponent b.exponent) + b.scaledTo (min a.exponent b.exponent) :=
    signed_natAbs _ _ _
  rw [value, whole, ← left, ← right]
  push_cast
  rw [add_mul]
  rfl

/-! Rounding -/

/-- Neither the number nor its rounding has its leading digit outside the range of places. -/
def InRange (p : ℕ) (q : ℚ) : Prop := q = 0 ∨ (emin ≤ place q ∧ place (nearest p q) ≤ emax)

/-- A quotient is its whole part and a rest below one. -/
theorem div_eq_add_rest (n : ℕ) {d : ℕ} (some : 0 < d) :
    (n / d : ℚ) = (n / d : ℕ) + (n % d : ℕ) / d ∧ (0 : ℚ) ≤ (n % d : ℕ) / d ∧
      ((n % d : ℕ) : ℚ) / d < 1 := by
  have beyond : (0 : ℚ) < d := by exact_mod_cast some
  refine ⟨?_, by positivity, ?_⟩
  · have whole : (n : ℚ) = d * (n / d : ℕ) + (n % d : ℕ) := by exact_mod_cast (Nat.div_add_mod n d).symm
    rw [div_eq_iff beyond.ne', add_mul, div_mul_cancel₀ _ beyond.ne', whole]
    ring
  · rw [div_lt_one beyond]
    exact_mod_cast Nat.mod_lt n some

theorem wholeNearest_divide (negative : Bool) (n : ℕ) {d : ℕ} (some : 0 < d) :
    (Rounding.halfEven.divide negative n d : ℤ) = wholeNearest (n / d : ℚ) := by
  have beyond : (0 : ℚ) < d := by exact_mod_cast some
  obtain ⟨parts, above, below⟩ := div_eq_add_rest n some
  symm
  apply wholeNearest_eq
  rw [Near, parts]
  unfold Rounding.divide Rounding.raises
  simp only [Bool.or_eq_true, decide_eq_true_eq, Bool.and_eq_true, beq_iff_eq]
  generalize n / d = q at *
  generalize n % d = r at *
  split
  · rename_i raised
    have distance : |(q : ℚ) + r / d - ((q + 1 : ℕ) : ℤ)| = 1 - r / d := by
      push_cast
      rw [abs_of_nonpos (by linarith)]
      ring
    rw [distance]
    rcases raised with more | ⟨half, odd⟩
    · left
      have more : (d : ℚ) < 2 * r := by exact_mod_cast more
      have past : 1 / 2 < (r : ℚ) / d := by
        rw [lt_div_iff₀ beyond]
        linarith
      linarith
    · right
      have middle : (r : ℚ) / d = 1 / 2 := by
        have half : (2 : ℚ) * r = d := by exact_mod_cast half
        rw [div_eq_iff beyond.ne']
        linarith
      refine ⟨by linarith, ?_⟩
      rw [Int.even_coe_nat, Nat.even_iff]
      omega
  · rename_i kept
    rw [not_or, not_lt, not_and] at kept
    have distance : |(q : ℚ) + r / d - (q : ℤ)| = r / d := by
      rw [Int.cast_natCast, add_sub_cancel_left, abs_of_nonneg above]
    rw [distance]
    rcases kept.1.lt_or_eq with less | half
    · left
      have less : 2 * (r : ℚ) < d := by exact_mod_cast less
      rw [div_lt_iff₀ beyond]
      linarith
    · right
      have middle : (r : ℚ) / d = 1 / 2 := by
        have half : (2 : ℚ) * r = d := by exact_mod_cast half
        rw [div_eq_iff beyond.ne']
        linarith
      refine ⟨middle, ?_⟩
      have even := kept.2 half
      rw [Int.even_coe_nat, Nat.even_iff]
      omega

/-- What a way of rounding makes of rational numbers: a nearest whole number, on both sides of zero
alike. -/
structure Rounds (mode : Rounding) (whole : ℚ → ℤ) : Prop where
  divide : ∀ (negative : Bool) (n : ℕ) {d : ℕ}, 0 < d →
    (mode.divide negative n d : ℤ) = whole (n / d : ℚ)
  neg : ∀ x, whole (-x) = -whole x
  near : ∀ x, |x - whole x| ≤ 1 / 2

theorem rounds_halfEven : Rounds .halfEven wholeNearest :=
  ⟨wholeNearest_divide, wholeNearest_neg, fun x => (near_wholeNearest x).le⟩

/-- The digits that are kept, in units of the last one. -/
theorem value_toExponent {mode : Rounding} {whole : ℚ → ℤ} (rounds : Rounds mode whole)
    {d : Decimal} {e : ℤ} (above : d.exponent < e) (near : e ≤ d.exponent + d.digitCount + 1) :
    (d.toExponent mode e).value = whole (d.value / 10 ^ e) * 10 ^ e := by
  have steps : min (e - d.exponent).toNat (Digits.count d.coefficient + 1) = (e - d.exponent).toNat := by
    rw [digitCount] at near
    omega
  have shape : d.toExponent mode e = ⟨d.negative,
      mode.divide d.negative d.coefficient (10 ^ (e - d.exponent).toNat), e⟩ := by
    rw [toExponent, if_neg (not_le.mpr above), Rounding.dropDigits, steps]
  have rounded := rounds.divide d.negative d.coefficient
    (d := 10 ^ (e - d.exponent).toNat) (by positivity)
  have part : d.value / 10 ^ e = d.signed / 10 ^ (e - d.exponent).toNat := by
    rw [value, ten_zpow_split above.le, mul_div_mul_right _ _ (ten_zpow_pos _).ne']
  push_cast at rounded
  rw [shape, part, value]
  congr 2
  unfold signed
  cases sign : d.negative with
  | false =>
    rw [sign] at rounded
    simpa using rounded
  | true =>
    rw [sign] at rounded
    simp only [↓reduceIte, Int.cast_neg, Int.cast_natCast, neg_div, rounds.neg, rounded]

theorem coefficient_toExponent_le (mode : Rounding) {d : Decimal} {e : ℤ} {p : ℕ}
    (above : d.exponent < e) (digits : d.exponent + d.digitCount ≤ e + p) :
    (d.toExponent mode e).coefficient ≤ 10 ^ p := by
  simp only [toExponent, if_neg (not_le.mpr above), Rounding.dropDigits]
  generalize dropped : min (e - d.exponent).toNat (Digits.count d.coefficient + 1) = k
  have below : d.coefficient < 10 ^ k * 10 ^ p := by
    rw [← Nat.pow_add]
    refine Nat.lt_of_lt_of_le (Digits.lt_pow_count d.coefficient) (Nat.pow_le_pow_right (by decide) ?_)
    rw [digitCount] at digits
    omega
  have cut := Nat.div_lt_of_lt_mul below
  have raised := Rounding.divide_le mode d.negative d.coefficient (10 ^ k)
  omega

/-- One digit more than there is room for is a trailing zero. -/
theorem value_carried {p : ℕ} (digits : 1 ≤ p) {r : Decimal} (bound : r.coefficient ≤ 10 ^ p) :
    (if p < r.digitCount then
      { r with coefficient := r.coefficient / 10, exponent := r.exponent + 1 } else r).value =
      r.value := by
  split
  · rename_i more
    have full : r.coefficient = 10 ^ p := by
      have reached : ¬ r.coefficient < 10 ^ p := by
        intro below
        have few := Digits.count_le_of_lt_pow digits below
        rw [digitCount] at more
        omega
      omega
    obtain ⟨n, rfl⟩ := Nat.exists_eq_add_of_le' digits
    have tenth : r.coefficient / 10 = 10 ^ n := by
      rw [full, Nat.pow_succ]
      exact Nat.mul_div_cancel _ (by decide)
    simp only [value, signed, full, zpow_add_one₀ (by norm_num : (10 : ℚ) ≠ 0)]
    rw [full] at tenth
    rw [tenth]
    cases r.negative <;> simp <;> ring
  · rfl

/-- A number whose leading digit is in the range of places is rounded to `p` digits, and refused if
that takes it out of the range. -/
theorem fit_eq {p : ℕ} (digits : 1 ≤ p) {d : Decimal} (some : d.isZero = false)
    (least : emin ≤ d.adjusted) (most : d.adjusted ≤ emax) :
    ∃ r, r.value = nearest p d.value ∧ r.isZero = false ∧
      fit p d = if emax < r.adjusted then .error .overflow else .ok r := by
  have beyond := value_ne_zero some
  have lowest : max (d.adjusted - (p - 1)) (etiny p) = d.adjusted - (p - 1) :=
    max_eq_left (by rw [etiny]; omega)
  have units : place d.value + 1 - p = d.adjusted - (p - 1) := by
    rw [place_value some]
    ring
  rw [fit, some, if_neg Bool.false_ne_true, if_neg (by omega), lowest]
  by_cases room : d.adjusted - (p - 1) ≤ d.exponent
  · have few : d.digitCount ≤ p := by
      simp only [adjusted] at room
      omega
    refine ⟨d, (nearest_of_fits (fits_value few)).symm, some, ?_⟩
    rw [if_pos room, if_neg (by omega)]
  · have near : d.adjusted - (p - 1) ≤ d.exponent + d.digitCount + 1 := by
      simp only [adjusted]
      omega
    have bound : (d.toExponent .halfEven (d.adjusted - (p - 1))).coefficient ≤ 10 ^ p :=
      coefficient_toExponent_le .halfEven (not_le.mp room) (by simp only [adjusted]; omega)
    have same : (d.toExponent .halfEven (d.adjusted - (p - 1))).value = nearest p d.value := by
      rw [value_toExponent rounds_halfEven (not_le.mp room) near, nearest, units]
    have carried := (value_carried digits bound).trans same
    have rounded := (place_le_place_nearest digits beyond).1
    rw [← carried, ne_eq, value_eq_zero_iff, Bool.not_eq_true] at rounded
    refine ⟨_, carried, rounded, ?_⟩
    simp only [if_neg room, rounded, Bool.not_false, Bool.true_and, decide_eq_true_eq]

/-- A result in the range of places is the nearest number of `p` digits. -/
theorem fit_eq_ok {p : ℕ} (digits : 1 ≤ p) {d : Decimal} (range : InRange p d.value) :
    ∃ r, fit p d = .ok r ∧ r.value = nearest p d.value := by
  cases zero : d.isZero with
  | true =>
    refine ⟨_, fit_zero p d zero, ?_⟩
    rw [(value_eq_zero_iff d).mpr zero, nearest_zero, value_eq_zero_iff]
    exact zero
  | false =>
    have some := value_ne_zero zero
    obtain ⟨least, most⟩ := range.resolve_left some
    obtain ⟨_, grown⟩ := place_le_place_nearest digits some
    rw [place_value zero] at least grown
    obtain ⟨r, rounded, beyond, fitted⟩ := fit_eq digits zero least (by omega)
    rw [← rounded, place_value beyond] at most
    exact ⟨r, by rw [fitted, if_neg (by omega)], rounded⟩

/-! Rounded operations -/

variable {p : ℕ} {a b : Decimal}

theorem onGrid_value (d : Decimal) : OnGrid d.exponent d.value := ⟨d.signed, rfl⟩

theorem mul_eq_ok (digits : 1 ≤ p) (range : InRange p (a.value * b.value)) :
    ∃ r, mul p a b = .ok r ∧ r.value = nearest p (a.value * b.value) := by
  rw [← value_exactProduct] at range ⊢
  exact fit_eq_ok digits range

/-- What stands in for a term is the term, or a unit of its sign where the term is far too small to
be seen. -/
theorem inSightOf_cases (p : ℕ) (a b : Decimal) :
    (inSightOf p a b).value = b.value ∨
      a.isZero = false ∧ b.adjusted < a.exponent - (p + 3) ∧
        Tiny p a.exponent b.value (inSightOf p a b).value := by
  unfold inSightOf
  split
  · rename_i far
    simp only [Bool.and_eq_true, Bool.not_eq_true', decide_eq_true_eq] at far
    cases zero : b.isZero with
    | true =>
      left
      have nothing : b.coefficient = 0 := by simpa [isZero] using zero
      simp [value, signed, nothing]
    | false =>
      right
      refine ⟨far.1, far.2, ?_⟩
      have one : min b.coefficient 1 = 1 := by
        simp only [isZero, beq_eq_false_iff_ne] at zero
        omega
      have some := value_ne_zero zero
      rw [one]
      constructor
      · apply le_of_lt
        rw [lt_zpow_iff some, place_value zero]
        exact far.2
      · rw [abs_value, Nat.cast_one, one_mul]
      · exact some
      · simp [value_eq_zero_iff, isZero]
      · rw [value_pos_iff, value_pos_iff, zero]
        rfl
  · exact .inl rfl

theorem InRange.of_tiny {q x y : ℚ} {k : ℤ} (range : InRange p (q + x)) (tiny : Tiny p k x y)
    (grid : OnGrid k q) (some : q ≠ 0) : InRange p (q + y) := by
  obtain ⟨places, roundings⟩ := tiny.nearest_eq grid some
  obtain ⟨least, most⟩ := range.resolve_left (tiny.add_ne_zero grid some)
  right
  rw [← places, ← roundings]
  exact ⟨least, most⟩

/-- The sum is rounded once, if only its second term may be replaced. -/
theorem fit_sight {a' : Decimal} (digits : 1 ≤ p) (range : InRange p (a.value + b.value))
    (kept : a'.value = a.value) :
    ∃ r, fit p (exactSum a' (inSightOf p a b)) = .ok r ∧ r.value = nearest p (a.value + b.value) := by
  have exact := value_exactSum a' (inSightOf p a b)
  rw [kept] at exact
  rcases inSightOf_cases p a b with same | ⟨zero, _, tiny⟩
  · rw [same] at exact
    rw [← exact] at range ⊢
    exact fit_eq_ok digits range
  · have some := value_ne_zero zero
    have range' := range.of_tiny tiny (onGrid_value a) some
    rw [(tiny.nearest_eq (onGrid_value a) some).2]
    rw [← exact] at range' ⊢
    exact fit_eq_ok digits range'

theorem add_eq_ok (digits : 1 ≤ p) (range : InRange p (a.value + b.value)) :
    ∃ r, add p a b = .ok r ∧ r.value = nearest p (a.value + b.value) := by
  rcases inSightOf_cases p b a with same | ⟨_, far, _⟩
  · exact fit_sight digits range same
  · -- then the other term is large, and stays
    have stays : inSightOf p a b = b := by
      have left := exponent_le_adjusted a
      have right := exponent_le_adjusted b
      unfold inSightOf
      rw [if_neg]
      simp only [Bool.and_eq_true, decide_eq_true_eq, not_and, not_lt]
      omega
    rw [add, stays, exactSum_comm]
    rw [add_comm] at range ⊢
    exact fit_sight digits range rfl

theorem sub_eq_ok (digits : 1 ≤ p) (range : InRange p (a.value - b.value)) :
    ∃ r, sub p a b = .ok r ∧ r.value = nearest p (a.value - b.value) := by
  rw [sub_eq_add_neg, ← value_neg] at range ⊢
  exact add_eq_ok digits range

end QuoteDesk.Decimal
