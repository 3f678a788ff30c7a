import QuoteDesk.Proofs.Decimal.Value

/-
How far numbers reach. No result has a digit at or above the first power of ten behind the range
of places, and a number that would be rounded up to it is refused as well: it has to stay away from
it by more than half a unit of the last digit that is kept.
-/
namespace QuoteDesk.Decimal

/-! Roundings that reach an even number -/

theorem wholeNearest_lt_iff {n : ℤ} (even : Even n) (x : ℚ) :
    wholeNearest x < n ↔ x + 1 / 2 < n := by
  have near := near_wholeNearest x
  obtain ⟨low, high⟩ := abs_le.mp near.le
  constructor
  · intro below
    have room : (wholeNearest x : ℚ) + 1 ≤ n := by exact_mod_cast below
    refine lt_of_le_of_ne (by linarith) fun half => ?_
    -- halfway below an even number, that number is the nearest one
    have middle : |x - n| = 1 / 2 := by
      have distance : x - n = -(1 / 2) := by linarith
      rw [distance]
      norm_num
    exact below.ne (wholeNearest_eq (.inr ⟨middle, even⟩))
  · intro below
    have room : (wholeNearest x : ℚ) < n := by linarith
    exact_mod_cast room

theorem abs_wholeNearest (x : ℚ) : |wholeNearest x| = wholeNearest |x| := by
  have positive : ∀ y : ℚ, 0 ≤ y → 0 ≤ wholeNearest y := fun y least =>
    le_wholeNearest (by exact_mod_cast least)
  rcases le_total 0 x with least | most
  · rw [abs_of_nonneg least, abs_of_nonneg (positive x least)]
  · rw [abs_of_nonpos most, wholeNearest_neg, abs_of_nonpos]
    have reflected := positive (-x) (by linarith)
    rw [wholeNearest_neg] at reflected
    linarith

theorem abs_wholeNearest_lt_iff {n : ℤ} (even : Even n) (x : ℚ) :
    |(wholeNearest x : ℚ)| < n ↔ |x| + 1 / 2 < n := by
  rw [← wholeNearest_lt_iff even, ← abs_wholeNearest]
  exact_mod_cast Iff.rfl

theorem even_ten_pow {k : ℕ} (some : 1 ≤ k) : Even (10 ^ k : ℤ) :=
  (by decide : Even (10 : ℤ)).pow_of_ne_zero (by omega)

/-- Rounded to multiples of a power of ten, a number stays below another such power if it is more
than half a unit below it. -/
theorem abs_rounded_lt_iff {e k : ℤ} (above : e < k) (q : ℚ) :
    |wholeNearest (q / 10 ^ e) * (10 : ℚ) ^ e| < 10 ^ k ↔ |q| + 10 ^ e / 2 < 10 ^ k := by
  obtain ⟨n, rfl⟩ := Int.le.dest above.le
  have unit := ten_zpow_pos e
  have power : (10 : ℚ) ^ (e + n) = (10 ^ n : ℤ) * 10 ^ e := by
    rw [zpow_add₀ (by norm_num), zpow_natCast]
    push_cast
    ring
  have scaled : |q| + 10 ^ e / 2 = (|q / 10 ^ e| + 1 / 2) * 10 ^ e := by
    rw [abs_div, abs_of_pos unit]
    field_simp
  rw [power, abs_mul, abs_of_pos unit, scaled, mul_lt_mul_iff_left₀ unit, mul_lt_mul_iff_left₀ unit]
  exact abs_wholeNearest_lt_iff (even_ten_pow (by omega)) _

/-- In `p` digits a number does not come to a power of ten that is more than half a unit of the
last digit below that power away from it. -/
theorem place_nearest_le_iff {p : ℕ} (digits : 1 ≤ p) {q : ℚ} (some : q ≠ 0) (k : ℤ) :
    place (nearest p q) ≤ k ↔ |q| + 10 ^ (k + 1 - p) / 2 < 10 ^ (k + 1) := by
  obtain ⟨rounded, grown⟩ := place_le_place_nearest digits some
  have tenfold : (10 : ℚ) ^ (k + 1) = 10 * 10 ^ k := by
    rw [zpow_add_one₀ (by norm_num)]
    ring
  have unit := ten_zpow_pos k
  rcases lt_trichotomy (place q) k with less | same | more
  · -- one place is left for the rounding
    have below : |q| < 10 ^ k := (lt_zpow_iff some).mpr less
    have step : ∀ e ≤ k, |q| + 10 ^ e / 2 < 10 ^ (k + 1) := by
      intro e low
      have small : (10 : ℚ) ^ e ≤ 10 ^ k := zpow_le_zpow_right₀ (by norm_num) low
      rw [tenfold]
      linarith
    have kept : |nearest p q| < 10 ^ (k + 1) := by
      rw [nearest, abs_rounded_lt_iff (by omega)]
      exact step _ (by omega)
    rw [← Int.lt_add_one_iff, ← lt_zpow_iff rounded]
    exact iff_of_true kept (step _ (by omega))
  · rw [← Int.lt_add_one_iff, ← lt_zpow_iff rounded, nearest, same]
    exact abs_rounded_lt_iff (by omega) q
  · have reached : (10 : ℚ) ^ (k + 1) ≤ |q| := (zpow_le_iff some).mpr more
    refine iff_of_false (by omega) (not_lt.mpr ?_)
    linarith [ten_zpow_pos (k + 1 - p)]

/-! The range of places -/

/-- The power of ten that every result stays below. -/
def reach : ℚ := 10 ^ (emax + 1)

theorem reach_pos : 0 < reach := ten_zpow_pos _

theorem adjusted_of_zero {d : Decimal} (zero : d.isZero = true) : d.adjusted = d.exponent := by
  have nothing : d.coefficient = 0 := beq_iff_eq.mp zero
  have one : Digits.count 0 = 1 := by
    rw [Digits.count, Digits.ilog, dif_neg (by omega)]
  rw [adjusted, digitCount, nothing, one]
  omega

theorem lt_reach_of_adjusted {d : Decimal} (within : d.adjusted ≤ emax) : |d.value| < reach := by
  cases zero : d.isZero with
  | true =>
    rw [(value_eq_zero_iff d).mpr zero, abs_zero]
    exact reach_pos
  | false =>
    rw [reach, lt_zpow_iff (value_ne_zero zero), place_value zero]
    omega

/-- A zero stands at its exponent, which may be out of the range of places. -/
theorem adjusted_le_iff {d : Decimal} (low : d.isZero = true → d.exponent ≤ emax) :
    d.adjusted ≤ emax ↔ |d.value| < reach := by
  constructor
  · exact lt_reach_of_adjusted
  · intro below
    cases zero : d.isZero with
    | true =>
      rw [adjusted_of_zero zero]
      exact low zero
    | false =>
      rw [reach, lt_zpow_iff (value_ne_zero zero), place_value zero] at below
      omega

/-- The number is more than half a unit of the place away from what is out of reach. -/
def Clear (e : ℤ) (q : ℚ) : Prop := |q| + 10 ^ e / 2 < reach

theorem ten_le_reach : 10 ≤ reach := by
  have power : (10 : ℚ) ^ (1 : ℤ) ≤ reach := zpow_le_zpow_right₀ (by norm_num) (by decide)
  linarith [zpow_one (10 : ℚ)]

theorem unit_le_reach {e : ℤ} (low : e ≤ emax) : 10 * (10 : ℚ) ^ e ≤ reach := by
  rw [← zpow_one_add₀ (by norm_num)]
  exact zpow_le_zpow_right₀ (by norm_num) (by omega)

theorem clear_of_small {e : ℤ} {q : ℚ} (low : e ≤ emax) (small : |q| ≤ 1) : Clear e q := by
  have room := ten_le_reach
  have unit := unit_le_reach low
  unfold Clear
  linarith

theorem Clear.lt_reach {e : ℤ} {q : ℚ} (clear : Clear e q) : |q| < reach := by
  have unit := ten_zpow_pos e
  unfold Clear at clear
  linarith

/-! Rounding to a number of digits -/

theorem place_nearest_le_emax_iff {p : ℕ} (digits : 1 ≤ p) {q : ℚ} (some : q ≠ 0) :
    place (nearest p q) ≤ emax ↔ Clear (emax + 1 - p) q :=
  place_nearest_le_iff digits some emax

theorem abs_value_le_one {d : Decimal} {k : ℕ} (few : d.coefficient ≤ 10 ^ k)
    (low : d.exponent + k ≤ 0) : |d.value| ≤ 1 := by
  have digits : (d.coefficient : ℚ) ≤ 10 ^ k := by exact_mod_cast few
  calc |d.value| = d.coefficient * 10 ^ d.exponent := abs_value d
    _ ≤ 10 ^ k * 10 ^ d.exponent := mul_le_mul_of_nonneg_right digits (ten_zpow_pos _).le
    _ = 10 ^ (d.exponent + k) := by rw [zpow_add₀ (by norm_num), zpow_natCast, mul_comm]
    _ ≤ 1 := zpow_le_one_of_nonpos₀ (by norm_num) low

theorem abs_value_lt (d : Decimal) : |d.value| < 10 ^ (d.adjusted + 1) := by
  have digits : (d.coefficient : ℚ) < 10 ^ d.digitCount := by
    exact_mod_cast Digits.lt_pow_count d.coefficient
  have split : d.adjusted + 1 = d.exponent + d.digitCount := by
    rw [adjusted]
    omega
  rw [abs_value, split, zpow_add₀ (by norm_num), zpow_natCast, mul_comm]
  exact mul_lt_mul_of_pos_left digits (ten_zpow_pos _)

theorem clear_of_adjusted {d : Decimal} (within : d.adjusted < emax) {e : ℤ} (low : e ≤ emax) :
    Clear e d.value := by
  have below : (10 : ℚ) ^ (d.adjusted + 1) ≤ 10 ^ emax := zpow_le_zpow_right₀ (by norm_num) within
  have unit : (10 : ℚ) ^ e ≤ 10 ^ emax := zpow_le_zpow_right₀ (by norm_num) low
  have room := unit_le_reach (le_refl emax)
  have leading := abs_value_lt d
  have some := ten_zpow_pos emax
  unfold Clear
  linarith

theorem abs_value_le_one_of_adjusted {d : Decimal} (low : d.adjusted < 0) : |d.value| ≤ 1 :=
  (abs_value_lt d).le.trans (zpow_le_one_of_nonpos₀ (by norm_num) low)

/-- Where numbers lose digits for their low place, none is refused. -/
theorem fit_small {p : ℕ} (digits : 1 ≤ p) {d : Decimal} (some : d.isZero = false)
    (low : d.adjusted < emin) :
    ∃ r, fit p d = .ok r ∧ r.adjusted ≤ emax ∧ |r.value| ≤ 1 := by
  have lowest : max (d.adjusted - (p - 1)) (etiny p) = etiny p :=
    max_eq_right (by rw [etiny]; omega)
  have under : d.adjusted < 0 := lt_trans low (by decide)
  have within : d.adjusted ≤ emax := le_trans under.le (by decide)
  by_cases room : etiny p ≤ d.exponent
  · refine ⟨d, ?_, within, abs_value_le_one_of_adjusted under⟩
    rw [fit, some, if_neg Bool.false_ne_true, if_neg (not_lt.mpr within), lowest, if_pos room]
  · have few : (d.toExponent .halfEven (etiny p)).coefficient ≤ 10 ^ (p - 1) := by
      apply coefficient_toExponent_le .halfEven (not_le.mp room)
      rw [adjusted] at low
      rw [etiny]
      omega
    have count : (d.toExponent .halfEven (etiny p)).digitCount ≤ p := by
      apply Digits.count_le_of_lt_pow digits
      exact Nat.lt_of_le_of_lt few (Nat.pow_lt_pow_right (by decide) (by omega))
    have inside : (d.toExponent .halfEven (etiny p)).adjusted ≤ emax := by
      have order : emin ≤ emax := by decide
      have bottom : etiny p = emin - (p - 1) := rfl
      rw [adjusted, exponent_toExponent]
      omega
    refine ⟨_, ?_, inside, ?_⟩
    · rw [fit, some, if_neg Bool.false_ne_true, if_neg (not_lt.mpr within), lowest, if_neg room]
      dsimp only
      rw [if_neg (not_lt.mpr count)]
      apply if_neg
      simp [inside]
    · apply abs_value_le_one few
      rw [exponent_toExponent, etiny, emin]
      omega

/-- What is left of a number that is brought to `p` digits. -/
structure Kept (p : ℕ) (d r : Decimal) : Prop where
  within : r.adjusted ≤ emax
  close : r.value = nearest p d.value ∨ |r.value| ≤ 1 ∧ |d.value| ≤ 1

/-- A number is refused exactly if rounding takes it out of reach. -/
theorem fit_cases {p : ℕ} (digits : 1 ≤ p) (d : Decimal) :
    (Clear (emax + 1 - p) d.value ∧ ∃ r, fit p d = .ok r ∧ Kept p d r) ∨
      (¬ Clear (emax + 1 - p) d.value ∧ fit p d = .error .overflow) := by
  cases zero : d.isZero with
  | true =>
    have nothing := (value_eq_zero_iff d).mpr zero
    have clear : Clear (emax + 1 - p) d.value := by
      apply clear_of_small (by omega)
      rw [nothing, abs_zero]
      exact zero_le_one
    refine .inl ⟨clear, _, fit_zero p d zero, ?_, .inl ?_⟩
    · have order : emin ≤ emax := by decide
      have bottom : etiny p = emin - (p - 1) := rfl
      calc ({ d with exponent := max (etiny p) (min d.exponent emax) } : Decimal).adjusted
          = max (etiny p) (min d.exponent emax) := adjusted_of_zero zero
        _ ≤ emax := by omega
    · rw [nothing, nearest_zero, value_eq_zero_iff]
      exact zero
  | false =>
    have some := value_ne_zero zero
    rcases lt_or_ge d.adjusted emin with low | least
    · obtain ⟨r, fitted, within, small⟩ := fit_small digits zero low
      have under := abs_value_le_one_of_adjusted (lt_trans low (by decide : emin < 0))
      exact .inl ⟨clear_of_small (by omega) under, r, fitted, within, .inr ⟨small, under⟩⟩
    · rw [← place_nearest_le_emax_iff digits some]
      rcases lt_or_ge emax d.adjusted with high | most
      · have grown := (place_le_place_nearest digits some).2
        rw [place_value zero] at grown
        refine .inr ⟨by omega, ?_⟩
        rw [fit, zero, if_neg Bool.false_ne_true, if_pos high]
      · obtain ⟨r, rounded, beyond, fitted⟩ := fit_eq digits zero least most
        rw [← rounded, place_value beyond]
        rcases lt_or_ge emax r.adjusted with high | inside
        · exact .inr ⟨by omega, by rw [fitted, if_pos high]⟩
        · exact .inl ⟨inside, r, by rw [fitted, if_neg (by omega)], inside, .inl rounded⟩

theorem within_of_fit {p : ℕ} (digits : 1 ≤ p) {d r : Decimal} (fitted : fit p d = .ok r) :
    r.adjusted ≤ emax := by
  rcases fit_cases digits d with ⟨_, m, done, kept⟩ | ⟨_, refused⟩
  · rw [fitted] at done
    cases done
    exact kept.within
  · rw [fitted] at refused
    cases refused

theorem clear_of_fits {p : ℕ} (digits : 1 ≤ p) {q : ℚ} (fits : Fits p q) :
    Clear (emax + 1 - p) q ↔ |q| < reach := by
  by_cases zero : q = 0
  · rw [zero]
    have small : |(0 : ℚ)| ≤ 1 := by
      rw [abs_zero]
      exact zero_le_one
    have clear : Clear (emax + 1 - p) 0 := clear_of_small (by omega) small
    exact iff_of_true clear clear.lt_reach
  · rw [← place_nearest_le_emax_iff digits zero, nearest_of_fits fits, reach, lt_zpow_iff zero,
      Int.lt_add_one_iff]

/-- What is brought to `p` digits is clear of what is out of reach. -/
theorem clear_of_fit {p : ℕ} (digits : 1 ≤ p) {d r : Decimal} (fitted : fit p d = .ok r) :
    Clear (emax + 1 - p) r.value := by
  rcases fit_cases digits d with ⟨_, m, done, kept⟩ | ⟨_, refused⟩
  · rw [fitted] at done
    cases done
    rcases kept.close with same | ⟨small, _⟩
    · by_cases zero : d.value = 0
      · apply clear_of_small (by omega)
        rw [same, zero, nearest_zero, abs_zero]
        exact zero_le_one
      · have fits := fits_nearest digits zero
        rw [← same] at fits
        exact (clear_of_fits digits fits).mpr (lt_reach_of_adjusted kept.within)
    · exact clear_of_small (by omega) small
  · rw [fitted] at refused
    cases refused

/-- With room for all digits only the range of places counts. -/
theorem fit_cases_of_room {p : ℕ} (digits : 1 ≤ p) {d : Decimal} (few : d.digitCount ≤ p) :
    (|d.value| < reach ∧ ∃ r, fit p d = .ok r ∧ r.adjusted ≤ emax ∧
        (r.value = d.value ∨ |r.value| ≤ 1 ∧ |d.value| ≤ 1)) ∨
      (¬ |d.value| < reach ∧ fit p d = .error .overflow) := by
  have cases := fit_cases digits d
  rw [clear_of_fits digits (fits_value few)] at cases
  rcases cases with ⟨below, r, fitted, within, close⟩ | refused
  · rw [nearest_of_fits (fits_value few)] at close
    exact .inl ⟨below, r, fitted, within, close⟩
  · exact .inr refused

end QuoteDesk.Decimal
