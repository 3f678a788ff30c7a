import QuoteDesk.Amount
import QuoteDesk.Proofs.Decimal.Reach

/-
Rounding to a place, and the texts that numbers are rounded for. As many digits are asked for as
the place takes, so that only the range of places can be left; a price is first looked at in the
usual number of digits, and is refused where these do not reach.
-/
namespace QuoteDesk.Decimal

/-! Digits up to a place -/

theorem toExponent_of_zero (mode : Rounding) (e : ℤ) {d : Decimal} (zero : d.isZero = true) :
    d.toExponent mode e = { d with exponent := e } := by
  have nothing : d.coefficient = 0 := beq_iff_eq.mp zero
  have dropped : ∀ k, mode.dropDigits d.negative 0 k = 0 := by
    intro k
    have exact := mode.divide_exact d.negative 0 (d := 10 ^ min k (Digits.count 0 + 1))
      (Nat.pow_pos (by decide))
    rwa [Nat.zero_mul] at exact
  unfold toExponent
  split
  · simp [nothing]
  · rw [nothing, dropped]

theorem value_toExponent_of_le (mode : Rounding) {d : Decimal} {e : ℤ} (low : e ≤ d.exponent) :
    (d.toExponent mode e).value = d.value := by
  have whole : (d.toExponent mode e).signed = d.scaledTo e := by
    rw [toExponent, if_pos low, scaledTo, signed, signed]
    cases d.isZero <;> cases d.negative <;> simp
  rw [value, whole, exponent_toExponent, value_scaledTo low]

namespace Rounds

variable {mode : Rounding} {whole : ℚ → ℤ}

theorem eq_of_near (rounds : Rounds mode whole) {x : ℚ} {n : ℤ} (close : |x - n| < 1 / 2) :
    whole x = n := by
  have near := rounds.near x
  have apart : |((whole x - n : ℤ) : ℚ)| < 1 := by
    push_cast
    rw [abs_lt] at close ⊢
    rw [abs_le] at near
    constructor <;> linarith
  have none : |whole x - n| < 1 := by exact_mod_cast apart
  rw [abs_lt] at none
  omega

theorem of_grid (rounds : Rounds mode whole) {e : ℤ} {q : ℚ} (grid : OnGrid e q) :
    whole (q / 10 ^ e) * (10 : ℚ) ^ e = q := by
  obtain ⟨i, rfl⟩ := grid
  have kept : whole (i : ℚ) = i := rounds.eq_of_near (by norm_num)
  rw [mul_div_cancel_right₀ _ (ten_zpow_pos e).ne', kept]

/-- A number all whose digits are far below the place comes to nothing there. -/
theorem coefficient_of_far (rounds : Rounds mode whole) {d : Decimal} {e : ℤ}
    (far : d.exponent + d.digitCount + 1 < e) : (d.toExponent mode e).coefficient = 0 := by
  have above : ¬ e ≤ d.exponent := by omega
  have steps : min (e - d.exponent).toNat (Digits.count d.coefficient + 1) =
      Digits.count d.coefficient + 1 := by
    rw [digitCount] at far
    omega
  have below : (d.coefficient : ℚ) < 10 ^ Digits.count d.coefficient := by
    exact_mod_cast Digits.lt_pow_count d.coefficient
  have unit : (0 : ℚ) < 10 ^ (Digits.count d.coefficient + 1) := by positivity
  have small : |(d.coefficient / 10 ^ (Digits.count d.coefficient + 1) : ℚ) - (0 : ℤ)| < 1 / 2 := by
    rw [Int.cast_zero, sub_zero, abs_of_nonneg (by positivity), div_lt_iff₀ unit, pow_succ]
    linarith
  have divided := rounds.divide d.negative d.coefficient
    (d := 10 ^ (Digits.count d.coefficient + 1)) (by positivity)
  push_cast at divided
  rw [rounds.eq_of_near small] at divided
  simp only [toExponent, if_neg above, Rounding.dropDigits, steps]
  exact_mod_cast divided

end Rounds

theorem abs_value_lt_of_far {d : Decimal} {e : ℤ} (far : d.exponent + d.digitCount + 1 < e) :
    |d.value| < 10 ^ e / 2 := by
  have tenfold := ten_zpow_pred e
  have small : (10 : ℚ) ^ (d.adjusted + 1) ≤ 10 ^ (e - 1) := by
    apply zpow_le_zpow_right₀ (by norm_num)
    rw [adjusted]
    omega
  have unit := ten_zpow_pos (e - 1)
  have below := abs_value_lt d
  linarith

/-- Wherever the place is, the number goes to a nearest multiple. -/
theorem Rounds.value_toExponent {mode : Rounding} {whole : ℚ → ℤ} (rounds : Rounds mode whole)
    (d : Decimal) (e : ℤ) :
    (d.toExponent mode e).value = whole (d.value / 10 ^ e) * 10 ^ e := by
  rcases le_or_gt e d.exponent with low | above
  · rw [value_toExponent_of_le mode low, rounds.of_grid ((onGrid_value d).mono low)]
  · rcases le_or_gt e (d.exponent + d.digitCount + 1) with near | far
    · exact Decimal.value_toExponent rounds above near
    · have nothing : (d.toExponent mode e).value = 0 := by
        rw [value_eq_zero_iff, isZero, rounds.coefficient_of_far far]
        rfl
      have none : whole (d.value / 10 ^ e) = 0 := by
        apply rounds.eq_of_near
        rw [Int.cast_zero, sub_zero, abs_div, abs_of_pos (ten_zpow_pos e),
          div_lt_iff₀ (ten_zpow_pos e)]
        linarith [abs_value_lt_of_far far]
      rw [nothing, none, Int.cast_zero, zero_mul]

/-- A number rounded to places after the point. -/
def toPlaces (whole : ℚ → ℤ) (places : ℕ) (q : ℚ) : ℚ := whole (q * 10 ^ places) / 10 ^ places

theorem Rounds.value_toPlaces {mode : Rounding} {whole : ℚ → ℤ} (rounds : Rounds mode whole)
    (d : Decimal) (places : ℕ) :
    (d.toExponent mode (-places)).value = toPlaces whole places d.value := by
  rw [rounds.value_toExponent, toPlaces, zpow_neg, zpow_natCast, div_inv_eq_mul, ← div_eq_mul_inv]

theorem digitCount_toExponent_le (mode : Rounding) {d : Decimal} {e : ℤ} {p : ℕ} (digits : 1 ≤ p)
    (room : d.adjusted - e + 2 ≤ p) : (d.toExponent mode e).digitCount ≤ p := by
  rw [adjusted] at room
  apply Digits.count_le_of_lt_pow digits
  rcases le_or_gt e d.exponent with low | above
  · have below := Digits.lt_pow_count d.coefficient
    have size : (d.toExponent mode e).coefficient ≤
        d.coefficient * 10 ^ (d.exponent - e).toNat := by
      rw [toExponent, if_pos low]
      dsimp only
      split <;> omega
    calc (d.toExponent mode e).coefficient
        ≤ d.coefficient * 10 ^ (d.exponent - e).toNat := size
      _ < 10 ^ Digits.count d.coefficient * 10 ^ (d.exponent - e).toNat :=
        Nat.mul_lt_mul_of_pos_right below (Nat.pow_pos (by decide))
      _ = 10 ^ (Digits.count d.coefficient + (d.exponent - e).toNat) := (Nat.pow_add ..).symm
      _ ≤ 10 ^ p := by
        apply Nat.pow_le_pow_right (by decide)
        rw [digitCount] at room
        omega
  · have few : (d.toExponent mode e).coefficient ≤ 10 ^ (p - 1) := by
      apply coefficient_toExponent_le mode above
      omega
    exact Nat.lt_of_le_of_lt few (Nat.pow_lt_pow_right (by decide) (by omega))

/-- No way of rounding adds more than a unit. -/
theorem abs_value_toExponent_le (mode : Rounding) (d : Decimal) (e : ℤ) :
    |(d.toExponent mode e).value| ≤ |d.value| + 10 ^ e := by
  have unit := ten_zpow_pos e
  rcases le_or_gt e d.exponent with low | above
  · rw [value_toExponent_of_le mode low]
    linarith
  · have power := ten_zpow_split above.le
    have raised : (d.toExponent mode e).coefficient ≤
        d.coefficient / 10 ^ (e - d.exponent).toNat + 1 := by
      simp only [toExponent, if_neg (not_le.mpr above), Rounding.dropDigits]
      refine le_trans (Rounding.divide_le _ _ _ _) (Nat.succ_le_succ ?_)
      rcases le_or_gt (e - d.exponent).toNat (Digits.count d.coefficient + 1) with near | far
      · rw [Nat.min_eq_left near]
      · -- the places that are passed over hold no digit
        have below := Digits.lt_pow_count d.coefficient
        rw [Nat.min_eq_right far.le, Nat.div_eq_of_lt]
        · exact Nat.zero_le _
        · rw [Nat.pow_succ]
          omega
    have raised : ((d.toExponent mode e).coefficient : ℚ) ≤
        (d.coefficient / 10 ^ (e - d.exponent).toNat : ℕ) + 1 := by exact_mod_cast raised
    have cut : ((d.coefficient / 10 ^ (e - d.exponent).toNat : ℕ) : ℚ) *
        10 ^ (e - d.exponent).toNat ≤ d.coefficient := by
      exact_mod_cast Nat.div_mul_le_self _ _
    calc |(d.toExponent mode e).value| = (d.toExponent mode e).coefficient * 10 ^ e := by
          rw [abs_value, exponent_toExponent]
      _ ≤ ((d.coefficient / 10 ^ (e - d.exponent).toNat : ℕ) + 1) * 10 ^ e :=
          mul_le_mul_of_nonneg_right raised unit.le
      _ = (d.coefficient / 10 ^ (e - d.exponent).toNat : ℕ) * 10 ^ (e - d.exponent).toNat *
            10 ^ d.exponent + 10 ^ e := by
          rw [add_one_mul, power, mul_assoc]
      _ ≤ d.coefficient * 10 ^ d.exponent + 10 ^ e := by
          have scaled := mul_le_mul_of_nonneg_right cut (ten_zpow_pos d.exponent).le
          linarith
      _ = |d.value| + 10 ^ e := by rw [abs_value]

theorem etiny_le {p n : ℕ} (digits : 1 ≤ p) (few : (n : ℤ) ≤ emax) : etiny p ≤ -n := by
  have bottom : etiny p = emin - (p - 1) := rfl
  have mirrored : emin = -emax := by decide
  omega

theorem quantize_of_zero (mode : Rounding) {d : Decimal} {e : ℤ} {p : ℕ} (zero : d.isZero = true)
    (high : e ≤ emax) (low : etiny p ≤ e) : quantize p mode e d = .ok { d with exponent := e } := by
  have inside : ¬ (emax < e ∨ e < etiny p) := by omega
  unfold quantize
  simp only [Bool.or_eq_true, decide_eq_true_eq]
  rw [if_neg inside, if_pos zero]

/-- With room for the digits before the place, only the range of places counts. -/
theorem quantize_eq (mode : Rounding) {d : Decimal} {e : ℤ} {p : ℕ} (digits : 1 ≤ p)
    (within : d.adjusted ≤ emax) (high : e ≤ emax) (low : etiny p ≤ e)
    (room : d.adjusted - e + 2 ≤ p) :
    quantize p mode e d = if emax < (d.toExponent mode e).adjusted then .error .invalidOperation
      else .ok (d.toExponent mode e) := by
  cases zero : d.isZero with
  | true =>
    have leading : ({ d with exponent := e } : Decimal).adjusted = e := adjusted_of_zero zero
    rw [quantize_of_zero mode zero high low, toExponent_of_zero mode e zero, leading,
      if_neg (not_lt.mpr high)]
  | false =>
    have count := digitCount_toExponent_le mode digits room
    have inside : ¬ (emax < e ∨ e < etiny p) := by omega
    have wide : ¬ (emax < d.adjusted ∨ (p : ℤ) < d.adjusted - e + 1) := by omega
    unfold quantize
    simp only [Bool.or_eq_true, decide_eq_true_eq]
    rw [if_neg inside, zero, if_neg Bool.false_ne_true, if_neg wide]
    simp only [not_lt.mpr count, false_or]

theorem unitExponent_eq {p n : ℕ} (digits : 1 ≤ p) (few : (n : ℤ) ≤ emax) :
    unitExponent p (-n) = .ok (-n) := by
  have bottom := etiny_le digits few
  have one : Digits.count 1 = 1 := by
    have most := Digits.count_le_of_lt_pow (n := 1) (k := 1) (by decide) (by decide)
    have least : 1 ≤ Digits.count 1 := Nat.succ_pos _
    omega
  have leading : (⟨false, 1, -n⟩ : Decimal).adjusted = -n := by
    simp only [adjusted, digitCount, one]
    omega
  have some : (⟨false, 1, -n⟩ : Decimal).isZero = false := rfl
  have lowest : max (-(n : ℤ) - (p - 1)) (etiny p) ≤ -n := by omega
  have order : 0 ≤ emax := by decide
  have fitted : fit p ⟨false, 1, -n⟩ = .ok ⟨false, 1, -n⟩ := by
    rw [fit, some, if_neg Bool.false_ne_true, leading, if_neg (by omega), if_pos lowest]
  have small : ¬ ((-(n : ℤ)).natAbs : ℤ) > 2 * (emax + p) := by omega
  rw [unitExponent, if_neg small, fitted]
  rfl

theorem roundTo_of_room (mode : Rounding) {places : ℕ} (few : (places : ℤ) ≤ emax) {d : Decimal}
    (room : roomFor places d.adjusted ≤ widestPrecision) :
    roundTo places mode d =
      .ofArithmetic (quantize (roomFor places d.adjusted) mode (-places) d) := by
  have digits : 1 ≤ roomFor places d.adjusted :=
    le_trans (by decide) (Nat.le_max_left precision _)
  unfold roundTo
  dsimp only
  rw [if_neg (not_lt.mpr room), unitExponent_eq digits few]
  rfl

/-- Rounding to places after the point asks for the digits that it takes. -/
theorem roundTo_eq (mode : Rounding) {places : ℕ} (few : (places : ℤ) ≤ emax) {d : Decimal}
    (within : d.adjusted ≤ emax) :
    roundTo places mode d = if emax < (d.toExponent mode (-places)).adjusted then
      .error (.defect (.arithmetic .invalidOperation)) else .ok (d.toExponent mode (-places)) := by
  have order : 0 ≤ emax := by decide
  have digits : 1 ≤ roomFor places d.adjusted :=
    le_trans (by decide) (Nat.le_max_left precision _)
  have room : d.adjusted - (-places) + 2 ≤ roomFor places d.adjusted := by
    rw [roomFor]
    omega
  have most : roomFor places d.adjusted ≤ widestPrecision := by
    have limit : 2 * emax + 2 ≤ widestPrecision := by decide
    have least : precision ≤ widestPrecision := by decide
    rw [roomFor]
    omega
  rw [roundTo_of_room mode few most,
    quantize_eq mode digits within (by omega) (etiny_le digits few) room]
  split <;> rfl

/-- A zero is refused if more digits were to stand before its place than can be asked for. -/
theorem roundTo_of_zero (mode : Rounding) {places : ℕ} (few : (places : ℤ) ≤ emax) {d : Decimal}
    (zero : d.isZero = true) :
    roundTo places mode d = if widestPrecision < roomFor places d.exponent then
      .error (.defect .badValue) else .ok { d with exponent := -places } := by
  have order : 0 ≤ emax := by decide
  have digits : 1 ≤ roomFor places d.exponent :=
    le_trans (by decide) (Nat.le_max_left precision _)
  have leading := adjusted_of_zero zero
  split
  · rename_i beyond
    rw [roundTo, leading]
    exact if_pos beyond
  · rename_i room
    rw [← leading] at room digits
    rw [roundTo_of_room mode few (not_lt.mp room),
      quantize_of_zero mode zero (by omega) (etiny_le digits few)]
    rfl

/-- Halves to even, a number is refused exactly if its rounding is out of reach. -/
theorem roundTo_halfEven_cases {places : ℕ} (few : (places : ℤ) ≤ emax) {d : Decimal}
    (within : d.adjusted ≤ emax) :
    (Clear (-places) d.value ∧
        roundTo places .halfEven d = .ok (d.toExponent .halfEven (-places)) ∧
        (d.toExponent .halfEven (-places)).adjusted ≤ emax) ∨
      (¬ Clear (-places) d.value ∧
        roundTo places .halfEven d = .error (.defect (.arithmetic .invalidOperation))) := by
  have order : 0 ≤ emax := by decide
  have reached : (d.toExponent .halfEven (-places)).adjusted ≤ emax ↔ Clear (-places) d.value := by
    rw [adjusted_le_iff, rounds_halfEven.value_toExponent]
    · exact abs_rounded_lt_iff (by omega) d.value
    · intro _
      rw [exponent_toExponent]
      omega
  rw [roundTo_eq .halfEven few within, ← reached]
  rcases lt_or_ge emax (d.toExponent .halfEven (-places)).adjusted with high | inside
  · exact .inr ⟨not_le.mpr high, if_pos high⟩
  · exact .inl ⟨inside, if_neg (not_lt.mpr inside), inside⟩

/-! Texts -/

theorem abs_value_unsigned (d : Decimal) :
    |({ d with negative := false } : Decimal).value| = |d.value| := by
  rw [abs_value, abs_value]

theorem shownPlaces_cases (d : Decimal) :
    (Clear (emax + 1 - precision) d.value ∧ ∃ places ≤ 2, d.shownPlaces = .ok places) ∨
      (¬ Clear (emax + 1 - precision) d.value ∧ d.shownPlaces = .error .overflow) := by
  have cases := fit_cases (p := precision) (by decide) { d with negative := false }
  rw [Clear, abs_value_unsigned] at cases
  unfold shownPlaces Decimal.abs
  rcases cases with ⟨clear, m, fitted, _⟩ | ⟨beyond, refused⟩
  · refine .inl ⟨clear, ?_⟩
    rw [fitted]
    simp only [bind, Except.bind]
    split
    · exact ⟨2, le_rfl, rfl⟩
    · split
      · exact ⟨1, by decide, rfl⟩
      · exact ⟨0, by decide, rfl⟩
  · refine .inr ⟨beyond, ?_⟩
    rw [refused]
    rfl

theorem shownPlaces_of_zero {d : Decimal} (zero : d.isZero = true) : d.shownPlaces = .ok 2 := by
  have unsigned : ({ d with negative := false } : Decimal).isZero = true := zero
  have fitted := fit_zero precision { d with negative := false } unsigned
  have nearer : ∀ e, magnitudeLt ⟨false, d.coefficient, e⟩ (ofNat 100) = true := by
    intro e
    have nothing : (⟨false, d.coefficient, e⟩ : Decimal).isZero = true := zero
    have hundred : (ofNat 100).isZero = false := rfl
    rw [magnitudeLt, hundred, if_neg Bool.false_ne_true, if_pos nothing]
  rw [shownPlaces, Decimal.abs, fitted]
  simp only [bind, Except.bind, nearer, ↓reduceIte]
  rfl

/-- Of the zeros only those are refused whose exponents are farther out than any number's. -/
theorem marketText_of_zero {d : Decimal} (zero : d.isZero = true) :
    (d.exponent + 4 ≤ widestPrecision ∧ ∃ s, d.marketText = .ok s) ∨
      ((widestPrecision : ℤ) < d.exponent + 4 ∧ d.marketText = .error (.defect .badValue)) := by
  have least : precision ≤ widestPrecision := by decide
  have rounded : roundTo (2 : ℕ) .halfUp d = _ := roundTo_of_zero .halfUp (by decide) zero
  have room : (roomFor (2 : ℕ) d.exponent : ℤ) = max (precision : ℤ) (d.exponent + 4) := by
    have order : (0 : ℤ) ≤ precision := by decide
    rw [roomFor]
    omega
  rw [marketText, shownPlaces_of_zero zero]
  simp only [Outcome.ofArithmetic, bind, Except.bind, rounded]
  rcases lt_or_ge (widestPrecision : ℤ) (d.exponent + 4) with beyond | within
  · rw [if_pos (by omega)]
    exact .inr ⟨beyond, rfl⟩
  · rw [if_neg (by omega)]
    exact .inl ⟨within, _, rfl⟩

/-- Half a unit of the last digit that is kept is more than is added by rounding to a place. -/
theorem adjusted_toExponent_le (mode : Rounding) {d : Decimal}
    (clear : Clear (emax + 1 - precision) d.value) (places : ℕ) :
    (d.toExponent mode (-places)).adjusted ≤ emax := by
  have order : 0 ≤ emax := by decide
  rw [adjusted_le_iff]
  · have added := abs_value_toExponent_le mode d (-places)
    have part : (10 : ℚ) ^ (-places : ℤ) ≤ 1 := zpow_le_one_of_nonpos₀ (by norm_num) (by omega)
    have unit : (10 : ℚ) ^ (1 : ℤ) ≤ 10 ^ (emax + 1 - precision) :=
      zpow_le_zpow_right₀ (by norm_num) (by decide)
    rw [zpow_one] at unit
    rw [Clear] at clear
    linarith
  · intro _
    rw [exponent_toExponent]
    omega

/-- A zero without its sign, and any other number as it is. -/
def plainZero (d : Decimal) : Decimal := if d.isZero then { d with negative := false } else d

/-- A price that has places to be shown is rounded to them. -/
theorem marketText_of_places {d : Decimal} {places : ℕ} (shown : d.shownPlaces = .ok places)
    (few : (places : ℤ) ≤ emax) (within : d.adjusted ≤ emax)
    (clear : Clear (emax + 1 - precision) d.value) :
    d.marketText = .ok (d.toExponent .halfUp (-places)).plainZero.toFixed := by
  have rounded := roundTo_eq .halfUp few within
  rw [if_neg (not_lt.mpr (adjusted_toExponent_le .halfUp clear places))] at rounded
  rw [marketText, shown]
  simp only [Outcome.ofArithmetic, bind, Except.bind, rounded]
  rfl

/-- A price is refused exactly if its rounding to the usual digits is out of reach. -/
theorem marketText_of_some {d : Decimal} (some : d.isZero = false) :
    (Clear (emax + 1 - precision) d.value ∧ ∃ s, d.marketText = .ok s) ∨
      (¬ Clear (emax + 1 - precision) d.value ∧
        d.marketText = .error (.defect (.arithmetic .overflow))) := by
  rcases shownPlaces_cases d with ⟨clear, places, few, shown⟩ | ⟨beyond, refused⟩
  · have within : d.adjusted ≤ emax := by
      rw [adjusted_le_iff]
      · exact clear.lt_reach
      · intro zero
        rw [some] at zero
        cases zero
    have order : 2 ≤ emax := by decide
    exact .inl ⟨clear, _, marketText_of_places shown (by omega) within clear⟩
  · refine .inr ⟨beyond, ?_⟩
    rw [marketText, refused]
    rfl

theorem marketText_cases (d : Decimal) :
    ((if d.isZero then d.exponent + 4 ≤ widestPrecision
        else Clear (emax + 1 - precision) d.value) ∧ ∃ s, d.marketText = .ok s) ∨
      (¬ (if d.isZero then d.exponent + 4 ≤ widestPrecision
          else Clear (emax + 1 - precision) d.value) ∧
        (d.marketText = .error (.defect (.arithmetic .overflow)) ∨
          d.marketText = .error (.defect .badValue))) := by
  cases zero : d.isZero with
  | true =>
    rw [if_pos rfl]
    rcases marketText_of_zero zero with told | ⟨beyond, refused⟩
    · exact .inl told
    · exact .inr ⟨not_le.mpr beyond, .inr refused⟩
  | false =>
    rw [if_neg Bool.false_ne_true]
    rcases marketText_of_some zero with told | ⟨near, refused⟩
    · exact .inl told
    · exact .inr ⟨near, .inl refused⟩

end QuoteDesk.Decimal
