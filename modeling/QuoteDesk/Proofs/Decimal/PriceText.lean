import QuoteDesk.Proofs.Decimal.Shown

/-
Texts of prices and totals. A number is shown with places as its size asks for, halves rounded away
from zero. Its size is looked at in the usual number of digits, so a longer number that lies just
below one hundred or one thousand already counts as that large, and is shown with a place less.
-/
namespace QuoteDesk.Decimal

/-! Halves away from zero -/

/-- The nearest whole number, of two equally near ones the one farther from zero. -/
def wholeAway (x : ℚ) : ℤ := if 0 ≤ x then ⌊x + 1 / 2⌋ else ⌈x - 1 / 2⌉

theorem wholeAway_neg (x : ℚ) : wholeAway (-x) = -wholeAway x := by
  unfold wholeAway
  rcases lt_trichotomy x 0 with negative | rfl | positive
  · rw [if_pos (by linarith), if_neg (not_le.mpr negative), ← Int.floor_neg]
    congr 1
    ring
  · norm_num
  · rw [if_neg (by linarith), if_pos positive.le, ← Int.ceil_neg]
    congr 1
    ring

theorem near_wholeAway (x : ℚ) : |x - wholeAway x| ≤ 1 / 2 := by
  unfold wholeAway
  rw [abs_le]
  split
  · have low := Int.floor_le (x + 1 / 2)
    have high := Int.lt_floor_add_one (x + 1 / 2)
    constructor <;> linarith
  · have low := Int.le_ceil (x - 1 / 2)
    have high := Int.ceil_lt_add_one (x - 1 / 2)
    constructor <;> linarith

theorem divide_wholeAway (negative : Bool) (n : ℕ) {d : ℕ} (some : 0 < d) :
    (Rounding.halfUp.divide negative n d : ℤ) = wholeAway (n / d : ℚ) := by
  have beyond : (0 : ℚ) < d := by exact_mod_cast some
  have least : (0 : ℚ) ≤ n / d := by positivity
  obtain ⟨parts, above, below⟩ := div_eq_add_rest n some
  have half : d ≤ 2 * (n % d) ↔ (1 / 2 : ℚ) ≤ (n % d : ℕ) / d := by
    rw [le_div_iff₀ beyond, one_div_mul_eq_div, div_le_iff₀ (by norm_num)]
    exact_mod_cast (by rw [Nat.mul_comm] : d ≤ 2 * (n % d) ↔ d ≤ n % d * 2)
  rw [wholeAway, if_pos least, parts, eq_comm, Int.floor_eq_iff]
  unfold Rounding.divide Rounding.raises
  simp only [decide_eq_true_eq, half]
  generalize n / d = q
  split
  · push_cast
    constructor <;> linarith
  · push_cast
    constructor <;> linarith

theorem rounds_halfUp : Rounds .halfUp wholeAway := ⟨divide_wholeAway, wholeAway_neg, near_wholeAway⟩

/-! Sizes -/

/-- The size of a number, counted in units of a lower place. -/
theorem abs_at {d : Decimal} {e : ℤ} (low : e ≤ d.exponent) :
    |d.value| = (d.coefficient * 10 ^ (d.exponent - e).toNat : ℕ) * 10 ^ e := by
  rw [abs_value, ten_zpow_split low]
  push_cast
  ring

/-- Comparing forms compares what they stand for. -/
theorem magnitudeLt_iff (a b : Decimal) : magnitudeLt a b = true ↔ |a.value| < |b.value| := by
  cases zero : b.isZero with
  | true =>
    rw [(value_eq_zero_iff b).mpr zero, abs_zero, magnitudeLt, if_pos zero]
    exact iff_of_false Bool.false_ne_true (not_lt.mpr (abs_nonneg _))
  | false =>
    have some := value_ne_zero zero
    cases zero' : a.isZero with
    | true =>
      rw [(value_eq_zero_iff a).mpr zero', abs_zero, magnitudeLt, zero, if_neg Bool.false_ne_true,
        if_pos zero']
      exact iff_of_true rfl (abs_pos.mpr some)
    | false =>
      have some' := value_ne_zero zero'
      have place := place_value zero
      have place' := place_value zero'
      rw [magnitudeLt, zero, zero', if_neg Bool.false_ne_true, if_neg Bool.false_ne_true]
      split
      · rename_i apart
        rw [decide_eq_true_eq]
        have reached : 10 ^ a.adjusted ≤ |a.value| := (zpow_le_iff some').mpr place'.ge
        have reached' : 10 ^ b.adjusted ≤ |b.value| := (zpow_le_iff some).mpr place.ge
        constructor
        · intro less
          have room : (10 : ℚ) ^ (a.adjusted + 1) ≤ 10 ^ b.adjusted :=
            zpow_le_zpow_right₀ (by norm_num) less
          exact (abs_value_lt a).trans_le (room.trans reached')
        · intro less
          by_contra more
          have room : (10 : ℚ) ^ (b.adjusted + 1) ≤ 10 ^ a.adjusted :=
            zpow_le_zpow_right₀ (by norm_num) (by omega)
          exact lt_asymm less ((abs_value_lt b).trans_le (room.trans reached))
      · dsimp only
        rw [decide_eq_true_eq, abs_at (min_le_left a.exponent b.exponent),
          abs_at (min_le_right a.exponent b.exponent), mul_lt_mul_iff_left₀ (ten_zpow_pos _)]
        exact Nat.cast_lt.symm

theorem abs_nearest_lt_iff {p : ℕ} (digits : 1 ≤ p) {q : ℚ} (some : q ≠ 0) (k : ℤ) :
    |nearest p q| < 10 ^ k ↔ |q| + 10 ^ (k - p) / 2 < 10 ^ k := by
  have reached := place_nearest_le_iff digits some (k - 1)
  rw [sub_add_cancel] at reached
  rw [lt_zpow_iff (place_le_place_nearest digits some).1, ← reached]
  omega

/-- Half a unit of the last of the usual digits, just below a power of ten. -/
def slack (k : ℤ) : ℚ := 10 ^ (k - precision) / 2

theorem slack_bounds {k : ℤ} (high : k ≤ precision) : 0 < slack k ∧ slack k ≤ 1 / 2 := by
  have unit := ten_zpow_pos (k - precision)
  have whole : (10 : ℚ) ^ (k - precision) ≤ 1 := zpow_le_one_of_nonpos₀ (by norm_num) (by omega)
  unfold slack
  constructor <;> linarith

/-- In the usual digits a number is below a power of ten exactly if it is so by more than the
slack. -/
theorem Kept.lt_iff {d m : Decimal} (kept : Kept precision d m) {k : ℤ} (low : 1 ≤ k)
    (high : k ≤ precision) : |m.value| < 10 ^ k ↔ |d.value| < 10 ^ k - slack k := by
  obtain ⟨_, narrow⟩ := slack_bounds high
  have ten : (10 : ℚ) ^ (1 : ℤ) ≤ 10 ^ k := zpow_le_zpow_right₀ (by norm_num) low
  rw [zpow_one] at ten
  rcases kept.close with same | ⟨small, small'⟩
  · by_cases zero : d.value = 0
    · rw [same, zero, nearest_zero, abs_zero]
      constructor <;> intro _ <;> linarith
    · rw [same, abs_nearest_lt_iff (by decide) zero, lt_sub_iff_add_lt, slack]
  · constructor <;> intro _ <;> linarith

/-- Two places below a first bound, one below a second, and none from there on. -/
def placesAt (hundred thousand q : ℚ) : ℕ :=
  if |q| < hundred then 2 else if |q| < thousand then 1 else 0

theorem placesAt_le (hundred thousand q : ℚ) : placesAt hundred thousand q ≤ 2 := by
  unfold placesAt
  split
  · exact le_rfl
  · split <;> decide

theorem lt_ofNat_iff (m : Decimal) (n : ℕ) : magnitudeLt m (ofNat n) = true ↔ |m.value| < n := by
  rw [magnitudeLt_iff, abs_value (ofNat n)]
  simp [ofNat]

/-- The places are those of the number as far as the usual digits tell it. -/
theorem shownPlaces_eq {d : Decimal} (clear : Clear (emax + 1 - precision) d.value) :
    d.shownPlaces = .ok (placesAt (100 - slack 2) (1000 - slack 3) d.value) := by
  have cases := fit_cases (p := precision) (by decide) { d with negative := false }
  rw [Clear, abs_value_unsigned] at cases
  rcases cases with ⟨_, m, fitted, kept⟩ | ⟨beyond, _⟩
  · have hundred := kept.lt_iff (k := 2) (by decide) (by decide)
    have thousand := kept.lt_iff (k := 3) (by decide) (by decide)
    rw [abs_value_unsigned] at hundred thousand
    norm_num at hundred thousand
    have first : magnitudeLt m (ofNat 100) = true ↔ |d.value| < 100 - slack 2 :=
      (lt_ofNat_iff m 100).trans (by exact_mod_cast hundred)
    have second : magnitudeLt m (ofNat 1000) = true ↔ |d.value| < 1000 - slack 3 :=
      (lt_ofNat_iff m 1000).trans (by exact_mod_cast thousand)
    rw [shownPlaces, Decimal.abs, fitted]
    simp only [bind, Except.bind, first, second, placesAt]
    split
    · rfl
    · split <;> rfl
  · exact absurd clear beyond

/-! Texts -/

theorem exponent_plainZero (d : Decimal) : d.plainZero.exponent = d.exponent := by
  unfold plainZero
  split <;> rfl

theorem coefficient_plainZero (d : Decimal) : d.plainZero.coefficient = d.coefficient := by
  unfold plainZero
  split <;> rfl

theorem isZero_plainZero (d : Decimal) : d.plainZero.isZero = d.isZero := by
  rw [isZero, isZero, coefficient_plainZero]

theorem value_plainZero (d : Decimal) : d.plainZero.value = d.value := by
  cases zero : d.isZero with
  | true =>
    rw [(value_eq_zero_iff d).mpr zero, value_eq_zero_iff, isZero_plainZero, zero]
  | false => rw [plainZero, zero, if_neg Bool.false_ne_true]

theorem unsigned_plainZero {d : Decimal} (zero : d.plainZero.isZero = true) :
    d.plainZero.negative = false := by
  rw [isZero_plainZero] at zero
  rw [plainZero, if_pos zero]

/-- The text of a price is that of its rounding, to the places that the usual digits tell. -/
theorem marketText_eq {d : Decimal} (within : d.adjusted ≤ emax)
    (clear : Clear (emax + 1 - precision) d.value) :
    d.marketText = .ok (d.toExponent .halfUp
      (-(placesAt (100 - slack 2) (1000 - slack 3) d.value : ℤ))).plainZero.toFixed := by
  have most := placesAt_le (100 - slack 2) (1000 - slack 3) d.value
  have order : 2 ≤ emax := by decide
  exact marketText_of_places (shownPlaces_eq clear) (by omega) within clear

/-- Just below one hundred and one thousand the usual digits tell more than the number is. -/
theorem placesAt_eq_iff (q : ℚ) :
    placesAt (100 - slack 2) (1000 - slack 3) q = placesAt 100 1000 q ↔
      ¬ (100 - slack 2 ≤ |q| ∧ |q| < 100) ∧ ¬ (1000 - slack 3 ≤ |q| ∧ |q| < 1000) := by
  obtain ⟨beyond, narrow⟩ := slack_bounds (k := 2) (by decide)
  obtain ⟨beyond', narrow'⟩ := slack_bounds (k := 3) (by decide)
  generalize slack 2 = s at beyond narrow ⊢
  generalize slack 3 = t at beyond' narrow' ⊢
  unfold placesAt
  rcases lt_or_ge |q| (100 - s) with low | high
  · rw [if_pos low, if_pos (by linarith)]
    exact iff_of_true rfl ⟨fun band => by linarith [band.1], fun band => by linarith [band.1]⟩
  rw [if_neg (not_lt.mpr high)]
  rcases lt_or_ge |q| 100 with below | least
  · rw [if_pos (by linarith), if_pos below]
    exact iff_of_false (by decide) fun outside => outside.1 ⟨high, below⟩
  rw [if_neg (not_lt.mpr least)]
  rcases lt_or_ge |q| (1000 - t) with low | high
  · rw [if_pos low, if_pos (by linarith)]
    exact iff_of_true rfl ⟨fun band => by linarith [band.2], fun band => by linarith [band.1]⟩
  rw [if_neg (not_lt.mpr high)]
  rcases lt_or_ge |q| 1000 with below | least
  · rw [if_pos below]
    exact iff_of_false (by decide) fun outside => outside.2 ⟨high, below⟩
  · rw [if_neg (not_lt.mpr least)]
    exact iff_of_true rfl ⟨fun band => by linarith [band.2], fun band => by linarith [band.2]⟩

theorem shows_marketText {d : Decimal} (within : d.adjusted < emax) :
    ∃ s, d.marketText = .ok s ∧
      Shows s (placesAt (100 - slack 2) (1000 - slack 3) d.value)
        (toPlaces wholeAway (placesAt (100 - slack 2) (1000 - slack 3) d.value) d.value) := by
  refine ⟨_, marketText_eq within.le (clear_of_adjusted within (by decide)), ?_⟩
  generalize placesAt (100 - slack 2) (1000 - slack 3) d.value = places
  have exponent : (d.toExponent .halfUp (-places)).plainZero.exponent = -places := by
    rw [exponent_plainZero, exponent_toExponent]
  have low : (-places : ℤ) ≤ 0 := by omega
  have shown := shows_toFixed (d := (d.toExponent .halfUp (-places)).plainZero)
    (fun _ => exponent.trans_le low) unsigned_plainZero
  rw [exponent, value_plainZero, rounds_halfUp.value_toPlaces, neg_neg, Int.toNat_natCast] at shown
  exact shown

/-- A price in the range of places has a text in plain digits, of the price rounded to its places,
halves away from zero. These are two below one hundred, one below one thousand and none from there
on, and exactly the prices that lie below one of the bounds by half a unit of the last of the usual
digits or less have the places of those from the bound on. -/
theorem marketText_shows {d : Decimal} (within : d.adjusted < emax) :
    (∃ s, d.marketText = .ok s ∧
      Shows s (placesAt (100 - slack 2) (1000 - slack 3) d.value)
        (toPlaces wholeAway (placesAt (100 - slack 2) (1000 - slack 3) d.value) d.value)) ∧
    (placesAt (100 - slack 2) (1000 - slack 3) d.value = placesAt 100 1000 d.value ↔
      ¬ (100 - slack 2 ≤ |d.value| ∧ |d.value| < 100) ∧
        ¬ (1000 - slack 3 ≤ |d.value| ∧ |d.value| < 1000)) :=
  ⟨shows_marketText within, placesAt_eq_iff d.value⟩

/-- A price below one hundred that is shown with one place. -/
theorem hundred_less_a_bit :
    (⟨false, 99999999999999999999999999999999, -30⟩ : Decimal).adjusted < emax ∧
      |(⟨false, 99999999999999999999999999999999, -30⟩ : Decimal).value| < 100 ∧
      ∃ s, (⟨false, 99999999999999999999999999999999, -30⟩ : Decimal).marketText = .ok s ∧
        Shows s 1 100 := by
  have within : (⟨false, 99999999999999999999999999999999, -30⟩ : Decimal).adjusted < emax := by
    decide +kernel
  have value : (⟨false, 99999999999999999999999999999999, -30⟩ : Decimal).value =
      99999999999999999999999999999999 / 10 ^ 30 := by
    norm_num [value, signed]
  have places : placesAt (100 - slack 2) (1000 - slack 3)
      (99999999999999999999999999999999 / 10 ^ 30) = 1 := by
    norm_num [placesAt, slack, precision]
  have rounded : toPlaces wholeAway 1 (99999999999999999999999999999999 / 10 ^ 30) = 100 := by
    norm_num [toPlaces, wholeAway]
  obtain ⟨s, told, shown⟩ := (marketText_shows within).1
  rw [value, places, rounded] at shown
  refine ⟨within, ?_, s, told, shown⟩
  rw [value]
  norm_num

end QuoteDesk.Decimal
