import QuoteDesk.Proofs.Decimal.RoundedOnce

/-
The order of prices that are shown. Prices have fewer places the larger they are, but the bounds
between them are numbers with any places, so a price just below a bound is shown at the bound at
most and one from there on at the bound at least. The sign of a price makes no difference to its
digits.
-/
namespace QuoteDesk

namespace Decimal

/-! Rounding keeps the order -/

section Roundings

variable {mode : Rounding} {whole : ℚ → ℤ}

theorem Rounds.mono (rounds : Rounds mode whole) {x y : ℚ} (order : x ≤ y) : whole x ≤ whole y := by
  rcases order.eq_or_lt with rfl | less
  · exact le_rfl
  · -- two nearest whole numbers in the wrong order would be less than one apart
    have near := (abs_le.mp (rounds.near x)).1
    have near' := (abs_le.mp (rounds.near y)).2
    have apart : (whole x : ℚ) < whole y + 1 := by linarith
    have apart : whole x < whole y + 1 := by exact_mod_cast apart
    omega

theorem Rounds.toPlaces_mono (rounds : Rounds mode whole) (places : ℕ) {q r : ℚ} (order : q ≤ r) :
    toPlaces whole places q ≤ toPlaces whole places r := by
  have unit : (0 : ℚ) < 10 ^ places := by positivity
  have whole : whole (q * 10 ^ places) ≤ whole (r * 10 ^ places) :=
    rounds.mono (mul_le_mul_of_nonneg_right order unit.le)
  exact div_le_div_of_nonneg_right (by exact_mod_cast whole) unit.le

theorem Rounds.toPlaces_neg (rounds : Rounds mode whole) (places : ℕ) (q : ℚ) :
    toPlaces whole places (-q) = -toPlaces whole places q := by
  rw [toPlaces, toPlaces, neg_mul, rounds.neg, Int.cast_neg, neg_div]

/-- A number that is less than half a unit of the last place away from a whole one goes to it. -/
theorem Rounds.toPlaces_of_near (rounds : Rounds mode whole) {places n : ℕ} {q : ℚ}
    (close : |q - n| * 10 ^ places < 1 / 2) : toPlaces whole places q = n := by
  have unit : (0 : ℚ) < 10 ^ places := by positivity
  have kept : whole (q * 10 ^ places) = (n * 10 ^ places : ℕ) := by
    apply rounds.eq_of_near
    have distance : q * 10 ^ places - ((n * 10 ^ places : ℕ) : ℤ) = (q - n) * 10 ^ places := by
      push_cast
      ring
    rwa [distance, abs_mul, abs_of_pos unit]
  rw [toPlaces, kept]
  push_cast
  exact mul_div_cancel_right₀ _ unit.ne'

/-- On the two sides of a bound that is a whole number, other places do not change the order. -/
theorem Rounds.toPlaces_across (rounds : Rounds mode whole) {n places places' : ℕ} {q r s : ℚ}
    (below : q < n - s) (above : n - s ≤ r) (some : 0 ≤ s) (narrow : s * 10 ^ places' < 1 / 2) :
    toPlaces whole places q ≤ toPlaces whole places' r := by
  have bound : |(n : ℚ) - n| * 10 ^ places < 1 / 2 := by norm_num
  have bound' : |(n : ℚ) - s - n| * 10 ^ places' < 1 / 2 := by
    rwa [sub_sub_cancel_left, abs_neg, abs_of_nonneg some]
  calc toPlaces whole places q
      ≤ toPlaces whole places n := rounds.toPlaces_mono places (by linarith)
    _ = n := rounds.toPlaces_of_near bound
    _ = toPlaces whole places' (n - s) := (rounds.toPlaces_of_near bound').symm
    _ ≤ toPlaces whole places' r := rounds.toPlaces_mono places' above

end Roundings

/-- The number that is shown for a price. -/
def marketValue (q : ℚ) : ℚ := toPlaces wholeAway (placesAt (100 - slack 2) (1000 - slack 3) q) q

theorem marketValue_neg (q : ℚ) : marketValue (-q) = -marketValue q := by
  have places : placesAt (100 - slack 2) (1000 - slack 3) (-q) =
      placesAt (100 - slack 2) (1000 - slack 3) q := by
    rw [placesAt, placesAt, abs_neg]
  rw [marketValue, places, rounds_halfUp.toPlaces_neg]
  rfl

theorem marketValue_zero : marketValue 0 = 0 := by
  have turned := marketValue_neg 0
  rw [neg_zero] at turned
  linarith

theorem marketValue_le_of_nonneg {q r : ℚ} (least : 0 ≤ q) (order : q ≤ r) :
    marketValue q ≤ marketValue r := by
  obtain ⟨some, _⟩ := slack_bounds (k := 2) (by decide)
  obtain ⟨some', _⟩ := slack_bounds (k := 3) (by decide)
  have narrow : ∀ places ≤ 1, slack 2 * 10 ^ places < 1 / 2 := by
    intro places few
    have power : (10 : ℚ) ^ places ≤ 10 ^ 1 := pow_le_pow_right₀ (by norm_num) few
    refine (mul_le_mul_of_nonneg_left power some.le).trans_lt ?_
    norm_num [slack, precision]
  have narrow' : slack 3 * 10 ^ 0 < 1 / 2 := by norm_num [slack, precision]
  unfold marketValue placesAt
  rw [abs_of_nonneg least, abs_of_nonneg (least.trans order)]
  rcases lt_or_ge r (100 - slack 2) with low | high
  · rw [if_pos low, if_pos (order.trans_lt low)]
    exact rounds_halfUp.toPlaces_mono 2 order
  rw [if_neg (not_lt.mpr high)]
  rcases lt_or_ge q (100 - slack 2) with low' | high'
  · -- the prices lie on the two sides of one hundred
    rw [if_pos low']
    apply rounds_halfUp.toPlaces_across (n := 100) low' high some.le
    apply narrow
    split <;> decide
  rw [if_neg (not_lt.mpr high')]
  rcases lt_or_ge r (1000 - slack 3) with low | high
  · rw [if_pos low, if_pos (order.trans_lt low)]
    exact rounds_halfUp.toPlaces_mono 1 order
  rw [if_neg (not_lt.mpr high)]
  rcases lt_or_ge q (1000 - slack 3) with low' | high'
  · -- and here on those of one thousand
    rw [if_pos low']
    exact rounds_halfUp.toPlaces_across (n := 1000) low' high some'.le narrow'
  · rw [if_neg (not_lt.mpr high')]
    exact rounds_halfUp.toPlaces_mono 0 order

theorem marketValue_mono {q r : ℚ} (order : q ≤ r) : marketValue q ≤ marketValue r := by
  rcases le_total 0 q with least | most
  · exact marketValue_le_of_nonneg least order
  rcases le_total 0 r with least' | most'
  · -- zero lies between the two
    have below := marketValue_le_of_nonneg le_rfl (neg_nonneg.mpr most)
    have above := marketValue_le_of_nonneg le_rfl least'
    rw [marketValue_zero] at below above
    rw [marketValue_neg] at below
    linarith
  · have turned := marketValue_le_of_nonneg (neg_nonneg.mpr most') (neg_le_neg order)
    rw [marketValue_neg, marketValue_neg] at turned
    linarith

end Decimal

/-! Texts -/

/-- The text of a number above zero becomes that of its negation with a minus sign in front. -/
theorem Shows.neg {s : String} {places : ℕ} {q : ℚ} (positive : 0 < q) (shown : Shows s places q) :
    Shows ("-" ++ s) places (-q) := by
  obtain ⟨l, rfl, writes⟩ := shown
  have unsigned : l.sign = none := by rw [writes.sign, if_neg positive.le.not_gt]
  have signed : ∀ c ∈ some '-', Token.isSign c = true := by
    intro c sign
    cases sign
    rfl
  have turned : Decimal.neg l.value = ⟨true, l.value.coefficient, l.value.exponent⟩ := by
    simp [Decimal.neg, Literal.value, unsigned]
  refine ⟨⟨some '-', l.whole, l.fraction, signed, l.wholeDigits, l.fractionDigits, l.digits⟩, ?_,
    ?_, ?_, writes.places, writes.whole⟩
  · rw [← String.toList_inj]
    simp [Literal.text, Literal.body, Literal.point, unsigned]
  · rw [← writes.value, ← Decimal.value_neg, turned]
    rfl
  · exact (if_pos (neg_neg_of_pos positive)).symm

/-- The text of a number in reach is read as that number, if it has not too many places. -/
theorem Shows.read {s : String} {places : ℕ} {q : ℚ} (shown : Shows s places q)
    (below : |q| < Decimal.reach) (few : Decimal.lowestExponent ≤ -places) :
    ∃ d, Decimal.read s = some d ∧ d.value = q := by
  obtain ⟨l, rfl, writes⟩ := shown
  rw [← writes.value] at below
  rw [← writes.places] at few
  exact ⟨l.value, by rw [l.read_text, if_pos (Literal.admissible_of_reach below few)], writes.value⟩

namespace Decimal

theorem abs_marketValue_lt {d : Decimal} (within : d.adjusted < emax) :
    |marketValue d.value| < reach := by
  have clear : Clear (emax + 1 - precision) d.value := clear_of_adjusted within (by decide)
  rw [marketValue, ← rounds_halfUp.value_toPlaces]
  exact lt_reach_of_adjusted (adjusted_toExponent_le .halfUp clear _)

theorem read_marketText {d : Decimal} (within : d.adjusted < emax) :
    ∃ s x, d.marketText = .ok s ∧ Decimal.read s = some x ∧ x.value = marketValue d.value ∧
      Shows s (placesAt (100 - slack 2) (1000 - slack 3) d.value) (marketValue d.value) := by
  obtain ⟨s, told, shown⟩ := shows_marketText within
  have most := placesAt_le (100 - slack 2) (1000 - slack 3) d.value
  have low : lowestExponent ≤ -2 := by decide
  obtain ⟨x, read, value⟩ := Shows.read shown (abs_marketValue_lt within) (by omega)
  exact ⟨s, x, told, read, value, shown⟩

/-- Of two prices below the upper end of the range of places the larger one is shown as a number
that is at least as large. A price and its negation are shown as a number and its negation, by
texts that are the same but for the minus sign of the one below zero. -/
theorem marketText_keeps_order {v w : Decimal} (within : v.adjusted < emax)
    (within' : w.adjusted < emax) :
    ∃ s t x y, v.marketText = .ok s ∧ w.marketText = .ok t ∧
      Decimal.read s = some x ∧ Decimal.read t = some y ∧
      (v.value ≤ w.value → x.value ≤ y.value) ∧
      (w.value = -v.value → y.value = -x.value ∧ (x.value = 0 → t = s) ∧
        (0 < x.value → t = "-" ++ s) ∧ (x.value < 0 → s = "-" ++ t)) := by
  obtain ⟨s, x, told, read, value, shown⟩ := read_marketText within
  obtain ⟨t, y, told', read', value', shown'⟩ := read_marketText within'
  refine ⟨s, t, x, y, told, told', read, read', ?_, ?_⟩
  · intro order
    rw [value, value']
    exact marketValue_mono order
  · intro negated
    have places : placesAt (100 - slack 2) (1000 - slack 3) w.value =
        placesAt (100 - slack 2) (1000 - slack 3) v.value := by
      rw [negated, placesAt, placesAt, abs_neg]
    have turned : y.value = -x.value := by rw [value, value', negated, marketValue_neg]
    rw [← value] at shown
    rw [← value', places, turned] at shown'
    refine ⟨turned, ?_, ?_, ?_⟩
    · intro zero
      rw [zero, neg_zero] at shown'
      rw [zero] at shown
      exact shown'.unique shown
    · intro positive
      exact shown'.unique (shown.neg positive)
    · intro negative
      have back := shown'.neg (neg_pos.mpr negative)
      rw [neg_neg] at back
      exact shown.unique back

/-- A price that is rounded up to one hundred, below it. -/
def nearHundred : Decimal := ⟨false, 99996, -3⟩

/-- Two prices at the two sides of the bound of places, and the second one negated: the lower one
has two places and the other ones have one. -/
theorem nearHundred_keeps_order :
    nearHundred.adjusted < emax ∧ (ofNat 100).adjusted < emax ∧
      (ofNat 100).neg.adjusted < emax ∧
      nearHundred.marketText = .ok "100.00" ∧ (ofNat 100).marketText = .ok "100.0" ∧
      (∃ x y, Decimal.read "100.00" = some x ∧ Decimal.read "100.0" = some y ∧
        x.value ≤ y.value) ∧
      (ofNat 100).neg.marketText = .ok "-100.0" := by
  have within : nearHundred.adjusted < emax := by decide +kernel
  have within' : (ofNat 100).adjusted < emax := by decide +kernel
  have within'' : (ofNat 100).neg.adjusted < emax := by decide +kernel
  have lower : nearHundred.marketText = .ok "100.00" := by decide +kernel
  have upper : (ofNat 100).marketText = .ok "100.0" := by decide +kernel
  refine ⟨within, within', within'', lower, upper, ?_, ?_⟩
  · obtain ⟨s, t, x, y, told, told', read, read', order, _⟩ := marketText_keeps_order within within'
    rw [lower] at told
    rw [upper] at told'
    cases told
    cases told'
    refine ⟨x, y, read, read', order ?_⟩
    norm_num [nearHundred, ofNat, value, signed]
  · obtain ⟨s, t, x, y, told, told', read, _, _, turned⟩ := marketText_keeps_order within' within''
    obtain ⟨_, _, above, _⟩ := turned (value_neg _)
    rw [upper] at told
    cases told
    have hundred : Decimal.read "100.0" = some ⟨false, 1000, -1⟩ := by decide +kernel
    rw [hundred] at read
    cases read
    rw [told', above (by norm_num [value, signed])]
    rfl

end Decimal
end QuoteDesk
