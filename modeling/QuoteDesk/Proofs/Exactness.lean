import QuoteDesk.Proofs.Conversion
import QuoteDesk.Proofs.Decimal.Shown

/-
What a conversion shows. Whatever the numbers of digits are, the amount and the price are told as
they are and the product is rounded only once, to its eight places.
-/
namespace QuoteDesk

open Decimal

namespace Conversion

theorem product_exact {amount price : Decimal} (inside : (exactProduct amount price).Inside) :
    ∃ r, product amount price = .ok r ∧ r.adjusted ≤ emax ∧
      r.value = amount.value * price.value := by
  rw [← value_exactProduct]
  apply fit_exact (le_trans (by decide) (Nat.le_max_left precision _)) _ inside
  exact le_trans (Digits.count_mul_le _ _) (Nat.le_max_right _ _)

/-- A converted amount has eight places, so it keeps them all in its text. -/
theorem converted_shows {r : Decimal} (within : r.adjusted ≤ emax)
    (clear : Clear (-places) r.value) :
    ∃ converted s, r.roundTo places .halfEven = .ok converted ∧ converted.plainText = .ok s ∧
      ShowsShort s (toPlaces wholeNearest places r.value) := by
  rcases roundTo_halfEven_cases (by decide : (places : ℤ) ≤ emax) within with
    ⟨_, rounded, inside⟩ | ⟨near, _⟩
  · have eighth : OnGrid (-places) (r.toExponent .halfEven (-places)).value := by
      have grid := onGrid_value (r.toExponent .halfEven (-places))
      rwa [exponent_toExponent] at grid
    have fine : bottom (r.toExponent .halfEven (-places)) ≤ -places :=
      (bottom_le_emin _).trans (by decide)
    obtain ⟨s, told, shown⟩ := plainText_shows (lt_reach_of_adjusted inside) (eighth.mono fine)
    rw [rounds_halfEven.value_toPlaces] at shown
    exact ⟨_, s, rounded, told, shown⟩
  · exact absurd clear near

/-- The conversion of an amount at a price, if both and their product are in the range of places,
tells both numbers as they are and their product rounded once to eight places, halves to even, each
without a place that is not needed; zero is told without a sign. Only the time of the quote may be
one that has no text. -/
theorem reportAt_exact {c : Conversion} {cached : CachedQuote} (amount : c.amount.Inside)
    (price : cached.quote.unitPrice.Inside)
    (product : (exactProduct c.amount cached.quote.unitPrice).Inside) :
    ∃ amount price converted, ShowsShort amount c.amount.value ∧
      ShowsShort price cached.quote.unitPrice.value ∧
      ShowsShort converted
        (toPlaces wholeNearest places (c.amount.value * cached.quote.unitPrice.value)) ∧
      (toPlaces wholeNearest places (c.amount.value * cached.quote.unitPrice.value) = 0 →
        converted = "0") ∧
      c.reportAt cached = match cached.quote.fetchedAt.toStamp? with
        | some t => .ok ⟨c.pair, amount, price, converted, cached.quote.provider, t, cached⟩
        | none => .error (.defect .outOfRange) := by
  obtain ⟨r, multiplied, within, exact⟩ := product_exact product
  have clear : Clear (-places) r.value := by
    rw [exact, ← value_exactProduct]
    exact clear_of_adjusted product.most (by decide)
  obtain ⟨_, s, rounded, told, shown⟩ := converted_shows within clear
  obtain ⟨a, toldAmount, shownAmount⟩ := amount.plainText_shows
  obtain ⟨p, toldPrice, shownPrice⟩ := price.plainText_shows
  rw [exact] at shown
  refine ⟨a, p, s, shownAmount, shownPrice, shown, ?_, ?_⟩
  · intro zero
    rw [zero] at shown
    exact shown.of_zero
  · simp only [reportAt, multiplied, rounded, told, toldAmount, toldPrice, Outcome.ofArithmetic,
      bind, Except.bind]
    rfl

/-- An amount with more digits than usual, that ends half a unit behind the eighth place. -/
def longAmount : Conversion :=
  ⟨⟨.crypto, "BTC", "USD"⟩, ⟨false, 123456789012345678901234567000000005, -9⟩⟩

/-- Of its two neighbours with eight places the even one is told. -/
theorem longAmount_exact :
    longAmount.amount.Inside ∧ (quotedAt ⟨true, 1, 0⟩).quote.unitPrice.Inside ∧
      (exactProduct longAmount.amount (quotedAt ⟨true, 1, 0⟩).quote.unitPrice).Inside ∧
      ∃ r, longAmount.reportAt (quotedAt ⟨true, 1, 0⟩) = .ok r ∧
        ShowsShort r.converted (-123456789012345678901234567) := by
  have amount : longAmount.amount.Inside := ⟨by decide +kernel, by decide +kernel⟩
  have price : (quotedAt ⟨true, 1, 0⟩).quote.unitPrice.Inside :=
    ⟨by decide +kernel, by decide +kernel⟩
  have product : (exactProduct longAmount.amount (quotedAt ⟨true, 1, 0⟩).quote.unitPrice).Inside :=
    ⟨by decide +kernel, by decide +kernel⟩
  have stamp : (quotedAt ⟨true, 1, 0⟩).quote.fetchedAt.toStamp? = some "1-01-01T00:00:00Z" := by
    decide +kernel
  obtain ⟨a, p, s, _, _, shown, _, told⟩ := reportAt_exact amount price product
  rw [stamp] at told
  refine ⟨amount, price, product, _, told, ?_⟩
  have number : longAmount.amount.value * (quotedAt ⟨true, 1, 0⟩).quote.unitPrice.value =
      -123456789012345678901234567000000005 / 10 ^ 9 := by
    norm_num [longAmount, quotedAt, value, signed]
  have even : wholeNearest (-123456789012345678901234567000000005 / 10 ^ 9 * 10 ^ places) =
      -12345678901234567890123456700000000 := by
    apply wholeNearest_eq
    right
    exact ⟨by norm_num [places], by decide⟩
  rw [number, toPlaces, even] at shown
  norm_num [places] at shown
  exact shown

end Conversion
end QuoteDesk
