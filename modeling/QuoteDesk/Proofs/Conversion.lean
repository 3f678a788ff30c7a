import QuoteDesk.Proofs.Decimal.Reduced
import QuoteDesk.Proofs.Steps
import QuoteDesk.Provider.Payload
import QuoteDesk.Quote

/-
Which conversions can be shown. Amounts and prices are only asked to be numbers, and numbers that
are read may be far out of the range of places in which arithmetic works: a price may be out of
reach by itself, or be taken there by an amount or by rounding. The failure is a defect then, not
one of those that are told.
-/
namespace QuoteDesk

namespace Digits

theorem count_mul_le (m n : ℕ) : count (m * n) ≤ count m + count n := by
  apply count_le_of_lt_pow
  · exact Nat.add_pos_left (Nat.succ_pos _) _
  · rw [Nat.pow_add]
    exact Nat.mul_lt_mul'' (lt_pow_count m) (lt_pow_count n)

end Digits

open Decimal

/-- An amount is brought to the range of places when it is read. -/
theorem lt_reach_of_readAmount {raw : String} {amount : Decimal}
    (read : readAmount raw = .ok amount) : |amount.value| < reach := by
  unfold readAmount at read
  split at read
  · rename_i d _
    split at read
    · have digits : 1 ≤ widePrecision d := le_trans (by decide) (Nat.le_max_left precision _)
      rcases fit_cases digits d with ⟨_, r, fitted, kept⟩ | ⟨_, refused⟩
      · rw [Decimal.normalize, fitted] at read
        cases read
        rw [value_reduce]
        exact lt_reach_of_adjusted kept.within
      · rw [Decimal.normalize, refused] at read
        cases read
    · cases read
  · cases read

namespace Conversion

theorem product_cases (amount price : Decimal) :
    (|amount.value * price.value| < reach ∧
        ∃ r, product amount price = .ok r ∧ r.adjusted ≤ emax ∧
          (Clear (-places) r.value ↔ Clear (-places) (amount.value * price.value))) ∨
      (¬ |amount.value * price.value| < reach ∧ product amount price = .error .overflow) := by
  have digits : 1 ≤ max precision (amount.digitCount + price.digitCount) :=
    le_trans (by decide) (Nat.le_max_left precision _)
  have few : (exactProduct amount price).digitCount ≤
      max precision (amount.digitCount + price.digitCount) :=
    le_trans (Digits.count_mul_le _ _) (Nat.le_max_right _ _)
  rw [← value_exactProduct, product, mul]
  rcases fit_cases_of_room digits few with ⟨below, r, fitted, within, close⟩ | refused
  · refine .inl ⟨below, r, fitted, within, ?_⟩
    rcases close with same | ⟨small, small'⟩
    · rw [same]
    · have low : -(places : ℤ) ≤ emax := by decide
      exact iff_of_true (clear_of_small low small) (clear_of_small low small')
  · exact .inr refused

/-- A conversion is shown exactly if the price is in reach and the product clear of what is not. -/
theorem reportAt_cases {c : Conversion} {cached : CachedQuote} {t : String}
    (small : |c.amount.value| < reach) (stamp : cached.quote.fetchedAt.toStamp? = some t) :
    ((|cached.quote.unitPrice.value| < reach ∧
        Clear (-places) (c.amount.value * cached.quote.unitPrice.value)) ∧
      ∃ r, c.reportAt cached = .ok r) ∨
    (¬ (|cached.quote.unitPrice.value| < reach ∧
        Clear (-places) (c.amount.value * cached.quote.unitPrice.value)) ∧
      (c.reportAt cached = .error (.defect (.arithmetic .overflow)) ∨
        c.reportAt cached = .error (.defect (.arithmetic .invalidOperation)))) := by
  have few : (places : ℤ) ≤ emax := by decide
  rcases product_cases c.amount cached.quote.unitPrice with
    ⟨_, exact, multiplied, within, same⟩ | ⟨beyond, refused⟩
  · rcases roundTo_halfEven_cases few within with
      ⟨clear, rounded, inside⟩ | ⟨near, refused⟩
    · rw [same] at clear
      obtain ⟨amount, told⟩ := exists_plainText small
      obtain ⟨result, shown⟩ := exists_plainText (lt_reach_of_adjusted inside)
      rcases plainText_cases cached.quote.unitPrice with ⟨below, price, priced⟩ | ⟨beyond, refused⟩
      · refine .inl ⟨⟨below, clear⟩, ?_⟩
        simp only [reportAt, multiplied, rounded, told, priced, shown, stamp, Outcome.ofArithmetic,
          bind, Except.bind]
        exact ⟨_, rfl⟩
      · refine .inr ⟨fun shown => beyond shown.1, .inl ?_⟩
        simp only [reportAt, multiplied, rounded, told, refused, Outcome.ofArithmetic, bind,
          Except.bind]
    · refine .inr ⟨fun shown => near (same.mpr shown.2), .inr ?_⟩
      simp only [reportAt, multiplied, refused, Outcome.ofArithmetic, bind, Except.bind]
  · refine .inr ⟨fun shown => beyond shown.2.lt_reach, .inl ?_⟩
    simp only [reportAt, refused, Outcome.ofArithmetic, bind, Except.bind]

/-- The amount of a conversion that was read is in reach. -/
theorem lt_reach_of_read {kind : PairKind} {base quote amount : String} {c : Conversion}
    (found : read kind base quote amount = .ok c) : |c.amount.value| < reach := by
  obtain ⟨_, _, found⟩ := ok_of_bind found
  obtain ⟨_, _, found⟩ := ok_of_bind found
  obtain ⟨_, accepted, found⟩ := ok_of_bind found
  cases found
  exact lt_reach_of_readAmount accepted

/-- What is refused exactly without a property, for one of two reasons, has a result exactly with
it. -/
theorem ok_iff_of_cases {α ε : Type} {property : Prop} {x : Except ε α} {e e' : ε}
    (cases : (property ∧ ∃ a, x = .ok a) ∨ (¬ property ∧ (x = .error e ∨ x = .error e'))) :
    ((∃ a, x = .ok a) ↔ property) ∧ ∀ f, x = .error f → f = e ∨ f = e' := by
  rcases cases with ⟨holds, a, done⟩ | ⟨fails, refused⟩
  · constructor
    · exact iff_of_true ⟨a, done⟩ holds
    · intro f failed
      rw [done] at failed
      cases failed
  · constructor
    · refine iff_of_false ?_ fails
      rintro ⟨a, done⟩
      rcases refused with refused | refused <;> rw [refused] at done <;> cases done
    · intro f failed
      rcases refused with refused | refused
      · rw [refused] at failed
        exact .inl (Except.error.inj failed).symm
      · rw [refused] at failed
        exact .inr (Except.error.inj failed).symm

/-- The conversion of an amount that was accepted, at any price, is shown exactly if the price is
in reach and the product more than half a unit of the last place that is kept away from what is
not; and the price has a text exactly if it is as clear in the usual digits, or is a zero whose
exponent is not too far out. Else both end in a defect of arithmetic or of a bad value. -/
theorem shown_iff {kind : PairKind} {base quote amount : String} {c : Conversion}
    (found : read kind base quote amount = .ok c) {cached : CachedQuote} {t : String}
    (stamp : cached.quote.fetchedAt.toStamp? = some t) :
    ((∃ r, c.reportAt cached = .ok r) ↔
      |cached.quote.unitPrice.value| < reach ∧
        Clear (-places) (c.amount.value * cached.quote.unitPrice.value)) ∧
    (∀ f, c.reportAt cached = .error f →
      f = .defect (.arithmetic .overflow) ∨ f = .defect (.arithmetic .invalidOperation)) ∧
    ((∃ s, cached.quote.unitPrice.marketText = .ok s) ↔
      if cached.quote.unitPrice.isZero then cached.quote.unitPrice.exponent + 4 ≤ widestPrecision
      else Clear (emax + 1 - precision) cached.quote.unitPrice.value) ∧
    (∀ f, cached.quote.unitPrice.marketText = .error f →
      f = .defect (.arithmetic .overflow) ∨ f = .defect .badValue) := by
  have small := lt_reach_of_read found
  obtain ⟨report, refusals⟩ := ok_iff_of_cases (reportAt_cases small stamp)
  obtain ⟨text, refusals'⟩ := ok_iff_of_cases (marketText_cases cached.quote.unitPrice)
  exact ⟨report, refusals, text, refusals'⟩

/-- A quote at the price. -/
def quotedAt (price : Decimal) : CachedQuote :=
  ⟨⟨"BTC", "USD", price, "coinbase", ⟨0, some 0⟩⟩, .live, "crypto-btc-usd", 300, 0⟩

/-- Prices that are accepted, of which neither has a text, and one has no conversion. -/
theorem far_prices_not_shown :
    Payload.spotPayload 200 "\x7b\"data\":\x7b\"amount\":\"1e1000000\"\x7d\x7d" =
        .ok ⟨false, 1, 1000000⟩ ∧
      Payload.spotPayload 200 "\x7b\"data\":\x7b\"amount\":\"0e999999999999999999\"\x7d\x7d" =
        .ok ⟨false, 0, 999999999999999999⟩ ∧
      ∃ c, read .crypto "BTC" "USD" "1" = .ok c ∧
        (¬ ∃ r, c.reportAt (quotedAt ⟨false, 1, 1000000⟩) = .ok r) ∧
        (¬ ∃ s, (⟨false, 1, 1000000⟩ : Decimal).marketText = .ok s) ∧
        ¬ ∃ s, (⟨false, 0, 999999999999999999⟩ : Decimal).marketText = .ok s := by
  have found : read .crypto "BTC" "USD" "1" =
      .ok ⟨⟨.crypto, "BTC", "USD"⟩, ⟨false, 1, 0⟩⟩ := by decide +kernel
  have stamp : ∀ price,
      (quotedAt price).quote.fetchedAt.toStamp? = some "1-01-01T00:00:00Z" := by
    intro price
    have here : (⟨0, some 0⟩ : Moment).toStamp? = some "1-01-01T00:00:00Z" := by decide +kernel
    exact here
  have beyond : ¬ |(⟨false, 1, 1000000⟩ : Decimal).value| < reach := by
    rw [← adjusted_le_iff (by decide)]
    decide +kernel
  obtain ⟨shown, _, told, _⟩ := shown_iff found (stamp ⟨false, 1, 1000000⟩)
  obtain ⟨_, _, told', _⟩ := shown_iff found (stamp ⟨false, 0, 999999999999999999⟩)
  refine ⟨by decide +kernel, by decide +kernel, _, found, ?_, ?_, ?_⟩
  · rw [shown]
    intro reached
    exact beyond reached.1
  · intro text
    exact beyond (Clear.lt_reach (told.mp text))
  · intro text
    have within : (999999999999999999 : ℤ) + 4 ≤ widestPrecision := told'.mp text
    exact absurd within (by decide)

end Conversion
end QuoteDesk
