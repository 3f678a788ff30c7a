import QuoteDesk.Proofs.Decimal.Value
import QuoteDesk.Proofs.Expression.Gathered

/-
The total of amounts of assets, as a number. Every product and every sum on the way is rounded to
the usual number of digits, so the total is the exact sum as long as none of them needs more
digits, and may differ from it otherwise.
-/
namespace QuoteDesk

namespace Decimal

/-! Sums that are rounded at each step -/

/-- The terms are rounded, and so is the sum after each of them. -/
def roundedSum (p : ℕ) : List ℚ → ℚ
  | [] => 0
  | q :: qs => qs.foldl (fun total q => nearest p (total + nearest p q)) (nearest p q)

/-- All terms and sums have the property, before they are rounded. -/
def Along (property : ℚ → Prop) (p : ℕ) (total : ℚ) : List ℚ → Prop
  | [] => True
  | q :: qs => property q ∧ property (total + nearest p q) ∧
      Along property p (nearest p (total + nearest p q)) qs

/-- All terms, and all sums of at least two of them, have the property. -/
def Throughout (property : ℚ → Prop) (p : ℕ) : List ℚ → Prop
  | [] => True
  | q :: qs => property q ∧ Along property p (nearest p q) qs

theorem foldl_of_fits {p : ℕ} {total : ℚ} {qs : List ℚ} (fits : Along (Fits p) p total qs) :
    qs.foldl (fun total q => nearest p (total + nearest p q)) total = total + qs.sum := by
  induction qs generalizing total with
  | nil => simp
  | cons q qs ih =>
    obtain ⟨term, sum, rest⟩ := fits
    rw [nearest_of_fits term] at sum rest
    rw [nearest_of_fits sum] at rest
    rw [List.foldl_cons, nearest_of_fits term, nearest_of_fits sum, ih rest, List.sum_cons, add_assoc]

/-- Nothing is lost when no step has too many digits. -/
theorem roundedSum_of_fits {p : ℕ} {qs : List ℚ} (fits : Throughout (Fits p) p qs) :
    roundedSum p qs = qs.sum := by
  cases qs with
  | nil => rfl
  | cons q qs =>
    obtain ⟨term, rest⟩ := fits
    rw [nearest_of_fits term] at rest
    rw [roundedSum, nearest_of_fits term, foldl_of_fits rest, List.sum_cons]

theorem InRange.neg {p : ℕ} {q : ℚ} (range : InRange p q) : InRange p (-q) := by
  rcases range with zero | inside
  · exact .inl (neg_eq_zero.mpr zero)
  · right
    rwa [nearest_neg, place_neg, place_neg]

end Decimal

/-! Terms and what they add -/

namespace Operator

/-- Minus for amounts that are taken away. -/
def sign : Operator → ℚ
  | .minus => -1
  | _ => 1

theorem sign_plus : sign .plus = 1 := rfl

theorem sign_minus : sign .minus = -1 := rfl

end Operator

/-- The number of units times the price of one. -/
def Term.worth (price : String → Decimal) (t : Term) : ℚ :=
  t.value.value * (price (t.symbol?.getD "")).value

namespace Expression

open Decimal

/-- What the terms add to the total, each with the sign of the operator in front of it. -/
def shares (e : Expression) (price : String → Decimal) : List ℚ :=
  match e.terms with
  | [] => []
  | t :: ts => t.worth price :: (e.operators.zip ts).map fun (op, t) => op.sign * t.worth price

variable {assets : List (String × CachedQuote)} {price : String → Decimal}

/-- A term whose symbol has its price among the assets. -/
def Priced (assets : List (String × CachedQuote)) (price : String → Decimal) (t : Term) : Prop :=
  ∃ s c, t.symbol? = some s ∧ assets.lookup s = some c ∧ c.quote.unitPrice = price s

theorem amountOf_eq_ok {t : Term} (priced : Priced assets price t)
    (range : InRange precision (t.worth price)) :
    ∃ r, amountOf assets t = .ok r ∧ r.value = nearest precision (t.worth price) := by
  obtain ⟨s, c, symbol, held, same⟩ := priced
  have worth : t.worth price = t.value.value * c.quote.unitPrice.value := by
    rw [Term.worth, symbol, Option.getD_some, same]
  rw [worth] at range ⊢
  obtain ⟨r, product, rounded⟩ := mul_eq_ok (by decide) range
  refine ⟨r, ?_, rounded⟩
  have found : priceOf assets t = .ok c := by rw [priceOf, symbol, Option.bind_some, held]
  rw [amountOf, found]
  exact congrArg Outcome.ofArithmetic product

theorem applyAsset_eq_ok {total : Decimal} {op : Operator} {t : Term}
    (joins : op.joinsAssets = true) (priced : Priced assets price t)
    (term : InRange precision (op.sign * t.worth price))
    (sum : InRange precision (total.value + nearest precision (op.sign * t.worth price))) :
    ∃ r, applyAsset (amountOf assets) total op t = .ok r ∧
      r.value = nearest precision (total.value + nearest precision (op.sign * t.worth price)) := by
  cases op with
  | plus =>
    rw [Operator.sign_plus, one_mul] at term sum ⊢
    obtain ⟨amount, known, worth⟩ := amountOf_eq_ok priced term
    rw [← worth] at sum ⊢
    obtain ⟨r, added, rounded⟩ := add_eq_ok (by decide) sum
    refine ⟨r, ?_, rounded⟩
    rw [applyAsset, known]
    exact congrArg Outcome.ofArithmetic added
  | minus =>
    rw [Operator.sign_minus, neg_one_mul] at term sum ⊢
    obtain ⟨amount, known, worth⟩ := amountOf_eq_ok priced (neg_neg (t.worth price) ▸ term.neg)
    rw [nearest_neg, ← sub_eq_add_neg, ← worth] at sum ⊢
    obtain ⟨r, taken, rounded⟩ := sub_eq_ok (by decide) sum
    refine ⟨r, ?_, rounded⟩
    rw [applyAsset, known]
    exact congrArg Outcome.ofArithmetic taken
  | _ => cases joins

theorem foldlM_applyAsset {steps : List (Operator × Term)} {total : Decimal}
    (joined : ∀ step ∈ steps, step.1.joinsAssets = true)
    (priced : ∀ step ∈ steps, Priced assets price step.2)
    (range : Along (InRange precision) precision total.value
      (steps.map fun (op, t) => op.sign * t.worth price)) :
    ∃ r, steps.foldlM (fun total (op, t) => applyAsset (amountOf assets) total op t) total = .ok r ∧
      r.value = (steps.map fun (op, t) => op.sign * t.worth price).foldl
        (fun total q => nearest precision (total + nearest precision q)) total.value := by
  induction steps generalizing total with
  | nil => exact ⟨total, rfl, rfl⟩
  | cons step steps ih =>
    obtain ⟨op, t⟩ := step
    obtain ⟨term, sum, rest⟩ := range
    obtain ⟨next, applied, rounded⟩ :=
      applyAsset_eq_ok (joined _ List.mem_cons_self) (priced _ List.mem_cons_self) term sum
    rw [← rounded] at rest
    obtain ⟨r, folded, same⟩ := ih (fun step member => joined step (List.mem_cons_of_mem _ member))
      (fun step member => priced step (List.mem_cons_of_mem _ member)) rest
    refine ⟨r, ?_, ?_⟩
    · dsimp only at applied
      rw [List.foldlM_cons]
      simp only [applied]
      exact folded
    · rw [List.map_cons, List.foldl_cons, same, rounded]

theorem lookup_quotes {quotes : String → CachedQuote} {symbols : List String} {s : String}
    (member : s ∈ symbols) : (symbols.map fun s => (s, quotes s)).lookup s = some (quotes s) := by
  have found := Gathering.lookup_filterMap (fun s => some (quotes s)) symbols s
  rw [if_pos member] at found
  rw [← found, ← List.filterMap_eq_map]
  rfl

/-- Each term of a portfolio has a symbol. -/
theorem symbol_of_portfolio {e : Expression} (portfolio : e.mode = .ok .asset) {t : Term}
    (member : t ∈ e.terms) : ∃ s ∈ e.symbols, t.symbol? = some s := by
  have asset := List.all_eq_true.mp (e.mode_eq_asset_iff.mp portfolio).2 t member
  cases t with
  | number v => cases asset
  | asset v s =>
    refine ⟨s, ?_, rfl⟩
    rw [symbols, mem_distinct, List.mem_filterMap]
    exact ⟨_, member, rfl⟩

/-- Each term of a portfolio has a price, if all its symbols have one. -/
theorem priced_of_portfolio {e : Expression} (portfolio : e.mode = .ok .asset)
    (quotes : String → CachedQuote) {t : Term} (member : t ∈ e.terms) :
    Priced (e.symbols.map fun s => (s, quotes s)) (fun s => (quotes s).quote.unitPrice) t := by
  obtain ⟨s, listed, symbol⟩ := symbol_of_portfolio portfolio member
  exact ⟨s, quotes s, symbol, lookup_quotes listed, rfl⟩

theorem assetTotal_eq_ok {e : Expression} {quotes : String → CachedQuote}
    (portfolio : e.mode = .ok .asset) (joined : ∀ op ∈ e.operators, op.joinsAssets = true)
    (range : Throughout (InRange precision) precision
      (e.shares fun s => (quotes s).quote.unitPrice)) :
    ∃ total, assetTotal e.terms e.operators (e.symbols.map fun s => (s, quotes s)) = .ok total ∧
      total.value = roundedSum precision (e.shares fun s => (quotes s).quote.unitPrice) := by
  have priced := fun t => priced_of_portfolio portfolio quotes (t := t)
  obtain ⟨some, _⟩ := e.mode_eq_asset_iff.mp portfolio
  generalize e.symbols.map (fun s => (s, quotes s)) = assets at priced ⊢
  unfold shares at range ⊢
  cases terms : e.terms with
  | nil => exact absurd terms some
  | cons t ts =>
    rw [terms] at range priced
    obtain ⟨term, rest⟩ := range
    obtain ⟨first, known, rounded⟩ := amountOf_eq_ok (priced t List.mem_cons_self) term
    rw [← rounded] at rest
    obtain ⟨total, folded, same⟩ := foldlM_applyAsset
      (fun step member => joined step.1 (List.of_mem_zip member).1)
      (fun step member => priced step.2 (List.mem_cons_of_mem t (List.of_mem_zip member).2)) rest
    refine ⟨total, ?_, ?_⟩
    · rw [assetTotal, known]
      exact folded
    · dsimp only
      rw [roundedSum, same, rounded]

/-- The total is the sum whose products and partial sums are all rounded, and so the exact sum as
long as none of them has too many digits. -/
theorem total_rounds_each_step (e : Expression) (quotes : String → CachedQuote)
    (portfolio : e.mode = .ok .asset) (joined : ∀ op ∈ e.operators, op.joinsAssets = true)
    (range : Throughout (InRange precision) precision
      (e.shares fun s => (quotes s).quote.unitPrice)) :
    ∃ r, e.evaluate (fun symbols => .ok (symbols.map quotes)) = .ok r ∧
      r.total.value = roundedSum precision (e.shares fun s => (quotes s).quote.unitPrice) ∧
      (Throughout (Fits precision) precision (e.shares fun s => (quotes s).quote.unitPrice) →
        r.total.value = (e.shares fun s => (quotes s).quote.unitPrice).sum) := by
  obtain ⟨total, known, rounded⟩ := assetTotal_eq_ok portfolio joined range
  have evaluated := evaluate_portfolio portfolio quotes
  rw [known] at evaluated
  refine ⟨_, evaluated, rounded, fun fits => ?_⟩
  exact rounded.trans (roundedSum_of_fits fits)

/-- One coin against another, at prices that differ in their last digit only. -/
def closePair : Expression :=
  ⟨[.asset (ofNat 1) "BTC", .asset (ofNat 1) "ETH"], [.minus], "USD", false⟩

def longPrices (symbol : String) : CachedQuote :=
  ⟨⟨symbol, "USD", ofNat (if symbol = "BTC" then 12345678901234567890123456789
    else 12345678901234567890123456780), "coinbase", ⟨0, some 0⟩⟩, .live, "k", 300, 0⟩

/-- Rounding the first product alone makes a total of ten out of nine. -/
theorem total_ten_for_nine :
    closePair.mode = .ok .asset ∧ (∀ op ∈ closePair.operators, op.joinsAssets = true) ∧
      Throughout (InRange precision) precision
        (closePair.shares fun s => (longPrices s).quote.unitPrice) ∧
      (∃ r, closePair.evaluate (fun symbols => .ok (symbols.map longPrices)) = .ok r ∧
        r.total.value = 10) ∧
      (closePair.shares fun s => (longPrices s).quote.unitPrice).sum = 9 := by
  have portfolio : closePair.mode = .ok .asset := rfl
  have joined : ∀ op ∈ closePair.operators, op.joinsAssets = true := by decide
  have shares : (closePair.shares fun s => (longPrices s).quote.unitPrice) =
      [12345678901234567890123456789, -12345678901234567890123456780] := by
    simp [Expression.shares, closePair, longPrices, Term.worth, Term.value, Term.symbol?,
      Operator.sign, value, signed, ofNat]
  have leading : place 12345678901234567890123456789 = 28 := place_eq (by norm_num) (by norm_num)
  have first : nearest precision 12345678901234567890123456789 = 12345678901234567890123456790 := by
    have whole : wholeNearest (12345678901234567890123456789 / 10 ^ (28 + 1 - (precision : ℤ))) =
        1234567890123456789012345679 := by
      apply wholeNearest_eq
      left
      norm_num [precision]
    rw [nearest, leading, whole]
    norm_num [precision]
  have second : nearest precision (-12345678901234567890123456780) = -12345678901234567890123456780 :=
    nearest_of_fits ⟨-1234567890123456789012345678, 1, by norm_num [precision], by norm_num⟩
  have last : nearest precision 10 = 10 := nearest_of_fits ⟨1, 1, by norm_num [precision], by norm_num⟩
  have range : Throughout (InRange precision) precision
      (closePair.shares fun s => (longPrices s).quote.unitPrice) := by
    have raised : place 12345678901234567890123456790 = 28 := place_eq (by norm_num) (by norm_num)
    have taken : place (-12345678901234567890123456780) = 28 := place_eq (by norm_num) (by norm_num)
    have left : place 10 = 1 := place_eq (by norm_num) (by norm_num)
    have difference : (12345678901234567890123456790 : ℚ) + -12345678901234567890123456780 = 10 := by
      norm_num
    rw [shares]
    refine ⟨.inr ?_, .inr ?_, .inr ?_, trivial⟩
    · rw [first, leading, raised]
      decide
    · rw [second, taken]
      decide
    · rw [first, second, difference, last, left]
      decide
  refine ⟨portfolio, joined, range, ?_, ?_⟩
  · obtain ⟨r, evaluated, rounded, _⟩ :=
      total_rounds_each_step closePair longPrices portfolio joined range
    refine ⟨r, evaluated, ?_⟩
    rw [rounded, shares, roundedSum, List.foldl_cons, List.foldl_nil, first, second]
    norm_num [last]
  · rw [shares]
    norm_num

end Expression
end QuoteDesk
