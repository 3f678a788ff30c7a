import QuoteDesk.Proofs.Amount
import QuoteDesk.Proofs.Decimal.PriceText
import QuoteDesk.Proofs.Decimal.Retold
import QuoteDesk.Proofs.Expression.Unambiguity

/-
Plain texts as a normal form. All forms of a number have one text, and no two numbers have the same;
the text has nothing that it could do without, and what is read from it is the number again. As an
amount it gives the one form of the number that has no trailing zeros.
-/
namespace QuoteDesk

/-- Digits, with a point and more digits if there is need for them: no zero stands in front of
another digit or at the end behind the point, and zero has no sign. -/
structure PlainDigits (s : String) : Prop where
  form : ∃ sign whole fraction, s.toList = sign ++ (whole ++ fraction) ∧ (sign = [] ∨ sign = ['-']) ∧
    (∀ c ∈ whole, Text.isDigit c = true) ∧ LeadsWell whole ∧
    (fraction = [] ∨ ∃ ds last, fraction = '.' :: (ds ++ [last]) ∧
      (∀ c ∈ ds ++ [last], Text.isDigit c = true) ∧ last ≠ '0')
  unsigned : s ≠ "-0"

namespace Literal

theorem eq_of_text {l l' : Literal} (same : l.text = l'.text) : l = l' := by
  have ended : l.text ++ [] = l'.text ++ [] := by rw [same]
  exact (unique endsAmount_nil.number endsAmount_nil.number ended).1

end Literal

theorem ShowsShort.plainDigits {s : String} {q : ℚ} (shown : ShowsShort s q) : PlainDigits s := by
  obtain ⟨l, rfl, writes, last⟩ := shown
  constructor
  · refine ⟨l.sign.toList, l.whole, l.point, String.toList_ofList, ?_, l.wholeDigits, writes.whole, ?_⟩
    · rw [writes.sign]
      split
      · exact .inr rfl
      · exact .inl rfl
    · rcases List.eq_nil_or_concat l.fraction with none | ⟨ds, c, split⟩
      · exact .inl (if_pos none)
      · rw [List.concat_eq_append] at split
        have digits := l.fractionDigits
        rw [split] at last digits
        refine .inr ⟨ds, c, ?_, digits, ?_⟩
        · rw [Literal.point, split, if_neg (by simp)]
        · rintro rfl
          exact last List.getLast?_concat
  · -- a zero has no sign
    intro same
    have zero : Decimal.read "-0" = some ⟨true, 0, 0⟩ := by decide +kernel
    rw [← same, l.read_text] at zero
    split at zero
    · have value := Option.some.inj zero
      have nothing : ¬ q < 0 := by
        rw [← writes.value, value, (Decimal.value_eq_zero_iff _).mpr rfl]
        exact lt_irrefl 0
      have unsigned := writes.sign
      rw [if_neg nothing] at unsigned
      rw [Literal.value, unsigned] at value
      cases value
    · cases zero

/-- A text says one number. -/
theorem ShowsShort.value_unique {s : String} {q r : ℚ} (shown : ShowsShort s q)
    (shown' : ShowsShort s r) : q = r := by
  obtain ⟨l, rfl, writes, _⟩ := shown
  obtain ⟨l', text, writes', _⟩ := shown'
  rw [String.ofList_inj] at text
  rw [← writes.value, ← writes'.value, Literal.eq_of_text text]

namespace Decimal

/-! Forms without trailing zeros -/

theorem Stripped.exponent_le {a b : Decimal} (stripped : a.Stripped) (some : a.isZero = false)
    (same : a.value = b.value) : b.exponent ≤ a.exponent := by
  by_contra above
  obtain ⟨k, steps⟩ : ∃ k, (b.exponent - a.exponent).toNat = k + 1 :=
    Nat.exists_eq_add_one_of_ne_zero (by omega)
  -- the digits of the one are those of the other with zeros behind them
  have digits : a.coefficient = b.coefficient * 10 ^ k * 10 := by
    have sizes := congrArg (|·|) same
    rw [abs_at (d := b) (not_le.mp above).le, abs_value, mul_left_inj' (ten_zpow_pos _).ne', steps,
      Nat.pow_succ, ← Nat.mul_assoc] at sizes
    exact_mod_cast sizes
  rw [Stripped, some, if_neg Bool.false_ne_true, digits] at stripped
  exact stripped (Nat.mul_mod_left _ 10)

/-- A number other than zero has one form without trailing zeros. -/
theorem Stripped.unique {a b : Decimal} (stripped : a.Stripped) (stripped' : b.Stripped)
    (some : a.value ≠ 0) (same : a.value = b.value) : a = b := by
  have beyond : a.isZero = false := by rwa [← Bool.not_eq_true, ← value_eq_zero_iff]
  have beyond' : b.isZero = false := by rwa [← Bool.not_eq_true, ← value_eq_zero_iff, ← same]
  have exponent := le_antisymm (stripped'.exponent_le beyond' same.symm)
    (stripped.exponent_le beyond same)
  have digits : a.coefficient = b.coefficient := by
    have sizes := congrArg (|·|) same
    rw [abs_value, abs_value, exponent, mul_left_inj' (ten_zpow_pos _).ne'] at sizes
    exact_mod_cast sizes
  have sign : a.negative = b.negative := by
    have positive := value_pos_iff a
    rw [same, value_pos_iff b, beyond, beyond'] at positive
    simpa using positive.symm
  obtain ⟨negative, coefficient, e⟩ := a
  obtain ⟨negative', coefficient', e'⟩ := b
  cases sign
  cases digits
  cases exponent
  rfl

/-! Plain texts -/

/-- A number in the range of places has no digit below what can be read, as it has no more digits
than a number can be asked to keep. -/
theorem onGrid_lowestExponent {d : Decimal} (inside : d.InPlaces)
    (few : d.digitCount ≤ widestPrecision) : OnGrid lowestExponent d.value := by
  cases zero : d.isZero with
  | true =>
    rw [(value_eq_zero_iff d).mpr zero]
    exact onGrid_zero _
  | false =>
    have some : ¬ d.isZero = true := by rw [zero]; exact Bool.false_ne_true
    have least := (inside.resolve_left some).1
    have room : lowestExponent + widestPrecision ≤ emin + 1 := by decide
    apply (onGrid_value d).mono
    rw [adjusted] at least
    omega

/-- A plain text tells the number itself exactly if the number has no digit below the last place
that is kept. -/
theorem showsShort_plainText_iff {d : Decimal} {s : String} (told : d.plainText = .ok s) :
    ShowsShort s d.value ↔ OnGrid (bottom d) d.value := by
  have below : |d.value| < reach := by
    rcases plainText_cases d with ⟨below, _⟩ | ⟨_, refused⟩
    · exact below
    · rw [told] at refused
      cases refused
  constructor
  · rintro ⟨l, rfl, writes, _⟩
    cases zero : d.isZero with
    | true =>
      rw [(value_eq_zero_iff d).mpr zero]
      exact onGrid_zero _
    | false =>
      -- the text always tells what is left of the number
      obtain ⟨r, done, stripped, rounded⟩ := normalize_of_room below
      rw [plainText_of_some zero, done] at told
      obtain ⟨l', text, sign, cut⟩ := exists_literal stripped.low
      have one : l.text = l'.text := by
        rw [← text]
        exact (String.ofList_inj.mp (Except.ok.inj told)).symm
      have same := value_of_cut sign cut
      rw [← Literal.eq_of_text one, writes.value] at same
      exact ⟨_, same.trans rounded⟩
  · intro grid
    obtain ⟨s', told', shown⟩ := plainText_shows below grid
    rw [told] at told'
    cases told'
    exact shown

/-- A literal of a positive number in the range of places is taken as the amount without trailing
zeros. -/
theorem readAmount_literal {l : Literal} (readable : l.value.admissible = true) {d : Decimal}
    (same : l.value.value = d.value) (positive : 0 < d.value) (inside : d.InPlaces) :
    readAmount (String.ofList l.text) = .ok d.reduce := by
  have some : d.value ≠ 0 := positive.ne'
  have beyond : d.isZero = false := by rwa [← Bool.not_eq_true, ← value_eq_zero_iff]
  have beyond' : l.value.isZero = false := by
    rwa [← Bool.not_eq_true, ← value_eq_zero_iff, same]
  have least : emin ≤ l.value.adjusted := by
    have place := place_value beyond'
    rw [same, place_value beyond] at place
    rw [← place]
    exact (inside.resolve_left (by rw [beyond]; exact Bool.false_ne_true)).1
  have bare : Text.trim (String.ofList l.text) = String.ofList l.text := by
    rw [Text.trim, String.toList_ofList,
      Text.trimChars_of_visible fun c member => (l.plain_text c member).1]
  have read := l.read_text
  rw [if_pos readable, ← bare] at read
  have below := inside.tellable.below
  rw [abs_of_pos positive] at below
  rcases readAmount_cases (String.ofList l.text) with ⟨unread, _⟩ | ⟨v, read', cases⟩
  · rw [read] at unread
    cases unread
  rw [read] at read'
  cases read'
  rw [same] at cases
  rcases cases with ⟨low, _⟩ | ⟨_, high, _⟩ | ⟨_, _, r, done, taken⟩
  · exact absurd positive (not_lt.mpr low)
  · exact absurd below (not_lt.mpr high)
  · have value : r.value = d.value := (taken.kept least).trans same
    rw [done, taken.stripped.unique (stripped_reduce d) (by rwa [value]) (by rw [value, value_reduce])]

/-- The plain texts of two numbers in the range of places, in whatever form they are, are the same
exactly if the numbers are. Such a text is nothing but the digits that the number takes. Unless
there are more digits than any number can be asked to keep, it is read as the number again, and as
an amount, if the number is positive, in the form that has no trailing zeros. -/
theorem plainText_canonical {a b : Decimal} (inside : a.InPlaces) (inside' : b.InPlaces) :
    ∃ s t, a.plainText = .ok s ∧ b.plainText = .ok t ∧ (s = t ↔ a.value = b.value) ∧
      PlainDigits s ∧
      (a.digitCount ≤ widestPrecision →
        (∃ r, Decimal.read s = some r ∧ r.value = a.value) ∧
        (0 < a.value → readAmount s = .ok a.reduce)) := by
  obtain ⟨s, told, shown⟩ := inside.tellable.shows
  obtain ⟨t, told', shown'⟩ := inside'.tellable.shows
  refine ⟨s, t, told, told', ⟨?_, ?_⟩, shown.plainDigits, ?_⟩
  · rintro rfl
    exact shown.value_unique shown'
  · intro same
    rw [same] at shown
    exact shown.unique shown'
  · intro few
    have grid := onGrid_lowestExponent inside few
    have tellable := inside.tellable
    obtain ⟨l, rfl, writes, last⟩ := shown
    rw [← writes.value] at grid tellable
    have readable := Literal.admissible_of_tellable last tellable grid
    constructor
    · exact ⟨l.value, by rw [l.read_text, if_pos readable], writes.value⟩
    · exact fun positive => readAmount_literal readable writes.value positive inside

/-- One and a half with more digits than usual, and zeros at their end. -/
def longSpelling : Decimal := ⟨false, 1500000000000000000000000000000000, -33⟩

theorem longSpelling_canonical :
    longSpelling.InPlaces ∧ (⟨false, 15, -1⟩ : Decimal).InPlaces ∧
      longSpelling.plainText = .ok "1.5" ∧ (⟨false, 15, -1⟩ : Decimal).plainText = .ok "1.5" ∧
      readAmount "1.5" = .ok ⟨false, 15, -1⟩ := by
  have inside : longSpelling.InPlaces := by decide +kernel
  have inside' : (⟨false, 15, -1⟩ : Decimal).InPlaces := by decide +kernel
  have told : (⟨false, 15, -1⟩ : Decimal).plainText = .ok "1.5" := by decide +kernel
  have same : longSpelling.value = 3 / 2 := by norm_num [longSpelling, value, signed]
  have same' : (⟨false, 15, -1⟩ : Decimal).value = 3 / 2 := by norm_num [value, signed]
  obtain ⟨s, t, told', told'', one, _, read⟩ := plainText_canonical inside inside'
  obtain rfl := one.mpr (same.trans same'.symm)
  rw [told] at told''
  cases told''
  obtain ⟨_, amount⟩ := read (by decide +kernel)
  have bare : longSpelling.reduce = ⟨false, 15, -1⟩ := by decide +kernel
  rw [bare] at amount
  exact ⟨inside, inside', told', told, amount (by rw [same]; norm_num)⟩

end Decimal
end QuoteDesk
