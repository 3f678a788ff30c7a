import QuoteDesk.Proofs.Decimal.Shown

/-
Numbers that keep all their digits in their text, whatever form they have: those whose leading
digit is in the range of places, and all results of arithmetic. Two forms of such a number have one
text, and what is read from it is a number again.
-/
namespace QuoteDesk

namespace Decimal

/-- Rounding leaves no place below the lowest one. -/
theorem etiny_le_of_fit {p : ℕ} {d r : Decimal} (fitted : fit p d = .ok r) :
    etiny p ≤ r.exponent := by
  unfold fit at fitted
  split at fitted
  · cases fitted
    exact le_max_left _ _
  · split at fitted
    · cases fitted
    · dsimp only at fitted
      split at fitted
      · rename_i room
        cases fitted
        exact (le_max_right _ _).trans room
      · have lowest := exponent_toExponent .halfEven (max (d.adjusted - (p - 1)) (etiny p)) d
        generalize d.toExponent .halfEven (max (d.adjusted - (p - 1)) (etiny p)) = cut at fitted lowest
        have bottom : etiny p ≤ cut.exponent := lowest ▸ le_max_right _ _
        split at fitted
        · split at fitted
          · cases fitted
          · cases fitted
            exact bottom.trans (lt_add_one _).le
        · split at fitted
          · cases fitted
          · cases fitted
            exact bottom

/-- No digit of the number is out of the reach of its text. -/
structure Tellable (q : ℚ) : Prop where
  below : |q| < reach
  above : emin ≤ place q ∨ OnGrid (etiny precision) q

theorem tellable_of_fit {d r : Decimal} (fitted : fit precision d = .ok r) : Tellable r.value := by
  constructor
  · exact lt_reach_of_adjusted (within_of_fit (by decide) fitted)
  · right
    exact (onGrid_value r).mono (etiny_le_of_fit fitted)

theorem onGrid_zero (k : ℤ) : OnGrid k 0 := ⟨0, by rw [Int.cast_zero, zero_mul]⟩

/-- Zero, or a number with its leading digit in the range of places. -/
def InPlaces (d : Decimal) : Prop := d.isZero = true ∨ (emin ≤ d.adjusted ∧ d.adjusted ≤ emax)

instance (d : Decimal) : Decidable d.InPlaces := inferInstanceAs (Decidable (_ ∨ _))

theorem InPlaces.tellable {d : Decimal} (inside : d.InPlaces) : Tellable d.value := by
  cases zero : d.isZero with
  | true =>
    rw [(value_eq_zero_iff d).mpr zero]
    exact ⟨abs_zero (α := ℚ) ▸ reach_pos, .inr (onGrid_zero _)⟩
  | false =>
    have some : ¬ d.isZero = true := by rw [zero]; exact Bool.false_ne_true
    obtain ⟨least, most⟩ := inside.resolve_left some
    refine ⟨lt_reach_of_adjusted most, .inl ?_⟩
    rwa [place_value zero]

variable {a b d : Decimal}

theorem bottom_le_etiny (d : Decimal) : bottom d ≤ etiny precision := by
  have digits : precision ≤ widePrecision d := Nat.le_max_left _ _
  rw [bottom, etiny, etiny]
  omega

theorem Tellable.shows (tellable : Tellable d.value) :
    ∃ s, d.plainText = .ok s ∧ ShowsShort s d.value := by
  apply plainText_shows tellable.below
  rcases tellable.above with least | grid
  · cases zero : d.isZero with
    | true =>
      rw [(value_eq_zero_iff d).mpr zero]
      exact onGrid_zero _
    | false =>
      rw [place_value zero] at least
      exact onGrid_bottom least
  · exact grid.mono (bottom_le_etiny d)

/-- The text of such a number depends on the number only. -/
theorem Tellable.plainText_eq (tellable : Tellable a.value) (same : a.value = b.value) :
    a.plainText = b.plainText := by
  obtain ⟨s, told, shown⟩ := tellable.shows
  rw [same] at tellable shown
  obtain ⟨s', told', shown'⟩ := tellable.shows
  rw [told, told', shown.unique shown']

end Decimal

namespace Literal

open Decimal

/-- A number takes no more places than there are on its grid. -/
theorem length_fraction_le {l : Literal} {k : ℤ} (last : l.fraction.getLast? ≠ some '0')
    (grid : OnGrid k l.value.value) (low : k ≤ 0) : (l.fraction.length : ℤ) ≤ -k := by
  by_contra more
  obtain ⟨n, longer⟩ : ∃ n : ℕ, (l.fraction.length : ℤ) + k = n + 1 :=
    ⟨(l.fraction.length + k - 1).toNat, by omega⟩
  obtain ⟨i, same⟩ := grid
  -- then the digits are a multiple of ten
  have tenfold : Numeral.readNat (l.whole ++ l.fraction) = i.natAbs * 10 ^ n * 10 := by
    have sizes := congrArg (|·|) same
    rw [abs_value_value, abs_mul, abs_of_pos (ten_zpow_pos k), div_eq_iff (by positivity), mul_assoc,
      ← zpow_natCast, ← zpow_add₀ (by norm_num), add_comm k, longer, zpow_add_one₀ (by norm_num),
      zpow_natCast] at sizes
    have sizes : (Numeral.readNat (l.whole ++ l.fraction) : ℤ) = |i| * (10 ^ n * 10) := by
      exact_mod_cast sizes
    rw [Int.abs_eq_natAbs] at sizes
    rw [Nat.mul_assoc]
    exact_mod_cast sizes
  rcases List.eq_nil_or_concat l.fraction with none | ⟨front, c, split⟩
  · rw [none, List.length_nil] at more
    omega
  · rw [List.concat_eq_append] at split
    have digit := (Text.isDigit_iff c).mp (l.fractionDigits c (by rw [split]; simp))
    have some : c ≠ '0' := by
      intro zero
      rw [split, List.getLast?_concat, zero] at last
      exact last rfl
    have code : c.toNat ≠ 48 := by
      intro zero
      exact some (Char.toNat_inj.mp zero)
    have unit : Numeral.readNat [c] = c.toNat - 48 := by
      simp [Numeral.readNat, Numeral.digitsOf, Digits.read]
    rw [split, ← List.append_assoc, Numeral.readNat_append, List.length_singleton, unit] at tenfold
    omega

/-- What a text of such a number says is a number that can be read. -/
theorem admissible_of_tellable {l : Literal} (last : l.fraction.getLast? ≠ some '0')
    (tellable : Tellable l.value.value) (grid : OnGrid lowestExponent l.value.value) :
    l.value.admissible = true := by
  have places := length_fraction_le last grid (by decide)
  exact admissible_of_reach tellable.below (by omega)

end Literal
end QuoteDesk
