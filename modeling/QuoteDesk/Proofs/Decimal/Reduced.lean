import QuoteDesk.Proofs.Decimal.Places

/-
Numbers without trailing zeros. With room for all its digits a number loses none of them in front
of the last place that there is, and a number in the range of places none at all; what is taken off
its end are zeros only, and all of them. Only numbers out of reach have no text.
-/
namespace QuoteDesk

namespace Digits

/-- Nothing but zeros is taken off. -/
theorem stripBase_mul (b n : ℕ) : (stripBase b n).1 * b ^ (stripBase b n).2 = n := by
  induction b using stripBase.induct n with
  | case1 b divisible smaller m k stripped exact ih =>
    rw [stripped] at ih
    rw [stripBase, dif_pos divisible]
    simp only [stripped, if_pos exact]
    calc m / b * b ^ (2 * k + 1) = m / b * b * (b * b) ^ k := by
          rw [Nat.pow_succ, Nat.pow_mul, Nat.pow_two, Nat.mul_assoc, Nat.mul_comm _ b]
      _ = m * (b * b) ^ k := by rw [Nat.div_mul_cancel (Nat.dvd_of_mod_eq_zero exact)]
      _ = n := ih
  | case2 b divisible smaller m k stripped rest ih =>
    rw [stripped] at ih
    rw [stripBase, dif_pos divisible]
    simp only [stripped, if_neg rest]
    rw [Nat.pow_mul, Nat.pow_two]
    exact ih
  | case3 b bare =>
    rw [stripBase, dif_neg bare]
    exact Nat.mul_one n

/-- No zero is left at the end. -/
theorem stripBase_mod {b n : ℕ} (base : 2 ≤ b) (some : n ≠ 0) : (stripBase b n).1 % b ≠ 0 := by
  induction b using stripBase.induct n with
  | case1 b divisible smaller m k stripped exact ih =>
    have square : 2 ≤ b * b := Nat.le_trans base (Nat.le_mul_of_pos_left b (by omega))
    have rest := ih square
    rw [stripped] at rest
    rw [stripBase, dif_pos divisible]
    simp only [stripped, if_pos exact]
    intro zero
    -- the second zero would have been taken off with the square
    have parts := Nat.div_mul_cancel (Nat.dvd_of_mod_eq_zero exact)
    have parts' := Nat.div_mul_cancel (Nat.dvd_of_mod_eq_zero zero)
    rw [← parts, ← parts', Nat.mul_assoc, Nat.mul_mod_left] at rest
    exact rest rfl
  | case2 b divisible smaller m k stripped rest ih =>
    rw [stripBase, dif_pos divisible]
    simpa only [stripped, if_neg rest] using rest
  | case3 b bare =>
    rw [stripBase, dif_neg bare]
    intro zero
    exact bare ⟨base, some, zero⟩

end Digits

namespace Decimal

/-- No zero stands at the end of the digits; zero itself stands at exponent zero. -/
def Stripped (d : Decimal) : Prop := if d.isZero then d.exponent = 0 else d.coefficient % 10 ≠ 0

theorem reduce_of_some {d : Decimal} (some : d.isZero = false) :
    d.reduce = ⟨d.negative, (Digits.stripBase 10 d.coefficient).1,
      d.exponent + (Digits.stripBase 10 d.coefficient).2⟩ := by
  rw [reduce, some, if_neg Bool.false_ne_true]

theorem value_reduce (d : Decimal) : d.reduce.value = d.value := by
  cases zero : d.isZero with
  | true =>
    have nothing : d.reduce.isZero = true := by
      rw [reduce, if_pos zero]
      exact zero
    rw [(value_eq_zero_iff d).mpr zero, (value_eq_zero_iff _).mpr nothing]
  | false =>
    have stripped := Digits.stripBase_mul 10 d.coefficient
    rw [reduce_of_some zero]
    generalize Digits.stripBase 10 d.coefficient = parts at stripped ⊢
    have whole : d.signed =
        (⟨d.negative, parts.1, d.exponent⟩ : Decimal).signed * 10 ^ parts.2 := by
      rw [signed, signed, ← stripped]
      cases d.negative <;> push_cast <;> simp
    rw [value, value, whole, zpow_add₀ (by norm_num), zpow_natCast]
    push_cast
    rw [signed, signed]
    ring

theorem stripped_reduce (d : Decimal) : d.reduce.Stripped := by
  cases zero : d.isZero with
  | true =>
    have shape : d.reduce = { d with exponent := 0 } := by rw [reduce, if_pos zero]
    have nothing : ({ d with exponent := 0 } : Decimal).isZero = true := zero
    rw [shape, Stripped, if_pos nothing]
  | false =>
    have some : d.coefficient ≠ 0 := beq_eq_false_iff_ne.mp zero
    have last := Digits.stripBase_mod (b := 10) (by decide) some
    have beyond : d.reduce.isZero = false := by
      rw [isZero, beq_eq_false_iff_ne, reduce_of_some zero]
      intro nothing
      have none : (Digits.stripBase 10 d.coefficient).1 = 0 := nothing
      rw [none] at last
      exact last rfl
    rw [Stripped, if_neg (by rw [beyond]; exact Bool.false_ne_true), reduce_of_some zero]
    exact last

/-! Room for all digits -/

/-- With room for all digits, a number whose leading digit is in the range of places loses none of
them. -/
theorem onGrid_etiny {p : ℕ} {d : Decimal} (few : d.digitCount ≤ p) (least : emin ≤ d.adjusted) :
    OnGrid (etiny p) d.value := by
  apply (onGrid_value d).mono
  have leading : d.adjusted = d.exponent + d.digitCount - 1 := rfl
  rw [etiny]
  omega

/-- With room for all digits a number in reach is rounded at the lowest place only. -/
theorem fit_of_room {p : ℕ} (digits : 1 ≤ p) {d : Decimal} (few : d.digitCount ≤ p)
    (below : |d.value| < reach) :
    ∃ r, fit p d = .ok r ∧ r.value = wholeNearest (d.value / 10 ^ etiny p) * 10 ^ etiny p := by
  cases zero : d.isZero with
  | true =>
    refine ⟨_, fit_zero p d zero, ?_⟩
    have whole : wholeNearest 0 = 0 := wholeNearest_intCast 0
    rw [(value_eq_zero_iff d).mpr zero, zero_div, whole, Int.cast_zero, zero_mul, value_eq_zero_iff]
    exact zero
  | false =>
    have within : ¬ emax < d.adjusted := by
      rw [reach, lt_zpow_iff (value_ne_zero zero), place_value zero] at below
      omega
    have leading : d.adjusted = d.exponent + d.digitCount - 1 := rfl
    rw [fit, zero, if_neg Bool.false_ne_true, if_neg within]
    rcases le_or_gt (etiny p) d.exponent with low | above
    · refine ⟨d, if_pos (max_le (by omega) low), ?_⟩
      exact (rounds_halfEven.of_grid ((onGrid_value d).mono low)).symm
    · have lowest : max (d.adjusted - (p - 1)) (etiny p) = etiny p := max_eq_right (by omega)
      have count : (d.toExponent .halfEven (etiny p)).digitCount ≤ p :=
        digitCount_toExponent_le .halfEven digits (by omega)
      have inside : (d.toExponent .halfEven (etiny p)).adjusted ≤ emax := by
        have order : emin ≤ emax := by decide
        have bottom : etiny p = emin - (p - 1) := rfl
        rw [adjusted, exponent_toExponent]
        omega
      refine ⟨_, ?_, rounds_halfEven.value_toExponent d (etiny p)⟩
      rw [lowest, if_neg (not_le.mpr above)]
      dsimp only
      rw [if_neg (not_lt.mpr count)]
      apply if_neg
      simp [inside]

/-- The leading digit is in the range of places, and at neither end of it. -/
structure Inside (d : Decimal) : Prop where
  least : emin < d.adjusted
  most : d.adjusted < emax

/-- With room for all digits nothing is rounded. -/
theorem fit_exact {p : ℕ} (digits : 1 ≤ p) {d : Decimal} (few : d.digitCount ≤ p)
    (inside : d.Inside) : ∃ r, fit p d = .ok r ∧ r.adjusted ≤ emax ∧ r.value = d.value := by
  obtain ⟨r, fitted, rounded⟩ := fit_of_room digits few (lt_reach_of_adjusted inside.most.le)
  rw [rounds_halfEven.of_grid (onGrid_etiny few inside.least.le)] at rounded
  exact ⟨r, fitted, within_of_fit digits fitted, rounded⟩

/-- The last place that a number keeps when it is rounded with room for all its digits. -/
def bottom (d : Decimal) : ℤ := etiny (widePrecision d)

theorem normalize_of_room {d : Decimal} (below : |d.value| < reach) :
    ∃ r, normalize (widePrecision d) d = .ok r ∧ r.Stripped ∧
      r.value = wholeNearest (d.value / 10 ^ bottom d) * 10 ^ bottom d := by
  have digits : 1 ≤ widePrecision d := le_trans (by decide) (Nat.le_max_left precision _)
  obtain ⟨r, fitted, rounded⟩ := fit_of_room digits (Nat.le_max_right _ _) below
  refine ⟨r.reduce, ?_, stripped_reduce r, (value_reduce r).trans rounded⟩
  rw [normalize, fitted]
  rfl

theorem normalize_refused {d : Decimal} (beyond : reach ≤ |d.value|) :
    normalize (widePrecision d) d = .error .overflow := by
  have digits : 1 ≤ widePrecision d := le_trans (by decide) (Nat.le_max_left precision _)
  rcases fit_cases_of_room digits (Nat.le_max_right _ _) with ⟨below, _⟩ | ⟨_, refused⟩
  · exact absurd below (not_lt.mpr beyond)
  · rw [normalize, refused]
    rfl

theorem plainText_of_some {d : Decimal} (some : d.isZero = false) :
    d.plainText = (normalize (widePrecision d) d).map toFixed := by
  rw [plainText, some, if_neg Bool.false_ne_true]

theorem plainText_cases (d : Decimal) :
    (|d.value| < reach ∧ ∃ s, d.plainText = .ok s) ∨
      (¬ |d.value| < reach ∧ d.plainText = .error .overflow) := by
  cases zero : d.isZero with
  | true =>
    have small : |d.value| < reach := by
      rw [(value_eq_zero_iff d).mpr zero, abs_zero]
      exact reach_pos
    exact .inl ⟨small, _, plainText_zero d zero⟩
  | false =>
    rw [plainText_of_some zero]
    rcases lt_or_ge |d.value| reach with below | beyond
    · obtain ⟨r, done, _⟩ := normalize_of_room below
      exact .inl ⟨below, _, by rw [done]; rfl⟩
    · exact .inr ⟨not_lt.mpr beyond, by rw [normalize_refused beyond]; rfl⟩

theorem exists_plainText {d : Decimal} (below : |d.value| < reach) : ∃ s, d.plainText = .ok s := by
  rcases plainText_cases d with ⟨_, told⟩ | ⟨beyond, _⟩
  · exact told
  · exact absurd below beyond

theorem bottom_le_emin (d : Decimal) : bottom d ≤ emin := by
  have digits : precision ≤ widePrecision d := Nat.le_max_left _ _
  have some : 1 ≤ precision := by decide
  rw [bottom, etiny]
  omega

theorem onGrid_bottom {d : Decimal} (least : emin ≤ d.adjusted) : OnGrid (bottom d) d.value :=
  onGrid_etiny (Nat.le_max_right _ _) least

end Decimal
end QuoteDesk
