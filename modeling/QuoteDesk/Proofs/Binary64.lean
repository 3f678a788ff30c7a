import QuoteDesk.Binary64
import QuoteDesk.Proofs.Decimal.Value

/-
Quotients of natural numbers in binary. The exponent is chosen so that the quotient has 53 bits
before its point, or is the lowest one; numbers with a higher exponent are then whole multiples of
its power of two, those with a lower one lie below all quotients with 53 bits. So the nearest
multiple is the nearest of all numbers.
-/
namespace QuoteDesk.Binary64

def value (x : Binary64) : ℚ := (if x.negative then -1 else 1) * x.mantissa * 2 ^ x.exponent

/-- A mantissa of 53 bits at most, and an exponent in range. -/
structure Fits (x : Binary64) : Prop where
  mantissa : x.mantissa < 2 ^ 53
  lowest : lowestExponent ≤ x.exponent
  highest : x.exponent ≤ highestExponent

/-- No other number is nearer; if one is as near, the mantissa is even. -/
structure Nearest (x : Binary64) (q : ℚ) : Prop where
  fits : x.Fits
  least : ∀ y : Binary64, y.Fits → |x.value - q| ≤ |y.value - q|
  even : ∀ y : Binary64, y.Fits → |y.value - q| ≤ |x.value - q| → y.value = x.value ∨ Even x.mantissa

/-! Powers of two -/

theorem two_zpow_pos (k : ℤ) : (0 : ℚ) < 2 ^ k := zpow_pos (by norm_num) k

theorem two_zpow_mono {k l : ℤ} (low : k ≤ l) : (2 : ℚ) ^ k ≤ 2 ^ l :=
  zpow_le_zpow_right₀ (by norm_num) low

theorem two_zpow_split {k l : ℤ} (low : l ≤ k) : (2 : ℚ) ^ k = 2 ^ (k - l).toNat * 2 ^ l := by
  have room : ((k - l).toNat : ℤ) = k - l := Int.toNat_of_nonneg (by omega)
  rw [← zpow_natCast, room, ← zpow_add₀ (by norm_num : (2 : ℚ) ≠ 0)]
  congr 1
  omega

theorem two_zpow_add_nat (k : ℤ) (n : ℕ) : (2 : ℚ) ^ (k + n) = 2 ^ n * 2 ^ k := by
  rw [zpow_add₀ (by norm_num : (2 : ℚ) ≠ 0), zpow_natCast, mul_comm]

theorem two_zpow_succ (k : ℤ) : (2 : ℚ) ^ (k + 1) = 2 * 2 ^ k := by
  rw [zpow_add_one₀ (by norm_num : (2 : ℚ) ≠ 0), mul_comm]

theorem timesPower_div (n d : ℕ) (e : ℤ) :
    ((timesPower n d e).1 : ℚ) / (timesPower n d e).2 = n / d * 2 ^ e := by
  have power : (2 : ℚ) ^ e = 2 ^ e.toNat / 2 ^ (-e).toNat := by
    have parts : e = e.toNat - (-e).toNat := (Int.toNat_sub_toNat_neg e).symm
    conv_lhs => rw [parts, zpow_sub₀ (by norm_num : (2 : ℚ) ≠ 0), zpow_natCast, zpow_natCast]
  simp only [timesPower, Nat.cast_mul, Nat.cast_pow, Nat.cast_ofNat]
  rw [power, mul_div_mul_comm]

theorem timesPower_pos {d : ℕ} (positive : 0 < d) (n : ℕ) (e : ℤ) : 0 < (timesPower n d e).2 :=
  Nat.mul_pos positive (Nat.two_pow_pos _)

/-! The exponent -/

theorem log2_bounds {n : ℕ} (some : 0 < n) : (2 : ℚ) ^ n.log2 ≤ n ∧ (n : ℚ) < 2 * 2 ^ n.log2 := by
  have low : 2 ^ n.log2 ≤ n := Nat.log2_self_le (by omega)
  have high : n < 2 * 2 ^ n.log2 := by
    have next := Nat.lt_log2_self (n := n)
    rw [Nat.pow_succ] at next
    omega
  exact ⟨by exact_mod_cast low, by exact_mod_cast high⟩

/-- The logarithms place the quotient within a factor of four. -/
theorem quotient_bounds {n d : ℕ} (some : 0 < n) (positive : 0 < d) :
    (2 : ℚ) ^ ((n.log2 : ℤ) - d.log2) < 2 * (n / d) ∧
      (n / d : ℚ) < 2 * 2 ^ ((n.log2 : ℤ) - d.log2) := by
  obtain ⟨low, high⟩ := log2_bounds some
  obtain ⟨low', high'⟩ := log2_bounds positive
  have beyond : (0 : ℚ) < d := by exact_mod_cast positive
  have unit : (0 : ℚ) < 2 ^ d.log2 := by positivity
  rw [zpow_sub₀ (by norm_num : (2 : ℚ) ≠ 0), zpow_natCast, zpow_natCast]
  constructor
  · rw [← mul_div_assoc, div_lt_div_iff₀ unit beyond]
    calc (2 : ℚ) ^ n.log2 * d < 2 ^ n.log2 * (2 * 2 ^ d.log2) := by
          exact mul_lt_mul_of_pos_left high' (by positivity)
      _ ≤ n * (2 * 2 ^ d.log2) := by gcongr
      _ = 2 * n * 2 ^ d.log2 := by ring
  · rw [← mul_div_assoc, div_lt_div_iff₀ beyond unit]
    calc (n : ℚ) * 2 ^ d.log2 < 2 * 2 ^ n.log2 * 2 ^ d.log2 := by gcongr
      _ ≤ 2 * 2 ^ n.log2 * d := by gcongr

/-- The quotient has at most 53 bits before its point, and no fewer above the lowest exponent. -/
theorem exponentOf_bounds {n d : ℕ} (some : 0 < n) (positive : 0 < d) :
    lowestExponent ≤ exponentOf n d ∧ (n / d : ℚ) < 2 ^ 53 * 2 ^ exponentOf n d ∧
      (exponentOf n d = lowestExponent ∨ 2 ^ 52 * 2 ^ exponentOf n d ≤ (n / d : ℚ)) := by
  obtain ⟨above, below⟩ := quotient_bounds some positive
  -- before it is held above the lowest one the exponent is that of 53 bits
  obtain ⟨e, chosen, most, least⟩ : ∃ e : ℤ, exponentOf n d = max e lowestExponent ∧
      (n / d : ℚ) < 2 ^ 53 * 2 ^ e ∧ 2 ^ 52 * 2 ^ e ≤ (n / d : ℚ) := by
    have scale := timesPower_div n d (-((n.log2 : ℤ) - d.log2 - 53 + 53))
    have pos := timesPower_pos positive n (-((n.log2 : ℤ) - d.log2 - 53 + 53))
    simp only [exponentOf]
    generalize timesPower n d (-((n.log2 : ℤ) - d.log2 - 53 + 53)) = ab at scale pos ⊢
    obtain ⟨a, b⟩ := ab
    generalize (n.log2 : ℤ) - d.log2 = l at above below scale ⊢
    have unit := two_zpow_pos l
    have shift : l - 53 + 53 = l := by ring
    have denominator : (0 : ℚ) < b := by exact_mod_cast pos
    have reached : b ≤ a ↔ (2 : ℚ) ^ l ≤ n / d := by
      rw [shift, zpow_neg, ← div_eq_mul_inv] at scale
      have ratio : (b : ℚ) ≤ a ↔ 1 ≤ (a : ℚ) / b := by rw [le_div_iff₀ denominator, one_mul]
      rw [← Nat.cast_le (α := ℚ), ratio, scale, le_div_iff₀ unit, one_mul]
    have top : (2 : ℚ) ^ l = 2 ^ 53 * 2 ^ (l - 53) := by
      rw [← two_zpow_add_nat]
      congr 1
      omega
    have next := two_zpow_succ (l - 53)
    refine ⟨if b ≤ a then l - 53 + 1 else l - 53, rfl, ?_⟩
    split
    · rename_i held
      have least := reached.mp held
      rw [next]
      constructor
      · linarith
      · linarith
    · rename_i short
      have most := lt_of_not_ge fun least => short (reached.mpr least)
      constructor
      · linarith
      · linarith
  rw [chosen]
  refine ⟨le_max_right _ _, ?_, ?_⟩
  · refine most.trans_le ?_
    exact mul_le_mul_of_nonneg_left (two_zpow_mono (le_max_left _ _)) (by positivity)
  · rcases le_total e lowestExponent with under | above
    · exact .inl (max_eq_right under)
    · rw [max_eq_left above]
      exact .inr least

/-! Rounding -/

/-- Of all multiples of a unit the rounded one is nearest. -/
theorem near_multiple {s q unit : ℚ} (positive : 0 < unit) (scaled : q = s * unit) {m : ℤ}
    (near : Decimal.Near s m) (k : ℤ) :
    |m * unit - q| ≤ |k * unit - q| ∧ (|k * unit - q| ≤ |m * unit - q| → k = m ∨ Even m) := by
  have distance : ∀ i : ℤ, |i * unit - q| = |s - i| * unit := by
    intro i
    rw [scaled, ← sub_mul, abs_mul, abs_of_pos positive, abs_sub_comm]
  rw [distance, distance]
  by_cases same : k = m
  · subst same
    exact ⟨le_refl _, fun _ => .inl rfl⟩
  · have apart : (1 : ℚ) ≤ |s - k| + |s - m| := by
      have whole : (1 : ℚ) ≤ |((k - m : ℤ) : ℚ)| := by
        rw [← Int.cast_abs]
        exact_mod_cast Int.one_le_abs (sub_ne_zero.mpr same)
      have triangle := abs_sub_le (s - m) 0 (s - k)
      have parts : ((k - m : ℤ) : ℚ) = (s - m) - (s - k) := by
        push_cast
        ring
      rw [parts] at whole
      rw [sub_zero, zero_sub, abs_neg] at triangle
      linarith
    have close := near.le
    refine ⟨mul_le_mul_of_nonneg_right (by linarith) positive.le, ?_⟩
    intro closer
    have closer := le_of_mul_le_mul_right closer positive
    rcases near with less | ⟨_, even⟩
    · linarith
    · exact .inr even

theorem value_shift (negative : Bool) (m : ℕ) (e : ℤ) (i : ℕ) :
    (⟨negative, m, e + i⟩ : Binary64).value = (⟨negative, m, e⟩ : Binary64).value * 2 ^ i := by
  simp only [value, two_zpow_add_nat]
  ring

theorem unit_le_value {m : ℕ} (some : 0 < m) (e : ℤ) :
    (2 : ℚ) ^ e ≤ (⟨false, m, e⟩ : Binary64).value := by
  have one : (1 : ℚ) ≤ m := by exact_mod_cast some
  simpa [value] using le_mul_of_one_le_left (two_zpow_pos e).le one

theorem value_le {y : Binary64} (fits : y.Fits) : y.value ≤ 2 ^ 53 * 2 ^ y.exponent := by
  have unit := two_zpow_pos y.exponent
  have size : (y.mantissa : ℚ) ≤ 2 ^ 53 := by exact_mod_cast fits.mantissa.le
  have some : (0 : ℚ) ≤ y.mantissa := by positivity
  unfold value
  refine mul_le_mul_of_nonneg_right ?_ unit.le
  split
  · linarith
  · linarith

/-- A number is a multiple of the unit, or one of the multiples is nearer. -/
theorem exists_multiple {y : Binary64} (fits : y.Fits) {q : ℚ} {e : ℤ}
    (least : e = lowestExponent ∨ 2 ^ 52 * 2 ^ e ≤ q) :
    ∃ k : ℤ, y.value = k * 2 ^ e ∨ |k * 2 ^ e - q| < |y.value - q| := by
  rcases le_or_gt e y.exponent with coarse | fine
  · refine ⟨(if y.negative then -1 else 1) * y.mantissa * 2 ^ (y.exponent - e).toNat, .inl ?_⟩
    rw [value, two_zpow_split coarse]
    push_cast
    ring
  · -- with a lower exponent it lies at or below the least number of 53 bits
    have lowest := fits.lowest
    have enough : 2 ^ 52 * 2 ^ e ≤ q := by
      rcases least with equal | enough
      · omega
      · exact enough
    have doubled : (2 : ℚ) ^ (y.exponent + 1) ≤ 2 ^ e := two_zpow_mono (by omega)
    rw [two_zpow_succ] at doubled
    have most := value_le fits
    have under : y.value ≤ 2 ^ 52 * 2 ^ e := by linarith
    refine ⟨2 ^ 52, ?_⟩
    push_cast
    rcases under.lt_or_eq with less | equal
    · rw [abs_of_nonpos (by linarith), abs_of_nonpos (by linarith)]
      exact .inr (by linarith)
    · exact .inl equal

/-- A quotient is rounded at its exponent. Up to the next power of two it is written with one bit
less, and past the highest exponent there is nothing. -/
theorem exists_rounded {n d : ℕ} (negative : Bool) (some : 0 < n) (positive : 0 < d) :
    ∃ m : ℕ, Decimal.Near (n / d * 2 ^ (-exponentOf n d)) m ∧ m ≤ 2 ^ 53 ∧
      nearest negative n d =
        if m = 2 ^ 53 then
          if highestExponent < exponentOf n d + 1 then none
          else .some ⟨negative, 2 ^ 52, exponentOf n d + 1⟩
        else if highestExponent < exponentOf n d then none
        else .some ⟨negative, m, exponentOf n d⟩ := by
  obtain ⟨_, most, _⟩ := exponentOf_bounds some positive
  have scale := timesPower_div n d (-exponentOf n d)
  have pos := timesPower_pos positive n (-exponentOf n d)
  simp only [nearest, Nat.ne_of_gt some, ↓reduceIte]
  generalize timesPower n d (-exponentOf n d) = ab at scale pos
  obtain ⟨a, b⟩ := ab
  dsimp only at scale pos ⊢
  have near : Decimal.Near (n / d * 2 ^ (-exponentOf n d)) (Rounding.halfEven.divide false a b) := by
    rw [Decimal.wholeNearest_divide false a pos, scale]
    exact Decimal.near_wholeNearest _
  generalize Rounding.halfEven.divide false a b = m at near
  generalize exponentOf n d = e at most near
  have small : m ≤ 2 ^ 53 := by
    have close := (abs_le.mp near.le).1
    have inside : (n / d : ℚ) * 2 ^ (-e) < 2 ^ 53 := by
      rw [zpow_neg, ← div_eq_mul_inv, div_lt_iff₀ (two_zpow_pos e)]
      exact most
    have bound : ((m : ℤ) : ℚ) < 2 ^ 53 + 1 := by linarith
    have bound : m < 2 ^ 53 + 1 := by exact_mod_cast bound
    omega
  refine ⟨m, near, small, ?_⟩
  by_cases carried : m = 2 ^ 53
  · have half : 2 ^ 53 / 2 = 2 ^ 52 := by norm_num
    rw [carried, if_pos le_rfl, half, if_pos rfl]
  · have plain : ¬ 2 ^ 53 ≤ m := by omega
    rw [if_neg carried, if_neg plain]

/-- The parts of a quotient that has a nearest number. -/
theorem nearest_parts {negative : Bool} {n d : ℕ} {x : Binary64} (some : 0 < n) (positive : 0 < d)
    (found : nearest negative n d = .some x) :
    ∃ m : ℕ, Decimal.Near (n / d * 2 ^ (-exponentOf n d)) m ∧ x.negative = negative ∧ x.Fits ∧
      (x.mantissa : ℚ) * 2 ^ x.exponent = m * 2 ^ exponentOf n d ∧ (Even (m : ℤ) → Even x.mantissa) := by
  obtain ⟨lowest, _, _⟩ := exponentOf_bounds some positive
  obtain ⟨m, near, small, rounded⟩ := exists_rounded negative some positive
  rw [rounded] at found
  refine ⟨m, near, ?_⟩
  split at found
  · rename_i carried
    split at found
    · cases found
    · rename_i bounded
      cases found
      refine ⟨rfl, ⟨by norm_num, by dsimp only; omega, by dsimp only; omega⟩, ?_,
        fun _ => (by decide : Even (2 ^ 52))⟩
      rw [two_zpow_succ, carried]
      push_cast
      ring
  · rename_i plain
    split at found
    · cases found
    · rename_i bounded
      cases found
      refine ⟨rfl, ⟨by dsimp only; omega, lowest, by dsimp only; omega⟩, rfl, ?_⟩
      intro even
      exact_mod_cast even

/-- A quotient is rounded to the nearest number there is. -/
theorem nearest_of_eq_some {n d : ℕ} {x : Binary64} (positive : 0 < d)
    (found : nearest false n d = .some x) : x.Nearest (n / d) := by
  rcases Nat.eq_zero_or_pos n with zero | some
  · subst zero
    have here : (⟨false, 0, lowestExponent⟩ : Binary64) = x := Option.some.inj found
    subst here
    have nothing : (⟨false, 0, lowestExponent⟩ : Binary64).value = 0 := by simp [value]
    refine ⟨⟨by decide, by decide, by decide⟩, ?_, fun _ _ _ => .inr (by decide)⟩
    intro y _
    rw [nothing, Nat.cast_zero, zero_div, sub_zero, abs_zero]
    exact abs_nonneg _
  · obtain ⟨_, _, least⟩ := exponentOf_bounds some positive
    obtain ⟨m, near, sign, fits, same, even⟩ := nearest_parts some positive found
    generalize exponentOf n d = e at least near same
    have scaled : (n / d : ℚ) = n / d * 2 ^ (-e) * 2 ^ e := by
      rw [mul_assoc, ← zpow_add₀ (by norm_num : (2 : ℚ) ≠ 0), neg_add_cancel, zpow_zero, mul_one]
    have multiple := near_multiple (two_zpow_pos e) scaled near
    have shown : x.value = (m : ℤ) * 2 ^ e := by
      rw [value, sign, Int.cast_natCast, ← same]
      simp
    refine ⟨fits, ?_, ?_⟩
    · intro y fits
      rw [shown]
      obtain ⟨k, equal | nearer⟩ := exists_multiple fits least
      · rw [equal]
        exact (multiple k).1
      · exact (multiple k).1.trans nearer.le
    · intro y fits closer
      rw [shown] at closer ⊢
      obtain ⟨k, equal | nearer⟩ := exists_multiple fits least
      · rw [equal] at closer ⊢
        rcases (multiple k).2 closer with rfl | even'
        · exact .inl rfl
        · exact .inr (even even')
      · have further := (multiple k).1
        linarith

/-! Past the largest number -/

/-- Half a unit past the largest number. -/
def overflow : ℚ := 2 ^ 1024 - 2 ^ 970

theorem overflow_eq : overflow = (2 ^ 53 - 1 / 2) * 2 ^ highestExponent := by
  have power : (2 : ℚ) ^ highestExponent = 2 ^ 971 := by
    rw [highestExponent, ← zpow_natCast]
    rfl
  have top : (2 : ℚ) ^ 1024 = 2 ^ 53 * 2 ^ 971 := by rw [← pow_add]
  have half : (2 : ℚ) ^ 971 = 2 * 2 ^ 970 := by rw [pow_succ']
  rw [overflow, power, top, half]
  generalize (2 : ℚ) ^ 970 = unit
  ring

/-- From half a unit below it on a number is rounded to a power of two, which is even. -/
theorem eq_top_iff_of_near {s : ℚ} {m : ℕ} (near : Decimal.Near s m) (small : m ≤ 2 ^ 53) :
    m = 2 ^ 53 ↔ (2 ^ 53 - 1 / 2 : ℚ) ≤ s := by
  constructor
  · rintro rfl
    have close := (abs_le.mp near.le).1
    push_cast at close
    linarith
  · intro reached
    by_contra other
    have below : (m : ℚ) + 1 ≤ 2 ^ 53 := by exact_mod_cast (by omega : m + 1 ≤ 2 ^ 53)
    have close := (abs_le.mp near.le).2
    rcases near with less | ⟨_, even⟩
    · have less := (abs_lt.mp less).2
      push_cast at less
      linarith
    · -- half way below the power of two lies an odd number
      push_cast at close
      have last : m + 1 = 2 ^ 53 := by
        have same : (m : ℚ) + 1 = 2 ^ 53 := by linarith
        exact_mod_cast same
      have odd : m = 2 ^ 53 - 1 := by omega
      rw [odd] at even
      exact absurd even (by decide)

/-- A quotient is past the largest number just if it is rounded there. -/
theorem nearest_eq_none_iff {negative : Bool} {n d : ℕ} (positive : 0 < d) :
    nearest negative n d = none ↔ overflow ≤ n / d := by
  have highest := overflow_eq
  have unit := two_zpow_pos highestExponent
  rcases Nat.eq_zero_or_pos n with zero | some
  · subst zero
    have found : nearest negative 0 d ≠ none := by simp [nearest]
    refine iff_of_false found ?_
    rw [highest, Nat.cast_zero, zero_div, not_le]
    exact mul_pos (by norm_num) unit
  obtain ⟨_, most, least⟩ := exponentOf_bounds some positive
  obtain ⟨m, near, small, rounded⟩ := exists_rounded negative some positive
  have lost : nearest negative n d = none ↔
      highestExponent < exponentOf n d ∨ exponentOf n d = highestExponent ∧ m = 2 ^ 53 := by
    rw [rounded]
    split
    · split
      · exact iff_of_true rfl (by omega)
      · exact iff_of_false (Option.some_ne_none _) (by omega)
    · split
      · exact iff_of_true rfl (by omega)
      · exact iff_of_false (Option.some_ne_none _) (by omega)
  rw [lost, eq_top_iff_of_near near small]
  generalize (n / d : ℚ) = q at most least ⊢
  generalize exponentOf n d = e at most least ⊢
  rcases lt_trichotomy e highestExponent with low | here | high
  · have below := two_zpow_mono (Int.add_one_le_of_lt low)
    rw [two_zpow_succ] at below
    exact iff_of_false (by omega) (by linarith)
  · rw [here, zpow_neg, ← div_eq_mul_inv, le_div_iff₀ unit, highest]
    simp
  · have above := two_zpow_mono (Int.add_one_le_of_lt high)
    rw [two_zpow_succ] at above
    have enough : 2 ^ 52 * 2 ^ e ≤ q := by
      refine least.resolve_left ?_
      rintro rfl
      exact absurd high (by decide)
    exact iff_of_true (.inl high) (by linarith)

/-- A quotient that is no more than one has a nearest number. -/
theorem exists_nearest_of_le {n d : ℕ} (positive : 0 < d) (le : n ≤ d) :
    ∃ x, nearest false n d = .some x := by
  rw [← Option.ne_none_iff_exists', ne_eq, nearest_eq_none_iff positive, not_le]
  have one : (n / d : ℚ) ≤ 1 := by
    rw [div_le_one (by exact_mod_cast positive)]
    exact_mod_cast le
  have unit : (2 : ℚ) ^ (0 : ℤ) ≤ 2 ^ highestExponent := two_zpow_mono (by decide)
  rw [zpow_zero] at unit
  rw [overflow_eq]
  linarith

/-! Bounds of the nearest number -/

theorem exists_whole {n : ℕ} (small : n < 2 ^ 53) : ∃ y : Binary64, y.Fits ∧ y.value = n := by
  have lowest : lowestExponent ≤ 0 := by decide
  have highest : 0 ≤ highestExponent := by decide
  exact ⟨⟨false, n, 0⟩, ⟨small, lowest, highest⟩, by simp [value]⟩

namespace Nearest

variable {x y : Binary64} {q : ℚ}

theorem le_of_le (near : x.Nearest q) (fits : y.Fits) (above : q ≤ y.value) : x.value ≤ y.value := by
  by_contra beyond
  have least := near.least y fits
  rw [abs_of_nonneg (by linarith), abs_of_nonneg (by linarith)] at least
  linarith

theorem le_of_ge (near : x.Nearest q) (fits : y.Fits) (below : y.value ≤ q) : y.value ≤ x.value := by
  by_contra beyond
  have least := near.least y fits
  rw [abs_of_nonpos (by linarith), abs_of_nonpos (by linarith)] at least
  linarith

/-- What is a number itself is not changed. -/
theorem value_eq (near : x.Nearest q) (fits : y.Fits) (same : y.value = q) : x.value = q := by
  have least := near.least y fits
  rw [same, sub_self, abs_zero] at least
  exact sub_eq_zero.mp (abs_nonpos_iff.mp least)

/-- A quotient between zero and one is rounded to a number between them. -/
theorem mem_unit (near : x.Nearest q) (positive : 0 ≤ q) (le : q ≤ 1) : 0 ≤ x.value ∧ x.value ≤ 1 := by
  obtain ⟨zero, fits, nothing⟩ := exists_whole (n := 0) (by decide)
  obtain ⟨one, fits', unit⟩ := exists_whole (n := 1) (by decide)
  rw [Nat.cast_zero] at nothing
  rw [Nat.cast_one] at unit
  have least := near.le_of_ge fits (by rwa [nothing])
  have most := near.le_of_le fits' (by rwa [unit])
  rw [nothing] at least
  rw [unit] at most
  exact ⟨least, most⟩

end Nearest

/-! Arithmetic of numbers that are not negative -/

section Times

variable {x y : Binary64} {n d : ℕ}

theorem fraction_pos (x : Binary64) : 0 < x.fraction.2 := timesPower_pos Nat.one_pos _ _

theorem value_eq_fraction (plain : x.negative = false) :
    x.value = (x.fraction.1 : ℚ) / x.fraction.2 := by
  rw [fraction, timesPower_div, value, plain]
  simp

theorem fraction_times (plain : x.negative = false) :
    ((x.fraction.1 * n : ℕ) : ℚ) / (x.fraction.2 * d : ℕ) = x.value * (n / d) := by
  rw [value_eq_fraction plain, Nat.cast_mul, Nat.cast_mul, mul_div_mul_comm]

theorem times_eq_none_iff (plain : x.negative = false) (positive : 0 < d) :
    x.times n d = none ↔ overflow ≤ x.value * (n / d) := by
  rw [times, nearest_eq_none_iff (Nat.mul_pos x.fraction_pos positive), fraction_times plain]

theorem nearest_of_times (plain : x.negative = false) (positive : 0 < d)
    (found : x.times n d = .some y) : y.negative = false ∧ y.Nearest (x.value * (n / d)) := by
  rw [times, plain] at found
  have denominator := Nat.mul_pos x.fraction_pos positive
  have near := nearest_of_eq_some denominator found
  rw [fraction_times plain] at near
  exact ⟨negative_of_nearest found, near⟩

theorem exceeds_iff (plain : x.negative = false) (plain' : y.negative = false) :
    x.exceeds y = true ↔ y.value < x.value := by
  have below : (0 : ℚ) < x.fraction.2 := by exact_mod_cast x.fraction_pos
  have below' : (0 : ℚ) < y.fraction.2 := by exact_mod_cast y.fraction_pos
  rw [value_eq_fraction plain, value_eq_fraction plain', div_lt_div_iff₀ below' below, exceeds,
    decide_eq_true_eq]
  exact_mod_cast Iff.rfl

end Times

end QuoteDesk.Binary64
