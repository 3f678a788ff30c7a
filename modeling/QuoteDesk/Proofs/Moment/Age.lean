import Mathlib.Tactic.Ring
import QuoteDesk.Moment

/-
The age of something in whole seconds, against its exact age. Microseconds are divided
by a million in binary with 53 bits and the quotient is cut, so an age stays within `s`
seconds for the whole second that follows, less the part of it that already rounds up to
the next one. That part is nothing below 2 ^ 34 seconds.
-/
namespace QuoteDesk

namespace Rounding

/-- Half to even reaches an even number from half a unit below it on. -/
theorem le_halfEven_iff {n d m : Nat} (positive : 0 < d) (even : m % 2 = 0) :
    m ≤ halfEven.divide false n d ↔ d * (2 * m) ≤ 2 * n + d := by
  have split : d * (n / d) + n % d = n := Nat.div_add_mod n d
  have rest : n % d < d := Nat.mod_lt n positive
  have scaled : ∀ k, d * (2 * k) = 2 * (d * k) := fun k => Nat.mul_left_comm d 2 k
  have grows : ∀ {a b : Nat}, a ≤ b → d * a ≤ d * b := fun h => Nat.mul_le_mul_left d h
  rw [scaled]
  rcases Nat.lt_trichotomy m (n / d + 1) with below | at_ | above
  · have reached := grows (Nat.le_of_lt_succ below)
    have taken := le_divide halfEven false n d
    omega
  · subst at_
    have next : d * (n / d + 1) = d * (n / d) + d := Nat.mul_succ d (n / d)
    have odd : n / d % 2 = 1 := by omega
    have taken : halfEven.raises false (n / d) (n % d) d = true ↔ d ≤ 2 * (n % d) := by
      simp only [raises, odd, Bool.or_eq_true, Bool.and_eq_true, decide_eq_true_eq, beq_iff_eq,
        and_true]
      omega
    unfold divide
    split
    · rename_i raised
      have := taken.mp raised
      omega
    · rename_i kept
      have := mt taken.mpr kept
      omega
  · have far := grows (show n / d + 2 ≤ m by omega)
    have two : d * (n / d + 2) = d * (n / d) + 2 * d := by rw [Nat.mul_add]; omega
    have taken := divide_le halfEven false n d
    omega

end Rounding

namespace Binary64

theorem mul_pow_sub_le_iff (a b k l : Nat) :
    a * 2 ^ (l - k) ≤ b * 2 ^ (k - l) ↔ a * 2 ^ l ≤ b * 2 ^ k := by
  rcases Nat.le_total l k with below | above
  · obtain ⟨j, rfl⟩ := Nat.exists_eq_add_of_le below
    rw [Nat.sub_eq_zero_of_le below, Nat.add_sub_cancel_left, Nat.pow_add, Nat.mul_comm (2 ^ l),
      ← Nat.mul_assoc, Nat.mul_le_mul_right_iff (Nat.two_pow_pos l), Nat.pow_zero, Nat.mul_one]
  · obtain ⟨j, rfl⟩ := Nat.exists_eq_add_of_le above
    rw [Nat.sub_eq_zero_of_le above, Nat.add_sub_cancel_left, Nat.pow_add, Nat.mul_comm (2 ^ k),
      ← Nat.mul_assoc, Nat.mul_le_mul_right_iff (Nat.two_pow_pos k), Nat.pow_zero, Nat.mul_one]

/-- The exponent of a quotient by a million gives its mantissa 53 bits. -/
theorem exponentOf_million {n : Nat} (some : 0 < n) (bound : n < 2 ^ 52 * 1000000) :
    ∃ g : Nat, 1 ≤ g ∧ exponentOf n 1000000 = -(g : Int) ∧
      2 ^ 52 * 1000000 ≤ n * 2 ^ g ∧ n * 2 ^ g < 2 ^ 53 * 1000000 := by
  have low : 2 ^ n.log2 ≤ n := Nat.log2_self_le (by omega)
  have high : n < 2 ^ (n.log2 + 1) := Nat.lt_log2_self
  have divisor : Nat.log2 1000000 = 19 := by decide
  simp only [exponentOf, divisor, timesPower, lowestExponent]
  generalize n.log2 = l at low high
  have small : l < 72 := by
    rw [← Nat.pow_lt_pow_iff_right (show 1 < 2 by omega)]
    exact Nat.lt_of_le_of_lt low (by omega)
  have left : (-((l : Int) - (19 : Nat) - 53 + 53)).toNat = 19 - l := by omega
  have right : (-(-((l : Int) - (19 : Nat) - 53 + 53))).toNat = l - 19 := by omega
  rw [left, right]
  simp only [mul_pow_sub_le_iff]
  rw [Nat.pow_succ] at high
  have unit : 0 < 2 ^ l := Nat.two_pow_pos l
  -- all comparisons are made at the scale of `2 ^ l`, where they are linear
  have scaled : ∀ g k, l + g = k → n * 2 ^ g * 2 ^ l = n * 2 ^ k := by
    intro g k sum
    rw [← sum, Nat.pow_add, Nat.mul_comm (2 ^ l), Nat.mul_assoc]
  split
  · rename_i reached
    have room : l ≠ 71 := by
      rintro rfl
      omega
    refine ⟨71 - l, by omega, by omega, ?_, ?_⟩
    · refine Nat.le_of_mul_le_mul_right ?_ unit
      rw [scaled _ 71 (by omega)]
      omega
    · refine Nat.lt_of_mul_lt_mul_right (a := 2 ^ l) ?_
      rw [scaled _ 71 (by omega)]
      omega
  · rename_i short
    refine ⟨72 - l, by omega, by omega, ?_, ?_⟩
    · refine Nat.le_of_mul_le_mul_right ?_ unit
      rw [scaled _ 72 (by omega)]
      omega
    · refine Nat.lt_of_mul_lt_mul_right (a := 2 ^ l) ?_
      rw [scaled _ 72 (by omega)]
      omega

/-- The whole part of a quotient by a million, in terms of its mantissa. -/
theorem whole_nearest_million {n g : Nat} (negative : Bool) (some : 0 < n) (fraction : 1 ≤ g)
    (exponent : exponentOf n 1000000 = -(g : Int)) :
    ∃ x, nearest negative n 1000000 = .some x ∧
      x.whole = Rounding.halfEven.divide false (n * 2 ^ g) 1000000 / 2 ^ g := by
  have left : (-(-(g : Int))).toNat = g := by omega
  have right : (-(-(-(g : Int)))).toNat = 0 := by omega
  simp only [nearest, Nat.ne_of_gt some, ↓reduceIte, exponent, timesPower, left, right, Nat.pow_zero,
    Nat.mul_one, highestExponent]
  generalize Rounding.halfEven.divide false (n * 2 ^ g) 1000000 = m
  have inRange : ¬ (971 : Int) < -(g : Int) + 1 ∧ ¬ (971 : Int) < -(g : Int) := by omega
  split
  · -- the mantissa has rounded up to a power of two and is halved
    refine ⟨_, if_neg inRange.1, ?_⟩
    have up : (-(g : Int) + 1).toNat = 0 := by omega
    have down : (-(-(g : Int) + 1)).toNat = g - 1 := by omega
    have double : 2 * 2 ^ (g - 1) = 2 ^ g := by rw [← Nat.pow_succ', Nat.succ_eq_add_one, Nat.sub_add_cancel fraction]
    simp only [whole, Binary64.fraction, timesPower, up, down, Nat.pow_zero, Nat.mul_one, Nat.one_mul]
    rw [Nat.div_div_eq_div_mul, double]
  · refine ⟨_, if_neg inRange.2, ?_⟩
    have up : (-(g : Int)).toNat = 0 := by omega
    have down : (-(-(g : Int))).toNat = g := by omega
    simp only [whole, Binary64.fraction, timesPower, up, down, Nat.pow_zero, Nat.mul_one, Nat.one_mul]

theorem half_step_inside {n s : Nat} (k : Nat) (below : n < s * 1000000) :
    n * 2 ^ k + 1000000 < (s + 1) * 1000000 * 2 ^ k := by
  have step := Nat.mul_lt_mul_of_pos_right below (Nat.two_pow_pos k)
  have unit := Nat.mul_le_mul_left 1000000 (Nat.one_le_two_pow (n := k))
  have split : (s + 1) * 1000000 * 2 ^ k = s * 1000000 * 2 ^ k + 1000000 * 2 ^ k := by ring
  omega

theorem half_step_outside {n s : Nat} (k : Nat) (above : (s + 1) * 1000000 ≤ n) :
    ¬ n * 2 ^ k + 1000000 < (s + 1) * 1000000 * 2 ^ k := by
  have step := Nat.mul_le_mul_right (2 ^ k) above
  omega

/-- On a grid of 2 ^ 20 steps a second or finer, half a step is less than a microsecond. -/
theorem half_step_iff_lt {n s k : Nat} (fine : 20 ≤ k) :
    n * 2 ^ k + 1000000 < (s + 1) * 1000000 * 2 ^ k ↔ n < (s + 1) * 1000000 := by
  constructor
  · intro inside
    by_contra above
    exact half_step_outside k (Nat.not_lt.mp above) inside
  · intro below
    have step := Nat.mul_le_mul_right (2 ^ k) (show n + 1 ≤ (s + 1) * 1000000 from below)
    have unit : 2 ^ 20 ≤ 2 ^ k := Nat.pow_le_pow_right (by omega) fine
    rw [Nat.succ_mul] at step
    omega

/-- The grid of a quotient between `s` and `s + 1` is the grid at `s`. -/
theorem grid_between {n s g : Nat} (low : 2 ^ 52 * 1000000 ≤ n * 2 ^ g)
    (high : n * 2 ^ g < 2 ^ 53 * 1000000) (positive : 0 < s) (above : s * 1000000 ≤ n)
    (below : n < (s + 1) * 1000000) : g + 1 = 53 - s.log2 := by
  have lowest : 2 ^ s.log2 ≤ s := Nat.log2_self_le (by omega)
  have highest : s < 2 ^ (s.log2 + 1) := Nat.lt_log2_self
  generalize s.log2 = l at lowest highest
  have upper : 2 ^ (l + g) < 2 ^ 53 := by
    have least := Nat.le_trans (Nat.mul_le_mul_right 1000000 lowest) above
    have step := Nat.mul_le_mul_right (2 ^ g) least
    have split : 2 ^ l * 1000000 * 2 ^ g = 1000000 * 2 ^ (l + g) := by
      rw [Nat.pow_add 2 l g, Nat.mul_comm (2 ^ l) 1000000, Nat.mul_assoc]
    omega
  have lower : 2 ^ 52 < 2 ^ (l + 1 + g) := by
    have most := Nat.lt_of_lt_of_le below (Nat.mul_le_mul_right 1000000 highest)
    have step := Nat.mul_lt_mul_of_pos_right most (Nat.two_pow_pos g)
    have split : 2 ^ (l + 1) * 1000000 * 2 ^ g = 1000000 * 2 ^ (l + 1 + g) := by
      rw [Nat.pow_add 2 (l + 1) g, Nat.mul_comm (2 ^ (l + 1)) 1000000, Nat.mul_assoc]
    omega
  rw [Nat.pow_lt_pow_iff_right (by omega)] at upper lower
  omega

theorem grid_below_one {n g : Nat} (low : 2 ^ 52 * 1000000 ≤ n * 2 ^ g) (below : n < 1000000) :
    20 ≤ g := by
  by_contra coarse
  have unit : 2 ^ g ≤ 2 ^ 20 := Nat.pow_le_pow_right (by omega) (by omega)
  have step := Nat.mul_le_mul_left n unit
  omega

/-- A quotient by a million is cut to at most `s` exactly if it lies below `s + 1` by
half a step of the grid at `s`. -/
theorem whole_le_iff {n s : Nat} {x : Binary64} {negative : Bool} (some : 0 < n)
    (bound : n < 2 ^ 52 * 1000000) (near : nearest negative n 1000000 = .some x) :
    x.whole ≤ s ↔
      n * 2 ^ (53 - s.log2) + 1000000 < (s + 1) * 1000000 * 2 ^ (53 - s.log2) := by
  obtain ⟨g, fraction, exponent, low, high⟩ := exponentOf_million some bound
  obtain ⟨x', near', whole⟩ := whole_nearest_million negative some fraction exponent
  cases near.symm.trans near'
  have even : (s + 1) * 2 ^ g % 2 = 0 := by
    rw [← Nat.sub_add_cancel fraction, Nat.pow_succ, ← Nat.mul_assoc, Nat.mul_mod_left]
  have cut : x.whole ≤ s ↔ n * 2 ^ (g + 1) + 1000000 < (s + 1) * 1000000 * 2 ^ (g + 1) := by
    have left : 2 * (n * 2 ^ g) = n * 2 ^ (g + 1) := by ring
    have right : 1000000 * (2 * ((s + 1) * 2 ^ g)) = (s + 1) * 1000000 * 2 ^ (g + 1) := by ring
    rw [whole, ← Nat.lt_succ_iff, Nat.div_lt_iff_lt_mul (Nat.two_pow_pos g), ← Nat.not_le,
      Rounding.le_halfEven_iff (by omega) even, Nat.not_le, left, right]
  rw [cut]
  rcases Nat.lt_or_ge n (s * 1000000) with below | above
  · exact iff_of_true (half_step_inside _ below) (half_step_inside _ below)
  rcases Nat.lt_or_ge n ((s + 1) * 1000000) with last | beyond
  · rcases Nat.eq_zero_or_pos s with zero | positive
    · subst zero
      have fine := grid_below_one low (by omega)
      rw [half_step_iff_lt (by omega), half_step_iff_lt (by decide)]
    · rw [grid_between low high positive above last]
  · exact iff_of_false (half_step_outside _ beyond) (half_step_outside _ beyond)

end Binary64

namespace Moment

/-- What a date and a time can be: in the calendar as shown, and less than a day away from
universal time. -/
structure Proper (t : Moment) : Prop where
  calendar : inCalendar t.ticks = true
  distance : ∀ minutes, t.offset = some minutes → minutes.natAbs < 24 * 60

/-- A span that counts as at most `ttl` whole seconds: below `ttl + 1` seconds by half a
step of the binary grid at `ttl`. -/
def InWindow (ttl : Nat) (ticks : Int) : Prop :=
  ticks * 2 ^ (53 - ttl.log2) + ticksPerSecond < (ttl + 1) * ticksPerSecond * 2 ^ (53 - ttl.log2)

instance (ttl : Nat) (ticks : Int) : Decidable (InWindow ttl ticks) :=
  inferInstanceAs (Decidable (_ < _))

theorem inWindow_natCast (ttl n : Nat) :
    InWindow ttl n ↔
      n * 2 ^ (53 - ttl.log2) + 1000000 < (ttl + 1) * 1000000 * 2 ^ (53 - ttl.log2) := by
  simp only [InWindow, ticksPerSecond]
  norm_cast

theorem inWindow_mono {ttl : Nat} {a b : Int} (le : a ≤ b) (inside : InWindow ttl b) :
    InWindow ttl a := by
  have step := Int.mul_le_mul_of_nonneg_right le (Int.le_of_lt (Int.pow_pos (n := 2) (m := 53 - ttl.log2) (by decide)))
  simp only [InWindow] at inside ⊢
  omega

theorem inWindow_zero (ttl : Nat) : InWindow ttl 0 := by
  refine (inWindow_natCast ttl 0).mpr ?_
  rcases Nat.eq_zero_or_pos ttl with zero | positive
  · subst zero
    decide
  · exact Binary64.half_step_inside _ (by omega)

/-- Nothing falls out of the window before its time. -/
theorem inWindow_of_le {ttl : Nat} {ticks : Int} (young : ticks ≤ ttl * ticksPerSecond)
    (bound : ticks < 2 ^ 52 * ticksPerSecond) : InWindow ttl ticks := by
  rcases Int.le_total ticks 0 with past | future
  · exact inWindow_mono past (inWindow_zero ttl)
  obtain ⟨n, rfl⟩ := Int.eq_ofNat_of_zero_le future
  simp only [ticksPerSecond] at young bound
  rw [inWindow_natCast]
  rcases Nat.lt_or_ge n (ttl * 1000000) with below | last
  · exact Binary64.half_step_inside _ below
  · have exact_ : n = ttl * 1000000 := by omega
    have fine : 1 ≤ 53 - ttl.log2 := by
      have small : ttl.log2 < 53 := by
        rcases Nat.eq_zero_or_pos ttl with zero | positive
        · subst zero
          decide
        · exact (Nat.log2_lt (by omega)).mpr (by omega)
      omega
    have step := Nat.pow_le_pow_right (show 0 < 2 by omega) fine
    subst exact_
    rw [Nat.succ_mul, Nat.add_mul]
    omega

/-- Up to 2 ^ 34 seconds the window ends just before the next full second. -/
theorem inWindow_iff_lt {ttl : Nat} {ticks : Int} (small : ttl < 2 ^ 34) :
    InWindow ttl ticks ↔ ticks < (ttl + 1) * ticksPerSecond := by
  have fine : 20 ≤ 53 - ttl.log2 := by
    have log : ttl.log2 < 34 := by
      rcases Nat.eq_zero_or_pos ttl with zero | positive
      · subst zero
        decide
      · exact (Nat.log2_lt (by omega)).mpr small
    omega
  rcases Int.le_total ticks 0 with past | future
  · refine iff_of_true (inWindow_mono past (inWindow_zero ttl)) ?_
    simp only [ticksPerSecond]
    omega
  · obtain ⟨n, rfl⟩ := Int.eq_ofNat_of_zero_le future
    rw [inWindow_natCast, Binary64.half_step_iff_lt fine]
    simp only [ticksPerSecond]
    norm_cast

theorem wholeSeconds_le_zero {ticks : Int} (past : ticks ≤ 0) : wholeSeconds ticks ≤ 0 := by
  unfold wholeSeconds
  split
  · rename_i x near
    have sign := Binary64.negative_of_nearest near
    unfold Binary64.truncate
    split
    · omega
    · rename_i positive
      obtain rfl : ticks = 0 := by
        simp only [sign, decide_eq_true_eq] at positive
        omega
      cases near
      simp [Binary64.whole, Binary64.fraction, Binary64.timesPower]
  · exact Int.le_refl 0

theorem wholeSeconds_le_iff {ticks : Int} (ttl : Nat) (bound : ticks < 2 ^ 52 * ticksPerSecond) :
    (wholeSeconds ticks).toNat ≤ ttl ↔ InWindow ttl ticks := by
  by_cases past : ticks ≤ 0
  · have none := wholeSeconds_le_zero past
    exact iff_of_true (by omega) (inWindow_mono past (inWindow_zero ttl))
  · obtain ⟨n, rfl⟩ := Int.eq_ofNat_of_zero_le (show 0 ≤ ticks by omega)
    simp only [ticksPerSecond] at bound
    obtain ⟨g, fraction, exponent, _⟩ :=
      Binary64.exponentOf_million (n := n) (by omega) (by omega)
    obtain ⟨x, near, _⟩ :=
      Binary64.whole_nearest_million (decide ((n : Int) < 0)) (by omega) fraction exponent
    have seconds : wholeSeconds n = x.whole := by
      have positive : x.negative = false := by
        rw [Binary64.negative_of_nearest near]
        simp
      simp only [wholeSeconds, Int.natAbs_natCast, near, Binary64.truncate, positive]
      rfl
    rw [seconds, Int.toNat_natCast, Binary64.whole_le_iff (by omega) (by omega) near, inWindow_natCast]

/-- The calendar is far shorter than the spans at which whole seconds get lost. -/
theorem span_lt_of_proper {since now : Moment} (start : since.Proper) (stop : now.Proper) :
    now.universal - since.universal < 2 ^ 52 * ticksPerSecond := by
  have finish : endOfCalendar = 315537897600000000 := by decide
  have distance : ∀ t : Moment, t.Proper → (t.offset.getD 0).natAbs < 24 * 60 := by
    intro t proper
    cases offset : t.offset with
    | none => decide
    | some minutes => exact proper.distance minutes offset
  have near := distance since start
  have far := distance now stop
  have first := start.calendar
  have last := stop.calendar
  simp only [inCalendar, finish, Bool.and_eq_true, decide_eq_true_eq] at first last
  simp only [universal, ticksPerSecond]
  omega

end Moment
end QuoteDesk
