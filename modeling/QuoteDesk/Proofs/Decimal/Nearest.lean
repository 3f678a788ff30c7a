import Mathlib.Data.Int.Log
import Mathlib.Data.Rat.Floor
import Mathlib.Tactic.FieldSimp
import Mathlib.Tactic.Linarith
import Mathlib.Tactic.Positivity
import Mathlib.Tactic.Ring
import QuoteDesk.Decimal.Digits

/-
Rational numbers rounded to a number of digits, half to even. A number that has no more digits
stays as it is, and all numbers that lie a little beside one that has few digits, on the same side
of it, are rounded alike.
-/
namespace QuoteDesk.Decimal

/-! Whole numbers -/

/-- The nearest whole number, of two equally near ones the even one. -/
def wholeNearest (x : ℚ) : ℤ :=
  if 1 / 2 < Int.fract x ∨ (Int.fract x = 1 / 2 ∧ ¬ Even ⌊x⌋) then ⌊x⌋ + 1 else ⌊x⌋

/-- A whole number is nearest; if another one is as near, it is even. -/
def Near (x : ℚ) (n : ℤ) : Prop := |x - n| < 1 / 2 ∨ (|x - n| = 1 / 2 ∧ Even n)

theorem near_wholeNearest (x : ℚ) : Near x (wholeNearest x) := by
  have below := Int.fract_nonneg x
  have above := Int.fract_lt_one x
  have parts : x = ⌊x⌋ + Int.fract x := (Int.floor_add_fract x).symm
  unfold wholeNearest
  split
  · rename_i raised
    have distance : |x - (⌊x⌋ + 1 : ℤ)| = 1 - Int.fract x := by
      push_cast
      rw [abs_of_nonpos (by linarith)]
      linarith
    rcases raised with more | ⟨half, odd⟩
    · left
      rw [distance]
      linarith
    · right
      rw [distance, half]
      exact ⟨by norm_num, Int.even_add_one.mpr odd⟩
  · rename_i kept
    have distance : |x - ⌊x⌋| = Int.fract x := by
      rw [abs_of_nonneg (by linarith)]
      linarith
    rw [not_or, not_lt, not_and, not_not] at kept
    rcases kept.1.lt_or_eq with less | half
    · left
      rwa [distance]
    · right
      exact ⟨distance.trans half, kept.2 half⟩

theorem Near.le {x : ℚ} {n : ℤ} (near : Near x n) : |x - n| ≤ 1 / 2 := by
  rcases near with less | ⟨half, _⟩
  · exact less.le
  · exact half.le

theorem Near.unique {x : ℚ} {m n : ℤ} (near : Near x m) (near' : Near x n) : m = n := by
  have apart : |((m - n : ℤ) : ℚ)| ≤ |x - n| + |x - m| := by
    have triangle := abs_sub (x - n) (x - m)
    have same : x - n - (x - m) = ((m - n : ℤ) : ℚ) := by
      push_cast
      ring
    rwa [same] at triangle
  have close : |((m - n : ℤ) : ℚ)| < 1 → m = n := by
    intro less
    have zero : |m - n| < 1 := by exact_mod_cast less
    rw [abs_lt] at zero
    omega
  rcases near with less | ⟨half, even⟩
  · exact close (by linarith [near'.le])
  · rcases near' with less' | ⟨half', even'⟩
    · exact close (by linarith)
    · have bound : |m - n| ≤ 1 := by
        have sum : |((m - n : ℤ) : ℚ)| ≤ 1 := by linarith
        exact_mod_cast sum
      rw [abs_le] at bound
      obtain ⟨i, rfl⟩ := even
      obtain ⟨j, rfl⟩ := even'
      omega

theorem wholeNearest_eq {x : ℚ} {n : ℤ} (near : Near x n) : wholeNearest x = n :=
  (near_wholeNearest x).unique near

theorem wholeNearest_intCast (n : ℤ) : wholeNearest n = n := by
  apply wholeNearest_eq
  left
  norm_num

theorem wholeNearest_neg (x : ℚ) : wholeNearest (-x) = -wholeNearest x := by
  apply wholeNearest_eq
  have distance : |-x - ((-wholeNearest x : ℤ) : ℚ)| = |x - wholeNearest x| := by
    rw [← abs_neg]
    congr 1
    push_cast
    ring
  unfold Near
  rw [distance, even_neg]
  exact near_wholeNearest x

theorem le_wholeNearest {x : ℚ} {n : ℤ} (least : n ≤ x) : n ≤ wholeNearest x := by
  have above := (abs_le.mp (near_wholeNearest x).le).2
  by_contra less
  have gap : (wholeNearest x : ℚ) + 1 ≤ n := by exact_mod_cast not_le.mp less
  linarith

/-! Digits -/

/-- The power of ten of the leading digit. -/
def place (q : ℚ) : ℤ := Int.log 10 |q|

/-- The nearest number of `p` digits. -/
def nearest (p : ℕ) (q : ℚ) : ℚ :=
  wholeNearest (q / 10 ^ (place q + 1 - p)) * 10 ^ (place q + 1 - p)

/-- A number of at most `p` digits. -/
def Fits (p : ℕ) (q : ℚ) : Prop := ∃ m k : ℤ, |m| < 10 ^ p ∧ q = m * 10 ^ k

theorem ten_zpow_pos (k : ℤ) : (0 : ℚ) < 10 ^ k := zpow_pos (by norm_num) k

theorem ten_zpow_split {k l : ℤ} (low : l ≤ k) : (10 : ℚ) ^ k = 10 ^ (k - l).toNat * 10 ^ l := by
  rw [← zpow_natCast, ← zpow_add₀ (by norm_num)]
  congr 1
  omega

theorem ten_zpow_pred (k : ℤ) : (10 : ℚ) ^ k = 10 * 10 ^ (k - 1) := by
  rw [← zpow_one_add₀ (by norm_num)]
  congr 1
  ring

theorem place_neg (q : ℚ) : place (-q) = place q := by rw [place, place, abs_neg]

theorem nearest_zero (p : ℕ) : nearest p 0 = 0 := by
  have whole := wholeNearest_intCast 0
  rw [Int.cast_zero] at whole
  rw [nearest, zero_div, whole, Int.cast_zero, zero_mul]

theorem nearest_neg (p : ℕ) (q : ℚ) : nearest p (-q) = -nearest p q := by
  rw [nearest, nearest, place_neg, neg_div, wholeNearest_neg]
  push_cast
  ring

theorem zpow_le_iff {q : ℚ} (some : q ≠ 0) {k : ℤ} : 10 ^ k ≤ |q| ↔ k ≤ place q := by
  have power := Int.zpow_le_iff_le_log (b := 10) (by norm_num) (x := k) (abs_pos.mpr some)
  exact_mod_cast power

theorem lt_zpow_iff {q : ℚ} (some : q ≠ 0) {k : ℤ} : |q| < 10 ^ k ↔ place q < k := by
  have power := Int.lt_zpow_iff_log_lt (b := 10) (by norm_num) (x := k) (abs_pos.mpr some)
  exact_mod_cast power

theorem place_eq {q : ℚ} {k : ℤ} (least : 10 ^ k ≤ |q|) (below : |q| < 10 ^ (k + 1)) :
    place q = k := by
  have some : q ≠ 0 := abs_pos.mp ((ten_zpow_pos k).trans_le least)
  have low := (zpow_le_iff some).mp least
  have high := (lt_zpow_iff some).mp below
  omega

theorem nearest_of_fits {p : ℕ} {q : ℚ} (fits : Fits p q) : nearest p q = q := by
  obtain ⟨m, k, small, same⟩ := fits
  by_cases zero : q = 0
  · rw [zero, nearest_zero]
  · have below : |q| < 10 ^ (p + k) := by
      rw [same, abs_mul, abs_of_pos (ten_zpow_pos k), zpow_add₀ (by norm_num), zpow_natCast]
      have digits : |(m : ℚ)| < 10 ^ p := by exact_mod_cast small
      exact mul_lt_mul_of_pos_right digits (ten_zpow_pos k)
    have low : place q + 1 - p ≤ k := by
      have leading := (lt_zpow_iff zero).mp below
      omega
    rw [nearest]
    generalize place q + 1 - p = e at low ⊢
    obtain ⟨n, rfl⟩ := Int.le.dest low
    have whole : q / 10 ^ e = ((m * 10 ^ n : ℤ) : ℚ) := by
      rw [div_eq_iff (ten_zpow_pos e).ne', same, zpow_add₀ (by norm_num), zpow_natCast]
      push_cast
      ring
    rw [whole, wholeNearest_intCast, ← whole, div_mul_cancel₀ _ (ten_zpow_pos e).ne']

theorem fits_nearest {p : ℕ} (digits : 1 ≤ p) {q : ℚ} (some : q ≠ 0) : Fits p (nearest p q) := by
  have small : |q / 10 ^ (place q + 1 - p)| < 10 ^ p := by
    have unit := ten_zpow_pos (place q + 1 - p)
    have split : place q + 1 = p + (place q + 1 - p) := by ring
    have below := (lt_zpow_iff some).mpr (lt_add_one (place q))
    rw [split, zpow_add₀ (by norm_num), zpow_natCast] at below
    rwa [abs_div, abs_of_pos unit, div_lt_iff₀ unit]
  have near := (near_wholeNearest (q / 10 ^ (place q + 1 - p))).le
  rw [nearest]
  generalize q / 10 ^ (place q + 1 - p) = x at small near ⊢
  generalize wholeNearest x = n at near ⊢
  have few : |n| ≤ 10 ^ p := by
    have less : |(n : ℚ)| < 10 ^ p + 1 := by
      have apart := abs_sub_abs_le_abs_sub (n : ℚ) x
      rw [abs_sub_comm] at apart
      linarith
    exact Int.lt_add_one_iff.mp (by exact_mod_cast less)
  rcases few.lt_or_eq with fewer | all
  · exact ⟨n, _, fewer, rfl⟩
  · -- all nines were rounded up, to a power of ten
    refine ⟨n.sign, p + (place q + 1 - p), ?_, ?_⟩
    · have one : |n.sign| ≤ 1 := by
        rcases Int.sign_trichotomy n with sign | sign | sign <;> rw [sign] <;> decide
      exact one.trans_lt (one_lt_pow₀ (by norm_num) (by omega))
    · rw [zpow_add₀ (by norm_num), zpow_natCast, ← mul_assoc]
      have parts : (n : ℚ) = n.sign * |n| := by exact_mod_cast (Int.sign_mul_abs n).symm
      rw [all] at parts
      push_cast at parts
      rw [parts]

/-- Rounding loses no digit in front. -/
theorem zpow_place_le_nearest {p : ℕ} (digits : 1 ≤ p) {q : ℚ} (positive : 0 < q) :
    10 ^ place q ≤ nearest p q := by
  have reached := (zpow_le_iff positive.ne').mpr le_rfl
  rw [abs_of_pos positive] at reached
  obtain ⟨n, rfl⟩ := Nat.exists_eq_add_of_le digits
  have split : place q = n + (place q + 1 - (1 + n : ℕ)) := by push_cast; ring
  rw [nearest]
  generalize place q + 1 - (1 + n : ℕ) = e at split ⊢
  rw [split, zpow_add₀ (by norm_num), zpow_natCast] at reached ⊢
  have whole : ((10 ^ n : ℤ) : ℚ) ≤ q / 10 ^ e := by
    rw [le_div_iff₀ (ten_zpow_pos e)]
    exact_mod_cast reached
  have rounded : ((10 ^ n : ℤ) : ℚ) ≤ wholeNearest (q / 10 ^ e) := by
    exact_mod_cast le_wholeNearest whole
  push_cast at rounded
  exact mul_le_mul_of_nonneg_right rounded (ten_zpow_pos e).le

theorem place_le_place_nearest {p : ℕ} (digits : 1 ≤ p) {q : ℚ} (some : q ≠ 0) :
    nearest p q ≠ 0 ∧ place q ≤ place (nearest p q) := by
  have positive : ∀ r : ℚ, 0 < r → nearest p r ≠ 0 ∧ place r ≤ place (nearest p r) := by
    intro r positive
    have least := zpow_place_le_nearest digits positive
    have beyond : 0 < nearest p r := lt_of_lt_of_le (ten_zpow_pos _) least
    refine ⟨beyond.ne', ?_⟩
    rwa [← zpow_le_iff beyond.ne', abs_of_pos beyond]
  rcases some.lt_or_gt with less | more
  · have reflected := positive (-q) (by linarith)
    rwa [nearest_neg, neg_ne_zero, place_neg, place_neg] at reflected
  · exact positive q more

/-! Numbers beside one with few digits -/

/-- A multiple of a power of ten. -/
def OnGrid (k : ℤ) (q : ℚ) : Prop := ∃ i : ℤ, q = i * 10 ^ k

theorem OnGrid.mono {k l : ℤ} {q : ℚ} (grid : OnGrid k q) (finer : l ≤ k) : OnGrid l q := by
  obtain ⟨i, rfl⟩ := grid
  obtain ⟨n, rfl⟩ := Int.le.dest finer
  refine ⟨i * 10 ^ n, ?_⟩
  rw [zpow_add₀ (by norm_num), zpow_natCast]
  push_cast
  ring

theorem OnGrid.neg {k : ℤ} {q : ℚ} (grid : OnGrid k q) : OnGrid k (-q) := by
  obtain ⟨i, rfl⟩ := grid
  exact ⟨-i, by push_cast; ring⟩

theorem OnGrid.le_of_pos {k : ℤ} {q : ℚ} (grid : OnGrid k q) (positive : 0 < q) : 10 ^ k ≤ q := by
  obtain ⟨i, rfl⟩ := grid
  have some : (0 : ℚ) < i := pos_of_mul_pos_left positive (ten_zpow_pos k).le
  have unit : (1 : ℚ) ≤ i := by exact_mod_cast some
  exact le_mul_of_one_le_left (ten_zpow_pos k).le unit

/-- No multiple of `10 ^ k` lies between the two numbers, or on one of them. -/
structure SameCell (k : ℤ) (x y : ℚ) : Prop where
  side : ∀ t, OnGrid k t → (x < t ↔ y < t)
  off_left : ¬ OnGrid k x
  off_right : ¬ OnGrid k y

namespace SameCell

variable {p : ℕ} {k l : ℤ} {x y : ℚ}

theorem symm (cell : SameCell k x y) : SameCell k y x :=
  ⟨fun t mark => (cell.side t mark).symm, cell.off_right, cell.off_left⟩

theorem le_right (cell : SameCell k x y) {t : ℚ} (mark : OnGrid k t) (least : t ≤ x) : t ≤ y :=
  not_lt.mp fun below => not_lt.mpr least ((cell.side t mark).mpr below)

theorem onGrid_pow (low : k ≤ l) : OnGrid k (10 ^ l) := by
  have power : OnGrid l (10 ^ l) := ⟨1, by rw [Int.cast_one, one_mul]⟩
  exact power.mono low

theorem place_le (cell : SameCell k x y) (low : k ≤ l) (least : 10 ^ l ≤ x) : place x ≤ place y := by
  have positive := (ten_zpow_pos l).trans_le least
  have high : l ≤ place x := by rwa [← zpow_le_iff positive.ne', abs_of_pos positive]
  have reached := (zpow_le_iff positive.ne').mpr le_rfl
  rw [abs_of_pos positive] at reached
  have reached := cell.le_right (onGrid_pow (low.trans high)) reached
  have positive := (ten_zpow_pos (place x)).trans_le reached
  rwa [← zpow_le_iff positive.ne', abs_of_pos positive]

theorem place_eq (cell : SameCell k x y) (low : k ≤ l) (least : 10 ^ l ≤ x) : place x = place y :=
  le_antisymm (cell.place_le low least)
    (cell.symm.place_le low (cell.le_right (onGrid_pow low) least))

/-- With more digits in front of the cell than are kept, both are rounded alike. -/
theorem nearest_eq (cell : SameCell k x y) (least : 10 ^ (k + p) ≤ x) :
    nearest p x = nearest p y := by
  have positive := (ten_zpow_pos (k + p)).trans_le least
  have high : k + p ≤ place x := by rwa [← zpow_le_iff positive.ne', abs_of_pos positive]
  rw [nearest, nearest, ← cell.place_eq (by omega) least]
  congr 2
  generalize exponent : place x + 1 - p = e
  have u := ten_zpow_pos e
  refine (wholeNearest_eq ?_).symm
  have near := (near_wholeNearest (x / 10 ^ e)).le
  generalize wholeNearest (x / 10 ^ e) = n at near ⊢
  -- the places where the rounding changes
  have mark : ∀ i : ℤ, OnGrid k ((i / 2 : ℚ) * 10 ^ e) := by
    intro i
    have half : OnGrid (e - 1) ((i / 2 : ℚ) * 10 ^ e) := by
      refine ⟨5 * i, ?_⟩
      rw [zpow_sub_one₀ (by norm_num)]
      push_cast
      ring
    exact half.mono (by omega)
  have lower := mark (2 * n - 1)
  have upper := mark (2 * n + 1)
  push_cast at lower upper
  obtain ⟨below, above⟩ := abs_le.mp near
  have least : (2 * n - 1 : ℚ) / 2 * 10 ^ e ≤ x := by
    rw [← le_div_iff₀ u]
    linarith
  have most : x ≤ (2 * n + 1 : ℚ) / 2 * 10 ^ e := by
    rw [← div_le_iff₀ u]
    linarith
  have beyond : (2 * n - 1 : ℚ) / 2 * 10 ^ e < y :=
    lt_of_le_of_ne (cell.le_right lower least) fun same => cell.off_right (same ▸ lower)
  have short : y < (2 * n + 1 : ℚ) / 2 * 10 ^ e :=
    (cell.side _ upper).mp (lt_of_le_of_ne most fun same => cell.off_left (same ▸ upper))
  rw [← lt_div_iff₀ u] at beyond
  rw [← div_lt_iff₀ u] at short
  left
  rw [abs_lt]
  constructor <;> linarith

end SameCell

/-- Two numbers beyond zero on the same side, too small to be told apart in `p` digits beside a
multiple of `10 ^ k`. -/
structure Tiny (p : ℕ) (k : ℤ) (x y : ℚ) : Prop where
  left : |x| ≤ 10 ^ (k - (p + 3))
  right : |y| ≤ 10 ^ (k - (p + 3))
  some_left : x ≠ 0
  some_right : y ≠ 0
  side : 0 < x ↔ 0 < y

namespace Tiny

variable {p : ℕ} {k : ℤ} {a t x y : ℚ}

theorem symm (tiny : Tiny p k x y) : Tiny p k y x :=
  ⟨tiny.right, tiny.left, tiny.some_right, tiny.some_left, tiny.side.symm⟩

theorem neg (tiny : Tiny p k x y) : Tiny p k (-x) (-y) := by
  refine ⟨by simpa using tiny.left, by simpa using tiny.right, by simpa using tiny.some_left,
    by simpa using tiny.some_right, ?_⟩
  have side := tiny.side
  have left := tiny.some_left.lt_or_gt
  have right := tiny.some_right.lt_or_gt
  constructor
  · intro below
    rcases right with less | more
    · linarith
    · linarith [side.mpr more]
  · intro below
    rcases left with less | more
    · linarith
    · linarith [side.mp more]

/-- No multiple of a power of ten that is not too low lies between the two sums, or on one. -/
theorem lt_iff (tiny : Tiny p k x y) (grid : OnGrid k a) {l : ℤ} (above : k - (p + 3) < l)
    (mark : OnGrid l t) : (a + x < t ↔ a + y < t) ∧ a + x ≠ t := by
  have low : k - (p + 3) < min k l := lt_min (by omega) above
  obtain ⟨i, rfl⟩ := grid.mono (min_le_left k l)
  obtain ⟨j, rfl⟩ := mark.mono (min_le_right k l)
  have unit : (10 : ℚ) ^ (k - (p + 3)) < 10 ^ min k l := zpow_lt_zpow_right₀ (by norm_num) low
  have first := abs_lt.mp (tiny.left.trans_lt unit)
  have second := abs_lt.mp (tiny.right.trans_lt unit)
  generalize (10 : ℚ) ^ min k l = u at unit first second ⊢
  rcases lt_trichotomy i j with less | rfl | more
  · have next : ((i : ℚ) + 1) * u ≤ j * u := by
      have step : (i : ℚ) + 1 ≤ j := by exact_mod_cast less
      exact mul_le_mul_of_nonneg_right step (by linarith)
    refine ⟨⟨fun _ => by linarith, fun _ => by linarith⟩, ?_⟩
    exact (by linarith : (i : ℚ) * u + x < j * u).ne
  · have side := tiny.side
    have left := tiny.some_left.lt_or_gt
    have right := tiny.some_right.lt_or_gt
    refine ⟨⟨?_, ?_⟩, fun same => tiny.some_left (by linarith)⟩
    · intro below
      rcases right with less | more
      · linarith
      · linarith [side.mpr more]
    · intro below
      rcases left with less | more
      · linarith
      · linarith [side.mp more]
  · have next : ((j : ℚ) + 1) * u ≤ i * u := by
      have step : (j : ℚ) + 1 ≤ i := by exact_mod_cast more
      exact mul_le_mul_of_nonneg_right step (by linarith)
    refine ⟨⟨fun below => by linarith, fun below => by linarith⟩, ?_⟩
    exact (by linarith : (j : ℚ) * u < i * u + x).ne'

/-- The sum keeps its leading digit, or the digit after it. -/
theorem le_add (tiny : Tiny p k x y) (grid : OnGrid k a) (positive : 0 < a) :
    10 ^ (k - 1) ≤ a + x := by
  have least := grid.le_of_pos positive
  have small : (10 : ℚ) ^ (k - (p + 3)) ≤ 10 ^ (k - 1) := zpow_le_zpow_right₀ (by norm_num) (by omega)
  have tenth := ten_zpow_pred k
  have beside := (abs_le.mp tiny.left).1
  have unit := ten_zpow_pos (k - 1)
  linarith

/-- The sums lie in one cell of a grid that is not too fine. -/
theorem sameCell (tiny : Tiny p k x y) (grid : OnGrid k a) {l : ℤ} (above : k - (p + 3) < l) :
    SameCell l (a + x) (a + y) :=
  ⟨fun _ mark => (tiny.lt_iff grid above mark).1,
    fun mark => (tiny.lt_iff grid above mark).2 rfl,
    fun mark => (tiny.symm.lt_iff grid above mark).2 rfl⟩

theorem place_eq (tiny : Tiny p k x y) (grid : OnGrid k a) (positive : 0 < a) :
    place (a + x) = place (a + y) :=
  (tiny.sameCell grid (by omega)).place_eq le_rfl (tiny.le_add grid positive)

theorem nearest_eq_of_pos (tiny : Tiny p k x y) (grid : OnGrid k a) (positive : 0 < a) :
    nearest p (a + x) = nearest p (a + y) := by
  have cell := tiny.sameCell grid (l := k - 1 - p) (by omega)
  have least := tiny.le_add grid positive
  rw [← sub_add_cancel (k - 1) (p : ℤ)] at least
  exact cell.nearest_eq least

/-- The sums are alike in their leading place and in their rounding. -/
theorem nearest_eq (tiny : Tiny p k x y) (grid : OnGrid k a) (some : a ≠ 0) :
    place (a + x) = place (a + y) ∧ nearest p (a + x) = nearest p (a + y) := by
  rcases some.lt_or_gt with negative | positive
  · have positive : 0 < -a := by linarith
    have places := tiny.neg.place_eq grid.neg positive
    have roundings := tiny.neg.nearest_eq_of_pos grid.neg positive
    rw [← neg_add, ← neg_add, place_neg, place_neg] at places
    rw [← neg_add, ← neg_add, nearest_neg, nearest_neg, neg_inj] at roundings
    exact ⟨places, roundings⟩
  · exact ⟨tiny.place_eq grid positive, tiny.nearest_eq_of_pos grid positive⟩

theorem add_ne_zero (tiny : Tiny p k x y) (grid : OnGrid k a) (some : a ≠ 0) : a + x ≠ 0 := by
  have unit := ten_zpow_pos (k - 1)
  rcases some.lt_or_gt with negative | positive
  · have sum := tiny.neg.le_add grid.neg (by linarith)
    intro zero
    linarith
  · have sum := tiny.le_add grid positive
    linarith

end Tiny
end QuoteDesk.Decimal
