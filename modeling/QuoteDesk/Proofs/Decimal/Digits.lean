import Mathlib.Data.List.Induction
import QuoteDesk.Decimal.Digits

/-
How many digits a number has. The repeated squaring of the base finds the greatest
power below the number, and a run of `k` digits denotes a number below `10 ^ k`.
-/
namespace QuoteDesk.Digits

theorem pow_ilog_le (b n : Nat) (base : 2 ≤ b) (positive : 0 < n) : b ^ ilog b n ≤ n := by
  induction b using ilog.induct n with
  | case1 b fits smaller k above ih =>
    have square : 2 ≤ b * b := Nat.le_trans base (Nat.le_mul_of_pos_left b (by omega))
    rw [ilog, dif_pos fits, if_pos above, Nat.pow_mul, Nat.pow_two]
    exact ih square
  | case2 b fits smaller k above ih =>
    rw [ilog, dif_pos fits, if_neg above]
    exact Nat.not_lt.mp above
  | case3 b small =>
    rw [ilog, dif_neg small]
    exact positive

theorem lt_pow_ilog (b n : Nat) (base : 2 ≤ b) : n < b ^ (ilog b n + 1) := by
  induction b using ilog.induct n with
  | case1 b fits smaller k above ih =>
    rw [ilog, dif_pos fits, if_pos above]
    exact above
  | case2 b fits smaller k above ih =>
    have square : 2 ≤ b * b := Nat.le_trans base (Nat.le_mul_of_pos_left b (by omega))
    have below := ih square
    have halved : ∀ m, (b * b) ^ m = b ^ (2 * m) := fun m => by rw [Nat.pow_mul, Nat.pow_two]
    rw [halved] at below
    rw [ilog, dif_pos fits, if_neg above]
    exact below
  | case3 b small =>
    rw [ilog, dif_neg small, Nat.zero_add, Nat.pow_one]
    omega

theorem lt_pow_count (n : Nat) : n < 10 ^ count n := lt_pow_ilog 10 n (by decide)

theorem count_le_of_lt_pow {n k : Nat} (positive : 0 < k) (below : n < 10 ^ k) : count n ≤ k := by
  rcases Nat.eq_zero_or_pos n with zero | some
  · subst zero
    rw [count, ilog, dif_neg (by omega)]
    exact positive
  · have power := pow_ilog_le 10 n (by omega) some
    have exponent : ilog 10 n < k :=
      (Nat.pow_lt_pow_iff_right (by omega)).mp (Nat.lt_of_le_of_lt power below)
    exact exponent

theorem read_lt_pow (ds : List Nat) (digits : ∀ d ∈ ds, d < 10) : read ds < 10 ^ ds.length := by
  induction ds using List.reverseRecOn with
  | nil => simp [read]
  | append_singleton ds d ih =>
    have init := ih fun e member => digits e (by simp [member])
    have last := digits d (by simp)
    rw [read_append_singleton, List.length_append, List.length_singleton, Nat.pow_succ]
    omega

end QuoteDesk.Digits
