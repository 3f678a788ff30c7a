import QuoteDesk.Decimal.Digits

/-
Rounding of an exact quotient `n / d` of natural numbers to a whole number. A
mode only decides whether the cut quotient takes one unit more.
-/
namespace QuoteDesk

inductive Rounding where
  | up
  | down
  | ceiling
  | floor
  | halfUp
  | halfDown
  | halfEven
  | zeroFiveUp
  deriving DecidableEq, Repr

namespace Rounding

/-- Whether the quotient `q` with remainder `r` of `d` takes one unit more. -/
def raises (mode : Rounding) (negative : Bool) (q r d : Nat) : Bool :=
  match mode with
  | .up => r != 0
  | .down => false
  | .ceiling => r != 0 && !negative
  | .floor => r != 0 && negative
  | .halfUp => d ≤ 2 * r
  | .halfDown => d < 2 * r
  | .halfEven => d < 2 * r || (2 * r == d && q % 2 == 1)
  | .zeroFiveUp => r != 0 && (q % 10 == 0 || q % 10 == 5)

/-- `n / d` rounded; the sign matters to the directed modes only. -/
def divide (mode : Rounding) (negative : Bool) (n d : Nat) : Nat :=
  if mode.raises negative (n / d) (n % d) d then n / d + 1 else n / d

/-- `n` without its lowest `k` digits, rounded. Past one place more than `n` has
digits, further places change no comparison with a half. -/
def dropDigits (mode : Rounding) (negative : Bool) (n k : Nat) : Nat :=
  mode.divide negative n (10 ^ min k (Digits.count n + 1))

theorem divide_exact (mode : Rounding) (negative : Bool) (q : Nat) {d : Nat} (hd : 0 < d) :
    mode.divide negative (q * d) d = q := by
  have h1 : q * d / d = q := Nat.mul_div_cancel q hd
  have h2 : q * d % d = 0 := Nat.mul_mod_left q d
  cases mode <;> simp [divide, raises, h1, h2] <;> omega

theorem le_divide (mode : Rounding) (negative : Bool) (n d : Nat) :
    n / d ≤ mode.divide negative n d := by
  unfold divide; split <;> omega

theorem divide_le (mode : Rounding) (negative : Bool) (n d : Nat) :
    mode.divide negative n d ≤ n / d + 1 := by
  unfold divide; split <;> omega

end Rounding
end QuoteDesk
