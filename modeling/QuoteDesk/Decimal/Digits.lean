/-
Decimal digits of natural numbers. Counting digits, finding trailing zeros and
writing a number out all work by squaring the base or halving the number, so
that a million digits cost little. No sign, point or exponent is dealt with here.
-/
namespace QuoteDesk.Digits

-- A power is the core one here and in every module that builds on this one, also where
-- algebra brings a power of its own.
attribute [instance (high), default_instance high + 1] instPowNat

/-- The largest `k` with `b ^ k ≤ n`, for a base of at least two and `n` above zero. -/
def ilog (b n : Nat) : Nat :=
  if h : 2 ≤ b ∧ b ≤ n then
    have : n + 1 - b * b < n + 1 - b := by
      have : b + b ≤ b * b := by
        calc b + b = 2 * b := by omega
          _ ≤ b * b := Nat.mul_le_mul_right b h.1
      omega
    let k := 2 * ilog (b * b) n
    if n < b ^ (k + 1) then k else k + 1
  else 0
termination_by n + 1 - b

/-- How many digits write `n`; zero is written with one. -/
def count (n : Nat) : Nat := ilog 10 n + 1

/-- `n` without its trailing base-`b` zeros, and how many they were. -/
def stripBase (b n : Nat) : Nat × Nat :=
  if h : 2 ≤ b ∧ n ≠ 0 ∧ n % b = 0 then
    have : n + 1 - b * b < n + 1 - b := by
      have small : b ≤ n := Nat.le_of_dvd (by omega) (Nat.dvd_of_mod_eq_zero h.2.2)
      have : b + b ≤ b * b := by
        calc b + b = 2 * b := by omega
          _ ≤ b * b := Nat.mul_le_mul_right b h.1
      omega
    let (m, k) := stripBase (b * b) n
    if m % b = 0 then (m / b, 2 * k + 1) else (m, 2 * k)
  else (n, 0)
termination_by n + 1 - b

/-- The number of trailing zeros of `n`; zero has none. -/
def trailingZeros (n : Nat) : Nat := (stripBase 10 n).2

def ofNat (d : Nat) : Char := Char.ofNat ('0'.toNat + d % 10)

/-- The lowest `2 ^ k` digits of `n`, leading zeros kept, in front of `rest`. -/
def padded : Nat → Nat → List Char → List Char
  | 0, n, rest => ofNat n :: rest
  | k + 1, n, rest => padded k (n / 10 ^ 2 ^ k) (padded k (n % 10 ^ 2 ^ k) rest)

/-- The digits of `n` without leading zeros, `0` for zero. -/
def write (n : Nat) : List Char :=
  if n < 10 then [ofNat n]
  else (padded (Nat.log2 (count n) + 1) n []).dropWhile (· == '0')

/-- The number that a run of digit values stands for. -/
def read (ds : List Nat) : Nat := ds.foldl (fun n d => 10 * n + d) 0

theorem read_append_singleton (ds : List Nat) (d : Nat) :
    read (ds ++ [d]) = 10 * read ds + d := by simp [read]

end QuoteDesk.Digits
