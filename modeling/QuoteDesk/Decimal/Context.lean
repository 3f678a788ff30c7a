import QuoteDesk.Decimal.Basic

/-
Arithmetic with a bounded number of digits. Every operation gives the exact
result rounded once, half to even, to the precision asked for; exponents are
bounded as well, from above by a refusal and from below by gradual loss of digits.
-/
namespace QuoteDesk.Decimal

/-- Digits kept by arithmetic unless an operation asks for more. -/
def precision : Nat := 28

/-- The largest power of ten a leading digit may stand at. -/
def emax : Int := 999999

/-- The smallest power of ten at which a leading digit still has full precision. -/
def emin : Int := -999999

/-- The lowest exponent of a result with `p` digits. -/
def etiny (p : Nat) : Int := emin - (p - 1)

/-- `d` with at most `p` digits and an exponent in range. -/
def fit (p : Nat) (d : Decimal) : Except Signal Decimal :=
  if d.isZero then .ok { d with exponent := max (etiny p) (min d.exponent emax) }
  else if emax < d.adjusted then .error .overflow
  else
    let lowest := max (d.adjusted - (p - 1)) (etiny p)
    if lowest ≤ d.exponent then .ok d
    else
      let r := d.toExponent .halfEven lowest
      -- all nines round to one digit more
      let r := if p < r.digitCount then { r with coefficient := r.coefficient / 10, exponent := r.exponent + 1 } else r
      if !r.isZero && emax < r.adjusted then .error .overflow else .ok r

/-- The sum with every digit. A sum of zero is negative only if both terms are. -/
def exactSum (a b : Decimal) : Decimal :=
  let e := min a.exponent b.exponent
  let s := a.scaledTo e + b.scaledTo e
  { negative := if s = 0 then a.negative && b.negative else s < 0
    coefficient := s.natAbs
    exponent := e }

/-- `b`, or, when all of it lies far below the last digit of `a`, one unit of its
sign just out of sight of the rounding, so that the sum rounds the same. -/
def inSightOf (p : Nat) (a b : Decimal) : Decimal :=
  if !a.isZero && b.adjusted < a.exponent - (p + 3) then
    { b with coefficient := min b.coefficient 1, exponent := a.exponent - (p + 3) }
  else b

def add (p : Nat) (a b : Decimal) : Except Signal Decimal :=
  fit p (exactSum (inSightOf p b a) (inSightOf p a b))

def neg (a : Decimal) : Decimal := { a with negative := !a.negative }

def sub (p : Nat) (a b : Decimal) : Except Signal Decimal := add p a b.neg

/-- The product with every digit. -/
def exactProduct (a b : Decimal) : Decimal :=
  { negative := a.negative != b.negative
    coefficient := a.coefficient * b.coefficient
    exponent := a.exponent + b.exponent }

def mul (p : Nat) (a b : Decimal) : Except Signal Decimal := fit p (exactProduct a b)

/-- The quotient of two non-zero numbers with more than `p` digits. An exact one
sheds trailing zeros down to the difference of the exponents; an inexact one ends
in a one for everything that follows. -/
def longQuotient (p : Nat) (a b : Decimal) : Decimal :=
  let shift : Int := b.digitCount - a.digitCount + p + 1
  let n := a.coefficient * 10 ^ shift.toNat
  let d := b.coefficient * 10 ^ (-shift).toNat
  let q := n / d
  let e := a.exponent - b.exponent - shift
  let negative := a.negative != b.negative
  if n % d ≠ 0 then ⟨negative, 10 * q + 1, e - 1⟩
  else
    let k := min (Digits.trailingZeros q) shift.toNat
    ⟨negative, q / 10 ^ k, e + k⟩

def div (p : Nat) (a b : Decimal) : Except Signal Decimal :=
  if b.isZero then .error (if a.isZero then .invalidOperation else .divisionByZero)
  else if a.isZero then fit p ⟨a.negative != b.negative, 0, a.exponent - b.exponent⟩
  else fit p (longQuotient p a b)

def abs (p : Nat) (a : Decimal) : Except Signal Decimal := fit p { a with negative := false }

/-- Rounded to the precision, then without trailing zeros. -/
def normalize (p : Nat) (a : Decimal) : Except Signal Decimal := (fit p a).map reduce

/-- Brought to exponent `e`, refused if that takes more than `p` digits or an
exponent out of range. -/
def quantize (p : Nat) (mode : Rounding) (e : Int) (a : Decimal) : Except Signal Decimal :=
  if emax < e || e < etiny p then .error .invalidOperation
  else if a.isZero then .ok { a with exponent := e }
  else if emax < a.adjusted || p < a.adjusted - e + 1 then .error .invalidOperation
  else
    let r := a.toExponent mode e
    if p < r.digitCount || emax < r.adjusted then .error .invalidOperation else .ok r

/-- The exponent of one unit at `n` powers of ten above one. -/
def unitExponent (p : Nat) (n : Int) : Except Signal Int :=
  if n.natAbs > 2 * (emax + p) then .error .invalidOperation
  else (fit p ⟨false, 1, n⟩).map (·.exponent)

/-- As many digits as `d` has, and never fewer than usual. -/
def widePrecision (d : Decimal) : Nat := max precision d.digitCount

theorem fit_zero (p : Nat) (d : Decimal) (h : d.isZero) :
    fit p d = .ok { d with exponent := max (etiny p) (min d.exponent emax) } := by
  rw [fit, if_pos h]

theorem exactSum_comm (a b : Decimal) : exactSum a b = exactSum b a := by
  simp only [exactSum, Int.min_comm a.exponent, Int.add_comm (a.scaledTo _), Bool.and_comm]

end QuoteDesk.Decimal
