import QuoteDesk.Decimal.Rounding

/-
Decimal numbers: a sign, a coefficient and a power of ten. The same number has
many such forms and both zeros keep their sign; forms are told apart by equality,
numbers by `magnitudeLt` and the sign. Infinities and NaNs are no numbers: only a
`Numeral`, the reading of a text, can be one.
-/
namespace QuoteDesk

/-- `coefficient * 10 ^ exponent`, negated when `negative`. -/
structure Decimal where
  negative : Bool
  coefficient : Nat
  exponent : Int
  deriving DecidableEq, Repr, Inhabited

namespace Decimal

/-- The conditions that an arithmetic result can be refused for. -/
inductive Signal where
  | invalidOperation
  | divisionByZero
  | overflow
  deriving DecidableEq, Repr

def ofNat (n : Nat) : Decimal := ⟨false, n, 0⟩

def isZero (d : Decimal) : Bool := d.coefficient == 0

def digitCount (d : Decimal) : Nat := Digits.count d.coefficient

/-- The power of ten of the leading digit. -/
def adjusted (d : Decimal) : Int := d.exponent + d.digitCount - 1

/-- The coefficient with its sign. -/
def signed (d : Decimal) : Int := if d.negative then -d.coefficient else d.coefficient

def positive (d : Decimal) : Bool := !d.negative && !d.isZero

/-- The signed coefficient at a lower power of ten `e`. -/
def scaledTo (d : Decimal) (e : Int) : Int :=
  if d.isZero then 0 else d.signed * (10 ^ (d.exponent - e).toNat : Nat)

/-- Whether `a` is nearer to zero than `b`. Only numbers with the same leading
place are brought to one power of ten. -/
def magnitudeLt (a b : Decimal) : Bool :=
  if b.isZero then false
  else if a.isZero then true
  else if a.adjusted ≠ b.adjusted then a.adjusted < b.adjusted
  else
    let e := min a.exponent b.exponent
    a.coefficient * 10 ^ (a.exponent - e).toNat < b.coefficient * 10 ^ (b.exponent - e).toNat

/-- The form of the same number without trailing zeros; zero goes to exponent zero. -/
def reduce (d : Decimal) : Decimal :=
  if d.isZero then { d with exponent := 0 }
  else
    let (c, k) := Digits.stripBase 10 d.coefficient
    { d with coefficient := c, exponent := d.exponent + k }

/-- The number brought to exponent `e`: extra places are filled with zeros, places
below it are rounded away. -/
def toExponent (mode : Rounding) (e : Int) (d : Decimal) : Decimal :=
  if e ≤ d.exponent then
    { d with
      coefficient := if d.isZero then 0 else d.coefficient * 10 ^ (d.exponent - e).toNat
      exponent := e }
  else
    { d with
      coefficient := mode.dropDigits d.negative d.coefficient (e - d.exponent).toNat
      exponent := e }

theorem exponent_toExponent (mode : Rounding) (e : Int) (d : Decimal) :
    (d.toExponent mode e).exponent = e := by
  unfold toExponent; split <;> rfl

theorem negative_toExponent (mode : Rounding) (e : Int) (d : Decimal) :
    (d.toExponent mode e).negative = d.negative := by
  unfold toExponent; split <;> rfl

end Decimal

/-- What a text of a number can denote. `payload` is the diagnostic digits of a NaN. -/
inductive Numeral where
  | finite (value : Decimal)
  | infinite (negative : Bool)
  | nan (negative signaling : Bool) (payload : Nat)
  deriving DecidableEq, Repr

end QuoteDesk
