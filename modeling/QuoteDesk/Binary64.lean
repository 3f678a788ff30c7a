import QuoteDesk.Decimal.Text

/-
Finite binary numbers of 53 bits. They are kept exactly, as a mantissa and a power
of two, and come from an exact quotient by one rounding, half to even. Numbers
past the largest have no value here. The shortest decimal digits that round back
to a number are found on the decimal grids, coarsest first.
-/
namespace QuoteDesk

/-- `mantissa * 2 ^ exponent`. The mantissa has 53 bits, or fewer at the lowest
exponent, -1074. -/
structure Binary64 where
  negative : Bool
  mantissa : Nat
  exponent : Int
  deriving DecidableEq, Repr, Inhabited

namespace Binary64

def lowestExponent : Int := -1074

def highestExponent : Int := 971

/-- A fraction of natural numbers times a power of two, as a fraction. -/
def timesPower (n d : Nat) (e : Int) : Nat × Nat := (n * 2 ^ e.toNat, d * 2 ^ (-e).toNat)

/-- The exponent at which the mantissa of `n / d` has 53 bits before rounding. -/
def exponentOf (n d : Nat) : Int :=
  let e : Int := n.log2 - d.log2 - 53
  let (a, b) := timesPower n d (-(e + 53))
  max (if b ≤ a then e + 1 else e) lowestExponent

/-- The nearest number to `n / d`; nothing past the largest. -/
def nearest (negative : Bool) (n d : Nat) : Option Binary64 :=
  if n = 0 then some ⟨negative, 0, lowestExponent⟩
  else
    let e := exponentOf n d
    let (a, b) := timesPower n d (-e)
    let m := Rounding.halfEven.divide false a b
    let (m, e) := if 2 ^ 53 ≤ m then (m / 2, e + 1) else (m, e)
    if highestExponent < e then none else some ⟨negative, m, e⟩

theorem negative_of_nearest {negative : Bool} {n d : Nat} {x : Binary64}
    (near : nearest negative n d = some x) : x.negative = negative := by
  unfold nearest at near
  split at near
  · cases near
    rfl
  · simp only [Option.ite_none_left_eq_some] at near
    rw [← Option.some.inj near.2]

/-- The nearest number to a decimal one. Far outside the range no power of ten is
written out. -/
def ofDecimal (d : Decimal) : Option Binary64 :=
  if d.isZero || d.adjusted < -400 then nearest d.negative 0 1
  else if 400 < d.adjusted then none
  else nearest d.negative (d.coefficient * 10 ^ d.exponent.toNat) (10 ^ (-d.exponent).toNat)

/-- The magnitude as a fraction. -/
def fraction (x : Binary64) : Nat × Nat := timesPower x.mantissa 1 x.exponent

/-- The product with `n / d`, rounded once; nothing past the largest. -/
def times (x : Binary64) (n d : Nat) : Option Binary64 :=
  nearest x.negative (x.fraction.1 * n) (x.fraction.2 * d)

/-- Whether the magnitude is greater than another one. -/
def exceeds (x y : Binary64) : Bool :=
  y.fraction.1 * x.fraction.2 < x.fraction.1 * y.fraction.2

/-- The whole part of the magnitude. -/
def whole (x : Binary64) : Nat := x.fraction.1 / x.fraction.2

def isInteger (x : Binary64) : Bool := x.fraction.1 % x.fraction.2 == 0

/-- The whole number that the value is cut to. -/
def truncate (x : Binary64) : Int := if x.negative then -x.whole else x.whole

/-- The power of ten of the leading digit of `n / d`. -/
def leadingPlace (n d : Nat) : Int :=
  if d ≤ n then Digits.ilog 10 (n / d)
  else
    let k := Digits.count (d / n)
    if d ≤ n * 10 ^ (k - 1) then 1 - k else -k

/-- Quarter units of the mantissa between which every decimal rounds to the number;
below a power of two the lower neighbour is nearer. -/
def interval (x : Binary64) : Nat × Nat :=
  (if x.mantissa = 2 ^ 52 ∧ lowestExponent < x.exponent then 4 * x.mantissa - 1
    else 4 * x.mantissa - 2, 4 * x.mantissa + 2)

/-- The grid point nearest to a number among those that round back to it, on the
grid of multiples of `10 ^ g`; of two as near the even one. -/
def onGrid (x : Binary64) (g : Int) : Option Nat :=
  -- everything is counted in quarter units of the mantissa over a common denominator
  let (un, ud) := timesPower 1 4 x.exponent
  let point (c : Nat) := c * 10 ^ g.toNat * ud
  let quarters (q : Nat) := q * un * 10 ^ (-g).toNat
  let value := quarters (4 * x.mantissa)
  let (low, high) := x.interval
  let c := value / point 1
  let inside (c : Nat) :=
    if x.mantissa % 2 = 0 then quarters low ≤ point c && point c ≤ quarters high
    else quarters low < point c && point c < quarters high
  let below := value - point c
  let above := point (c + 1) - value
  match inside c, inside (c + 1) with
  | false, false => none
  | true, false => some c
  | false, true => some (c + 1)
  | true, true => some (if below < above ∨ (below = above ∧ c % 2 = 0) then c else c + 1)

/-- The fewest digits that round back, with their power of ten; 17 always do. -/
def shortest (x : Binary64) : Nat × Int :=
  if x.mantissa = 0 then (0, 0)
  else
    let (n, d) := x.fraction
    let top := leadingPlace n d
    let found := (List.range 17).findSome? fun (k : Nat) =>
      (x.onGrid (top - k)).map fun c => (c, top - k)
    match found with
    | some (c, g) =>
      let (c', k) := Digits.stripBase 10 c
      (c', g + k)
    | none => (x.mantissa, x.exponent)

/-- The shortest digits, always with a point or an exponent: positional from
`0.0001` to below `1e+16`, else one digit before the point and an exponent of at
least two digits. -/
def toText (x : Binary64) : String :=
  let (c, e) := x.shortest
  let ds := Digits.write c
  let top : Int := e + ds.length - 1
  let body :=
    if x.mantissa = 0 then "0.0".toList
    else if -4 ≤ top && top < 16 then
      if 0 ≤ e then Decimal.positional ds e ++ ".0".toList else Decimal.positional ds e
    else
      let es := Digits.write top.natAbs
      ds.take 1 ++ (if ds.length ≤ 1 then [] else '.' :: ds.drop 1)
        ++ 'e' :: (if top < 0 then '-' else '+') :: ((if es.length < 2 then ['0'] else []) ++ es)
  String.ofList (Decimal.signText x.negative body)

/-- The exact value rounded to a number of places, half to even. -/
def toFixed (x : Binary64) (places : Nat) : String :=
  let (n, d) := x.fraction
  Decimal.toFixed ⟨x.negative, Rounding.halfEven.divide false (n * 10 ^ places) d, -places⟩

end Binary64
end QuoteDesk
