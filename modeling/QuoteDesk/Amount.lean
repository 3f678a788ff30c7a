import QuoteDesk.Decimal.Text
import QuoteDesk.Fault

/-
Amounts and prices as users write and read them. An amount is positive and kept
without trailing zeros; the plain text of a number has neither an exponent nor
zeros at the end of its fraction; rounding to places widens the precision, so that
large numbers keep all their digits.
-/
namespace QuoteDesk

namespace Decimal

/-- Digits that arithmetic can be asked to keep at most. -/
def widestPrecision : Nat := 999999999999999999

/-- Plain digits without trailing zeros; zero has no sign. -/
def plainText (d : Decimal) : Except Signal String :=
  if d.isZero then .ok "0" else (normalize (widePrecision d) d).map toFixed

/-- The precision at which rounding to `places` keeps every digit before them. -/
def roomFor (places : Int) (leading : Int) : Nat := max precision (leading + places + 2).toNat

/-- Rounded to a number of places after the point. -/
def roundTo (places : Int) (mode : Rounding) (d : Decimal) : Outcome Decimal :=
  let p := roomFor places d.adjusted
  if widestPrecision < p then .error (.defect .badValue)
  else .ofArithmetic do
    let e ← unitExponent p (-places)
    quantize p mode e d

/-- The places shown of a number: two below one hundred, one below one thousand,
none from there on. -/
def shownPlaces (d : Decimal) : Except Signal Nat := do
  let m ← abs precision d
  if magnitudeLt m (ofNat 100) then return 2
  else if magnitudeLt m (ofNat 1000) then return 1
  else return 0

/-- The text of a price or a total: rounded to its places, halves away from zero,
a zero without its sign. -/
def marketText (d : Decimal) : Outcome String := do
  let places ← .ofArithmetic d.shownPlaces
  let r ← roundTo places .halfUp d
  return (if r.isZero then { r with negative := false } else r).toFixed

end Decimal

/-- The positive amount that a text denotes, without trailing zeros. -/
def readAmount (raw : String) : Outcome Decimal :=
  match Numeral.read (Text.trim raw) with
  | some (.finite d) =>
    if d.positive then .ofArithmetic (Decimal.normalize (Decimal.widePrecision d) d)
    else .error (.fault (.input (.amountNotPositive raw)))
  | _ => .error (.fault (.input (.unreadableAmount raw)))

namespace Numeral

/-- Arithmetic on what is no number: quiet ones pass, a signaling one is refused. -/
def passQuiet (n : Numeral) : Except Decimal.Signal Numeral :=
  match n with
  | .nan _ true _ => .error .invalidOperation
  | n => .ok n

def plainText : Numeral → Except Decimal.Signal String
  | .finite d => d.plainText
  | n => (passQuiet n).map toText

/-- No NaN compares with a number; an infinity is large. -/
def shownPlaces : Numeral → Except Decimal.Signal Nat
  | .finite d => d.shownPlaces
  | .infinite _ => .ok 0
  | .nan _ _ _ => .error .invalidOperation

/-- An infinity has no last place, a quiet NaN stays itself. -/
def roundTo (places : Int) (mode : Rounding) : Numeral → Outcome Numeral
  | .finite d => (d.roundTo places mode).map .finite
  | n =>
    let p := Decimal.roomFor places 0
    if Decimal.widestPrecision < p then .error (.defect .badValue)
    else .ofArithmetic do
      let _ ← Decimal.unitExponent p (-places)
      match n with
      | .nan _ false _ => .ok n
      | _ => .error .invalidOperation

def marketText : Numeral → Outcome String
  | .finite d => d.marketText
  | _ => .error (.defect (.arithmetic .invalidOperation))

end Numeral

theorem Decimal.plainText_zero (d : Decimal) (h : d.isZero) : d.plainText = .ok "0" := by
  rw [Decimal.plainText, if_pos h]

end QuoteDesk
