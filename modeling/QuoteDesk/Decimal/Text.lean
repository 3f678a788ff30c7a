import QuoteDesk.Decimal.Context
import QuoteDesk.Text.Blank
import QuoteDesk.Text.DecimalDigit
import QuoteDesk.Text.Letter

/-
Texts of decimal numbers. Reading is exact and keeps trailing zeros; blanks around
the text and underscores anywhere are ignored, digits may be of any script. Writing
is either scientific, from which the same form is read back, or positional.
-/
namespace QuoteDesk

namespace Decimal

/-- The furthest a leading digit may stand from the point in a text that is read. -/
def farthestPlace : Int := 999999999999999999

/-- The lowest exponent of a text that is read. -/
def lowestExponent : Int := -1999999999999999997

/-- Whether a form lies in the bounds of what can be read. -/
def admissible (d : Decimal) : Bool :=
  lowestExponent ≤ d.exponent
    && (if d.isZero then d.exponent ≤ farthestPlace else d.adjusted ≤ farthestPlace)

/-- A run of digits with its point at the given power of ten. -/
def positional (ds : List Char) (e : Int) : List Char :=
  if 0 ≤ e then ds ++ List.replicate e.toNat '0'
  else
    let k := (-e).toNat
    if k < ds.length then ds.take (ds.length - k) ++ '.' :: ds.drop (ds.length - k)
    else '0' :: '.' :: (List.replicate (k - ds.length) '0' ++ ds)

def signText (negative : Bool) (body : List Char) : List Char :=
  if negative then '-' :: body else body

def writeInt (i : Int) : List Char := signText (i < 0) (Digits.write i.natAbs)

/-- One digit before the point and the power of ten of that digit. -/
def exponential (ds : List Char) (adjusted : Int) : List Char :=
  ds.take 1 ++ (if ds.length ≤ 1 then [] else '.' :: ds.drop 1)
    ++ 'E' :: (if adjusted < 0 then writeInt adjusted else '+' :: writeInt adjusted)

/-- Sign, digits and exponent such that they are read back; positional if the
exponent is not above zero and at most five zeros follow the point. -/
def scientific (d : Decimal) : List Char :=
  let ds := Digits.write d.coefficient
  let adjusted := d.exponent + ds.length - 1
  signText d.negative
    (if d.exponent ≤ 0 && -6 ≤ adjusted then positional ds d.exponent
      else exponential ds adjusted)

/-- All digits, no exponent. -/
def fixed (d : Decimal) : List Char :=
  signText d.negative (positional (Digits.write d.coefficient) d.exponent)

def toText (d : Decimal) : String := String.ofList d.scientific

def toFixed (d : Decimal) : String := String.ofList d.fixed

end Decimal

namespace Numeral

/-- The text in plain digits, without blanks around it and underscores; nothing if a
character has no place in any number. -/
def plainForm (cs : List Char) : Option (List Char) :=
  ((Text.trimChars cs).filter (· != '_')).mapM fun c =>
    match Text.digitValue? c with
    | some d => some (Digits.ofNat d)
    | none => if c != '\x00' && c.toNat < 128 then some c else none

def splitSign : List Char → Bool × List Char
  | '-' :: cs => (true, cs)
  | '+' :: cs => (false, cs)
  | cs => (false, cs)

def digitsOf (cs : List Char) : List Nat := cs.map fun c => c.toNat - '0'.toNat

def readNat (cs : List Char) : Nat := Digits.read (digitsOf cs)

/-- The power of ten after the digits: nothing, or `e`, a sign if wanted and digits. -/
def readExponent : List Char → Option Int
  | [] => some 0
  | c :: cs =>
    if c = 'e' ∨ c = 'E' then
      let (negative, ds) := splitSign cs
      if ds ≠ [] ∧ ds.all Text.isDigit then
        some (if negative then -(readNat ds : Int) else readNat ds)
      else none
    else none

/-- Digits with at most one point among them, then the power of ten. -/
def readFinite (negative : Bool) (cs : List Char) : Option Decimal :=
  let whole := cs.takeWhile Text.isDigit
  let rest := cs.dropWhile Text.isDigit
  let (fraction, rest) := match rest with
    | '.' :: more => (more.takeWhile Text.isDigit, more.dropWhile Text.isDigit)
    | _ => ([], rest)
  if whole = [] ∧ fraction = [] then none
  else do
    let e ← readExponent rest
    let d : Decimal := ⟨negative, readNat (whole ++ fraction), e - fraction.length⟩
    if d.admissible then some d else none

/-- Words for what is no number; a NaN may carry digits. -/
def readSpecial (negative : Bool) (cs : List Char) : Option Numeral :=
  let word := cs.map Char.toLower
  if word = "inf".toList ∨ word = "infinity".toList then some (.infinite negative)
  else
    let (signaling, word) := match word with
      | 's' :: more => (true, more)
      | _ => (false, word)
    match word with
    | 'n' :: 'a' :: 'n' :: ds =>
      if ds.all Text.isDigit then some (.nan negative signaling (readNat ds)) else none
    | _ => none

def readChars (cs : List Char) : Option Numeral := do
  let cs ← plainForm cs
  let (negative, cs) := splitSign cs
  (readFinite negative cs).map .finite <|> readSpecial negative cs

/-- The number that a text denotes, with the digits as they stand. -/
def read (s : String) : Option Numeral := readChars s.toList

def toText : Numeral → String
  | .finite d => d.toText
  | .infinite negative => String.ofList (Decimal.signText negative "Infinity".toList)
  | .nan negative signaling payload =>
    String.ofList (Decimal.signText negative
      ((if signaling then ['s'] else []) ++ "NaN".toList
        ++ if payload = 0 then [] else Digits.write payload))

/-- The number, if the numeral is one. -/
def finite? : Numeral → Option Decimal
  | .finite d => some d
  | _ => none

end Numeral

/-- The finite number that a text denotes. -/
def Decimal.read (s : String) : Option Decimal := (Numeral.read s).bind Numeral.finite?

end QuoteDesk
