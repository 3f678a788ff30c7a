import QuoteDesk.Json.Basic
import QuoteDesk.Text.Blank

/-
Values read leniently into the type that a record wants. A whole number may be
written as a text, with blanks around it, underscores between digits and a fraction
of zeros, and a truth value as one of a few words. What fits no type is refused.
-/
namespace QuoteDesk

namespace Text

/-- Blank in the narrower sense of texts of numbers: no information separators. -/
def isOuterBlank (c : Char) : Bool := isBlank c && !(0x1c ≤ c.toNat && c.toNat ≤ 0x1f)

def trimOuter (cs : List Char) : List Char :=
  ((cs.dropWhile isOuterBlank).reverse.dropWhile isOuterBlank).reverse

/-- Digits with single underscores between them, and without those. -/
def plainDigits? (cs : List Char) : Option (List Char) :=
  let rec go (lastIsDigit : Bool) : List Char → Option (List Char)
    | [] => if lastIsDigit then some [] else none
    | c :: cs =>
      if isDigit c then (go true cs).map (c :: ·)
      else if c = '_' ∧ lastIsDigit then go false cs
      else none
  go false cs

/-- The part before a point with nothing but zeros after it. -/
def withoutZeroFraction (cs : List Char) : List Char :=
  match cs.dropWhile (· ≠ '.') with
  | '.' :: zeros => if zeros.all (· = '0') then cs.takeWhile (· ≠ '.') else cs
  | _ => cs

/-- The whole number that a text denotes. Leading zeros follow no minus sign. -/
def wholeNumber? (s : String) : Option Int :=
  match withoutZeroFraction (trimOuter s.toList) with
  | '-' :: cs =>
    (plainDigits? cs).bind fun ds =>
      if ds.head? = some '0' ∧ ds.length ≠ 1 then none else some (-(Numeral.readNat ds : Int))
  | '+' :: cs | cs => (plainDigits? cs).map fun ds => (Numeral.readNat ds : Int)

def truthWords : List (String × Bool) :=
  [("0", false), ("off", false), ("f", false), ("false", false), ("n", false), ("no", false),
   ("1", true), ("on", true), ("t", true), ("true", true), ("y", true), ("yes", true)]

def truth? (s : String) : Option Bool :=
  truthWords.lookup (String.ofList (s.toList.map Char.toLower))

end Text

namespace Json

def wholeNumber? : Json → Option Int
  | .int i => some i
  | .bool b => some (if b then 1 else 0)
  | .real x => if x.isInteger ∧ x.whole < 2 ^ 63 then some x.truncate else none
  | .text s => Text.wholeNumber? s
  | _ => none

def truth? : Json → Option Bool
  | .bool b => some b
  | .int 0 => some false
  | .int 1 => some true
  | .real x => if x.whole = 0 ∧ x.isInteger then some false
    else if x.whole = 1 ∧ x.isInteger ∧ !x.negative then some true else none
  | .text s => Text.truth? s
  | _ => none

/-- A decimal from a text, or from the text of a number. -/
def decimal? : Json → Option Decimal
  | .text s => Decimal.read s
  | .int i => Decimal.read (String.ofList (Decimal.writeInt i))
  | .real x => Decimal.read x.toText
  | _ => none

def text? : Json → Option String
  | .text s => some s
  | _ => none

end Json
end QuoteDesk
