import QuoteDesk.Amount
import QuoteDesk.Symbol
import QuoteDesk.Moment

/-
Quotes, and conversions at them. A quote is the unit price of a pair with its
provider and its time; a cached quote also says how fresh it is. A conversion
multiplies exactly and rounds once, to eight places.
-/
namespace QuoteDesk

/-- The price of one `base` in `quote`. -/
structure Quote where
  base : String
  quote : String
  unitPrice : Decimal
  provider : String
  fetchedAt : Moment
  deriving DecidableEq, Repr

/-- Where a cached quote comes from. -/
inductive Freshness where
  | live
  | fresh
  | stale
  deriving DecidableEq, Repr

namespace Freshness

def label : Freshness → String
  | .live => "live"
  | .fresh => "cache_fresh"
  | .stale => "cache_stale_fallback"

def ofLabel? (s : String) : Option Freshness :=
  [Freshness.live, .fresh, .stale].find? (·.label = s)

end Freshness

/-- A quote as a store gave it, with its freshness, the time it stays fresh and its
age, both in seconds. -/
structure CachedQuote where
  quote : Quote
  status : Freshness
  key : String
  ttl : Int
  age : Int
  deriving DecidableEq, Repr

/-- An amount of one symbol to be told in another. -/
structure Conversion where
  pair : Pair
  amount : Decimal
  deriving DecidableEq, Repr

/-- What a conversion shows. -/
structure ConversionReport where
  pair : Pair
  amount : String
  unitPrice : String
  converted : String
  provider : String
  fetchedAt : String
  cached : CachedQuote
  deriving DecidableEq, Repr

namespace Conversion

/-- Both symbols are read before the amount. -/
def read (kind : PairKind) (base quote amount : String) : Outcome Conversion := do
  let base ← .ofInput (Symbol.readFor kind "base" base)
  let quote ← .ofInput (Symbol.readFor kind "quote" quote)
  let amount ← readAmount amount
  return ⟨⟨kind, base, quote⟩, amount⟩

/-- Places that a converted amount keeps. -/
def places : Nat := 8

/-- The product of amount and price with every digit. -/
def product (amount price : Decimal) : Except Decimal.Signal Decimal :=
  Decimal.mul (max Decimal.precision (amount.digitCount + price.digitCount)) amount price

/-- The amount at the price of a quote. -/
def reportAt (c : Conversion) (cached : CachedQuote) : Outcome ConversionReport := do
  let q := cached.quote
  let product ← .ofArithmetic (product c.amount q.unitPrice)
  let converted ← product.roundTo places .halfEven
  let amount ← .ofArithmetic c.amount.plainText
  let unitPrice ← .ofArithmetic q.unitPrice.plainText
  let converted ← .ofArithmetic converted.plainText
  match q.fetchedAt.toStamp? with
  | some fetchedAt => return ⟨c.pair, amount, unitPrice, converted, q.provider, fetchedAt, cached⟩
  | none => .error (.defect .outOfRange)

end Conversion

/-- One line for a reader. -/
def ConversionReport.line (r : ConversionReport) : String :=
  r.pair.kind.title ++ " " ++ r.amount ++ " " ++ r.pair.base ++ " -> " ++ r.converted ++ " "
    ++ r.pair.quote ++ " (price=" ++ r.unitPrice ++ " provider=" ++ r.provider
    ++ " cache=" ++ r.cached.status.label ++ ")"

end QuoteDesk
