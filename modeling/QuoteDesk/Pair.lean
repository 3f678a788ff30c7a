import QuoteDesk.Text.LowerCase

/-
Pairs of symbols whose price is asked for. The kind decides which sources are
asked and how long a price stays fresh; the key names the pair in a store.
-/
namespace QuoteDesk

/-- Rates between currencies, or prices of crypto assets. -/
inductive PairKind where
  | fx
  | crypto
  deriving DecidableEq, Repr

namespace PairKind

def name : PairKind → String
  | .fx => "fx"
  | .crypto => "crypto"

def title : PairKind → String
  | .fx => "FX"
  | .crypto => "CRYPTO"

def ofName? (s : String) : Option PairKind :=
  if s = "fx" then some .fx else if s = "crypto" then some .crypto else none

/-- How long a price stays fresh, in seconds: a day for currencies, five minutes
for assets. -/
def freshSeconds : PairKind → Nat
  | .fx => 24 * 60 * 60
  | .crypto => 5 * 60

theorem ofName?_name (k : PairKind) : ofName? k.name = some k := by cases k <;> decide

end PairKind

/-- The price of one `base` is told in `quote`. -/
structure Pair where
  kind : PairKind
  base : String
  quote : String
  deriving DecidableEq, Repr

namespace Pair

/-- The kind and both symbols in small letters, joined by hyphens. -/
def key (p : Pair) : String :=
  p.kind.name ++ "-" ++ Text.lower p.base ++ "-" ++ Text.lower p.quote

def text (p : Pair) : String := p.base ++ "/" ++ p.quote

end Pair
end QuoteDesk
