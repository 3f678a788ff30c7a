import QuoteDesk.Expression.Evaluation

/-
Rows that show a result: a numeric result has one, a portfolio one for the price of
each asset and one for the total, which spells out the formula. Prices and totals are
rounded here and nowhere before.
-/
namespace QuoteDesk

structure Row where
  title : String
  subtitle : String
  arg : String
  valid : Bool
  deriving DecidableEq, Repr

namespace Row

def line (r : Row) : String :=
  if r.subtitle.isEmpty then r.title else r.title ++ " | " ++ r.subtitle

def linesText (rows : List Row) : String := "\n".intercalate (rows.map line)

end Row

namespace Evaluation

/-- The unit price of one asset. -/
def assetRow (target symbol : String) (c : CachedQuote) : Outcome Row := do
  let price ← c.quote.unitPrice.marketText
  return {
    title := "1 " ++ symbol ++ " = " ++ price ++ " " ++ target
    subtitle := "provider: " ++ c.quote.provider ++ " · freshness: " ++ c.status.label
    arg := price ++ " " ++ target
    valid := true }

/-- A term as value times price. -/
def piece (assets : List (String × CachedQuote)) (t : Term) : Outcome String := do
  let c ← Expression.priceOf assets t
  let value ← .ofArithmetic t.value.plainText
  let price ← c.quote.unitPrice.marketText
  return value ++ "*" ++ price ++ "(" ++ t.symbol?.getD "" ++ ")"

/-- The pieces after the first, each behind its operator. -/
def joinedPieces (assets : List (String × CachedQuote)) :
    List Term → List Operator → Outcome (List String)
  | [], _ => .ok []
  | t :: ts, ops => do
    let p ← piece assets t
    match ops with
    | [] => .error (.defect .outOfPlace)
    | op :: ops => return (op.text ++ " " ++ p) :: (← joinedPieces assets ts ops)

def formula (e : Evaluation) : Outcome String := do
  let pieces ← match e.terms with
    | [] => .ok []
    | t :: ts => do
      let p ← piece e.assets t
      let ps ← joinedPieces e.assets ts e.operators
      Except.ok (p :: ps)
  return "Formula: " ++ " ".intercalate pieces

def totalRow (e : Evaluation) : Outcome Row := do
  let total ← e.total.marketText
  let formula ← e.formula
  return {
    title := "Total = " ++ total ++ " " ++ e.target
    subtitle := formula ++ " = " ++ total ++ " " ++ e.target
    arg := total ++ " " ++ e.target
    valid := true }

def rows (e : Evaluation) : Outcome (List Row) :=
  match e.mode with
  | .numeric => do
    let text ← .ofArithmetic e.total.plainText
    return [⟨text, "Numeric result", text, true⟩]
  | .asset => do
    let prices ← e.assets.mapM fun (symbol, c) => assetRow e.target symbol c
    let total ← e.totalRow
    return prices ++ [total]

end Evaluation
end QuoteDesk
