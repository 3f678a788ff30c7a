import QuoteDesk.Expression.Basic
import QuoteDesk.Quote

/-
Evaluation of expressions. Numbers are combined strictly from left to right, no
operator binding closer than another. Amounts of assets need one price per distinct
symbol; the total adds up amount times price. All steps round to the usual precision.
-/
namespace QuoteDesk

/-- A result with everything that is needed to show it. -/
structure Evaluation where
  mode : Mode
  total : Decimal
  target : String
  terms : List Term
  operators : List Operator
  assets : List (String × CachedQuote)
  deriving DecidableEq, Repr

namespace Expression

/-- One step of a numeric evaluation. -/
def applyNumeric (total : Decimal) (op : Operator) (value : Decimal) : Outcome Decimal :=
  match op with
  | .plus => .ofArithmetic (Decimal.add Decimal.precision total value)
  | .minus => .ofArithmetic (Decimal.sub Decimal.precision total value)
  | .times => .ofArithmetic (Decimal.mul Decimal.precision total value)
  | .over =>
    if value.isZero then .error (.fault (.divisionByZero Fault.divisionByZeroMessage))
    else .ofArithmetic (Decimal.div Decimal.precision total value)
  | .other text => .error (.fault (.expression (.unsupportedOperator text)))

/-- From left to right; what has no partner is left out. -/
def numericTotal (values : List Decimal) (operators : List Operator) : Outcome Decimal :=
  match values with
  | [] => .error (.defect .outOfPlace)
  | v :: vs => (operators.zip vs).foldlM (fun total (op, value) => applyNumeric total op value) v

/-- One step of the sum of assets: the amount is found before the operator is looked at. -/
def applyAsset (amountOf : Term → Outcome Decimal) (total : Decimal) (op : Operator) (t : Term) :
    Outcome Decimal := do
  let amount ← amountOf t
  match op with
  | .plus => .ofArithmetic (Decimal.add Decimal.precision total amount)
  | .minus => .ofArithmetic (Decimal.sub Decimal.precision total amount)
  | _ => .error (.fault (.expression .assetOperator))

/-- The price of a term's symbol. -/
def priceOf (assets : List (String × CachedQuote)) (t : Term) : Outcome CachedQuote :=
  match t.symbol?.bind fun s => assets.lookup s with
  | some c => .ok c
  | none => .error (.defect .unknownName)

/-- A term's value at the price of its symbol. -/
def amountOf (assets : List (String × CachedQuote)) (t : Term) : Outcome Decimal := do
  let c ← priceOf assets t
  .ofArithmetic (Decimal.mul Decimal.precision t.value c.quote.unitPrice)

def assetTotal (terms : List Term) (operators : List Operator)
    (assets : List (String × CachedQuote)) : Outcome Decimal :=
  match terms with
  | [] => .error (.defect .outOfPlace)
  | t :: ts => do
    let first ← amountOf assets t
    (operators.zip ts).foldlM (fun total (op, t) => applyAsset (amountOf assets) total op t) first

/-- What is left to do once the mode is known. -/
inductive Plan where
  | finished (e : Evaluation)
  | priced (symbols : List String)
  deriving DecidableEq, Repr

/-- Numbers are evaluated at once, assets need the prices of their symbols. -/
def plan (e : Expression) : Outcome Plan :=
  match e.mode with
  | .error f => .error (.fault f)
  | .ok .numeric => do
    let total ← numericTotal (e.terms.map (·.value)) e.operators
    return .finished ⟨.numeric, total, e.target, e.terms, e.operators, []⟩
  | .ok .asset => .ok (.priced e.symbols)

/-- The evaluation with the prices of all distinct symbols, in their order. -/
def withPrices (e : Expression) (prices : List CachedQuote) : Outcome Evaluation := do
  let assets := e.symbols.zip prices
  let total ← assetTotal e.terms e.operators assets
  return ⟨.asset, total, e.target, e.terms, e.operators, assets⟩

/-- The evaluation, with a way to get the prices of some symbols. -/
def evaluate (e : Expression) (prices : List String → Outcome (List CachedQuote)) :
    Outcome Evaluation := do
  match ← e.plan with
  | .finished result => return result
  | .priced symbols => e.withPrices (← prices symbols)

end Expression
end QuoteDesk
