import QuoteDesk.Cache.Lookup
import QuoteDesk.Expression.Reader
import QuoteDesk.Expression.Row
import QuoteDesk.Provider.Source

/-
The desk: it converts amounts and evaluates expressions, and asks for every price
through the cache. A symbol of an expression that looks like a currency is tried as
one first and as an asset after that.
-/
namespace QuoteDesk

/-- The sources of both kinds with the line to them, the clock, and the waits so far. -/
structure Market (ω : Type) where
  now : Moment
  policy : RetryPolicy
  fx : List (Provider (Line ω))
  crypto : List (Provider (Line ω))
  line : Line ω
  waits : List Nat

namespace Market

variable {ω : Type}

/-- All sources, none asked yet. -/
def opened [Wire ω] (now : Moment) (policy : RetryPolicy) (wire : ω) (connected : Bool) :
    Market ω where
  now := now
  policy := policy
  fx := (Source.ranked .fx).map Source.provider
  crypto := (Source.ranked .crypto).map Source.provider
  line := ⟨wire, connected, []⟩
  waits := []

def chain (m : Market ω) : PairKind → List (Provider (Line ω))
  | .fx => m.fx
  | .crypto => m.crypto

def withChain (m : Market ω) (kind : PairKind) (providers : List (Provider (Line ω))) : Market ω :=
  match kind with
  | .fx => { m with fx := providers }
  | .crypto => { m with crypto := providers }

def providers (m : Market ω) : List (Provider (Line ω)) := m.fx ++ m.crypto

/-- A quote from the best source that has one. -/
def fetch (m : Market ω) (pair : Pair) : Outcome Quote × Market ω :=
  let s := Chain.search m.policy m.now pair (m.chain pair.kind) m.line
  (s.outcome,
    { m.withChain pair.kind s.providers with line := s.outside, waits := m.waits ++ s.waits })

end Market

structure Desk (σ ω : Type) where
  market : Market ω
  cache : Cache σ
  /-- The target of expressions that name none. -/
  defaultFiat : String

namespace Desk

variable {σ ω : Type} [Store σ]

/-- The price of a pair, through the cache. -/
def quotePair (d : Desk σ ω) (pair : Pair) : Outcome CachedQuote × Desk σ ω :=
  let (answer, _, cache, market) :=
    d.cache.lookup d.market.now pair.key pair.kind.freshSeconds (Market.fetch · pair) d.market
  (answer, { d with cache := cache, market := market })

/-- A conversion at the price of its pair. -/
def resolve (d : Desk σ ω) (c : Conversion) : Outcome ConversionReport × Desk σ ω :=
  let (cached, d) := d.quotePair c.pair
  (cached >>= c.reportAt, d)

def convert (d : Desk σ ω) (kind : PairKind) (base quote amount : String) :
    Outcome ConversionReport × Desk σ ω :=
  match Conversion.read kind base quote amount with
  | .error f => (.error f, d)
  | .ok c => d.resolve c

/-- That a symbol has a price neither as a currency nor as an asset. -/
def unresolved (symbol target : String) (trace : List String) : Failure :=
  .fault (.provider
    ⟨.unavailable ("failed to resolve quote for " ++ symbol ++ "/" ++ target) trace, none⟩)

/-- The price of a symbol as an asset, after the failures in `trace`. -/
def quoteAsCrypto (d : Desk σ ω) (symbol target : String) (trace : List String) :
    Outcome CachedQuote × Desk σ ω :=
  match Symbol.readAsset "base" symbol with
  | .error cause => (.error (.fault (.input cause)), d)
  | .ok base =>
    match d.quotePair ⟨.crypto, base, target⟩ with
    | (.error (.fault (.provider f)), d) =>
      (.error (unresolved symbol target (trace ++ ["crypto: " ++ f.text])), d)
    | r => r

/-- The price of a symbol of an expression. -/
def quoteAsset (d : Desk σ ω) (symbol target : String) : Outcome CachedQuote × Desk σ ω :=
  if Symbol.looksFiat symbol then
    match d.quotePair ⟨.fx, symbol, target⟩ with
    | (.error (.fault (.provider f)), d) => d.quoteAsCrypto symbol target ["fx: " ++ f.text]
    | r => r
  else d.quoteAsCrypto symbol target []

/-- The prices of symbols one after the other. All are asked for, and the first
failure in their order is the result. -/
def quoteAssets (d : Desk σ ω) (target : String) : List String →
    Outcome (List CachedQuote) × Desk σ ω
  | [] => (.ok [], d)
  | s :: more =>
    let (first, d) := d.quoteAsset s target
    let (rest, d) := d.quoteAssets target more
    (do return (← first) :: (← rest), d)

/-- An expression's value. -/
def evaluate (d : Desk σ ω) (e : Expression) : Outcome Evaluation × Desk σ ω :=
  match e.plan with
  | .error f => (.error f, d)
  | .ok (.finished result) => (.ok result, d)
  | .ok (.priced symbols) =>
    let (prices, d) := d.quoteAssets e.target symbols
    (prices >>= e.withPrices, d)

/-- The target of a query that names none: the one given with it, if any. -/
def targetOf (d : Desk σ ω) (given : Option String) : String :=
  match given with
  | some s => if s.isEmpty then d.defaultFiat else s
  | none => d.defaultFiat

/-- The rows of a query. -/
def query (d : Desk σ ω) (text : String) (target : Option String) :
    Outcome (List Row) × Desk σ ω :=
  match Expression.read text (d.targetOf target) with
  | .error f => (.error (.fault f), d)
  | .ok e =>
    let (result, d) := d.evaluate e
    (result >>= Evaluation.rows, d)

end Desk
end QuoteDesk
