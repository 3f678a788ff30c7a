import QuoteDesk.Quote
import QuoteDesk.Provider.Retry

/-
Providers of prices in ranked order. Each is tried under the retry policy and the
first quote wins; a failure of a provider is noted and the next one is tried, any
other failure ends the search. Every provider keeps count of its own doings.
-/
namespace QuoteDesk

/-- What a provider has done so far. -/
structure Counters where
  requests : Nat
  quotes : Nat
  errors : Nat
  lastUpdate : Option Moment
  deriving DecidableEq, Repr

def Counters.zero : Counters := ⟨0, 0, 0, none⟩

/-- One try to get a price: whether a request went out, and whether it broke off. -/
structure Attempt where
  outcome : Outcome Numeral
  sent : Bool
  broken : Bool

/-- A provider, whose attempts change the world `ω` outside. -/
structure Provider (ω : Type) where
  name : String
  kind : PairKind
  attempt : (base quote : String) → ω → Attempt × ω
  counters : Counters

/-- The failure put down to a provider, if it is of the kind that can be. -/
def Failure.tagged (f : Failure) (provider : String) : Failure :=
  match f with
  | .fault (.provider p) => .fault (.provider (p.tagged provider))
  | f => f

namespace Provider

variable {ω : Type}

/-- An attempt with its counts. -/
def attemptCounted (p : Provider ω) (base quote : String) (s : Counters × ω) :
    Outcome Numeral × Counters × ω :=
  let (c, w) := s
  let (a, w) := p.attempt base quote w
  (a.outcome, { c with
    requests := c.requests + a.sent.toNat
    errors := c.errors + a.broken.toNat }, w)

/-- A quote from a price, which must be a number. -/
def quoteOf (provider base quote : String) (now : Moment) (price : Numeral) : Outcome Quote :=
  match price with
  | .finite d => .ok ⟨base, quote, d, provider, now⟩
  | _ => .error (.defect .invalidRecord)

/-- The price under the retry policy, the waits, the provider and the world after. -/
def fetchQuote (p : Provider ω) (policy : RetryPolicy) (now : Moment) (base quote : String)
    (w : ω) : Outcome Quote × List Binary64 × Provider ω × ω :=
  let (o, waits, c, w) := Retry.run policy (p.attemptCounted base quote) (p.counters, w)
  match o with
  | .ok price =>
    let c := { c with quotes := c.quotes + 1, lastUpdate := some now }
    (quoteOf p.name base quote now price, waits, { p with counters := c }, w)
  | .error f => (.error (f.tagged p.name), waits, { p with counters := c }, w)

/-- Without a first wait nothing is attempted. -/
theorem fetchQuote_of_none {policy : RetryPolicy} (lost : policy.firstWait? = none)
    (p : Provider ω) (now : Moment) (base quote : String) (w : ω) :
    p.fetchQuote policy now base quote w = (.error (.defect .outOfRange), [], p, w) := by
  simp only [fetchQuote, Retry.run_of_none lost, Failure.tagged]

end Provider

namespace Chain

variable {ω : Type}

/-- What a search through a chain gives and leaves behind, with the waits as they are
recorded. -/
structure Search (ω : Type) where
  outcome : Outcome Quote
  waits : List Nat
  providers : List (Provider ω)
  outside : ω

/-- That all providers have failed. -/
def exhausted (pair : Pair) (trace : List String) : Failure :=
  .fault (.provider
    ⟨.unavailable ("failed to fetch " ++ pair.kind.name ++ " price for " ++ pair.text) trace, none⟩)

/-- The search from some provider on, after the failures in `trace`. -/
def searchFrom (policy : RetryPolicy) (now : Moment) (pair : Pair) (trace : List String) :
    List (Provider ω) → ω → Search ω
  | [], w => ⟨.error (exhausted pair trace), [], [], w⟩
  | p :: ps, w =>
    let (o, waits, p, w) := p.fetchQuote policy now pair.base pair.quote w
    match o with
    | .error (.fault (.provider f)) =>
      let rest := searchFrom policy now pair (trace ++ [p.name ++ ": " ++ f.text]) ps w
      { rest with
        waits := waits.map Retry.microseconds ++ rest.waits
        providers := p :: rest.providers }
    | o => ⟨o, waits.map Retry.microseconds, p :: ps, w⟩

def search (policy : RetryPolicy) (now : Moment) (pair : Pair) (providers : List (Provider ω))
    (w : ω) : Search ω :=
  searchFrom policy now pair [] providers w

end Chain
end QuoteDesk
