import QuoteDesk.Provider.Chain
import QuoteDesk.Provider.Payload
import QuoteDesk.Provider.Wire

/-
The three public sources of prices: one for currencies and two for assets, the second
of which has its own name for bitcoin. A source turns a pair into an address and the
body of a response into a price.
-/
namespace QuoteDesk

inductive Source where
  | frankfurter
  | coinbase
  | kraken
  deriving DecidableEq, Repr

namespace Source

def name : Source → String
  | .frankfurter => "frankfurter"
  | .coinbase => "coinbase"
  | .kraken => "kraken"

def kind : Source → PairKind
  | .frankfurter => .fx
  | .coinbase | .kraken => .crypto

/-- The sources of a kind, best first. -/
def ranked : PairKind → List Source
  | .fx => [.frankfurter]
  | .crypto => [.coinbase, .kraken]

/-- A symbol as the ticker names it. -/
def tickerSymbol (s : String) : String := if s = "BTC" then "XBT" else s

/-- Both symbols side by side, as the ticker names a pair. -/
def tickerPair (base quote : String) : Except ProviderCause String :=
  if Symbol.isAsset base.toList && Symbol.isAsset quote.toList then
    .ok (tickerSymbol base ++ tickerSymbol quote)
  else .error (.unsupportedPair (base ++ "/" ++ quote))

/-- Where the price of a pair is found. -/
def address (s : Source) (base quote : String) : Except ProviderCause String :=
  match s with
  | .frankfurter =>
    .ok ("https://api.frankfurter.dev/v1/latest?base=" ++ base ++ "&symbols=" ++ quote)
  | .coinbase => .ok ("https://api.coinbase.com/v2/prices/" ++ base ++ "-" ++ quote ++ "/spot")
  | .kraken =>
    (tickerPair base quote).map fun pair => "https://api.kraken.com/0/public/Ticker?pair=" ++ pair

/-- The price in a response. -/
def decode (s : Source) (quote : String) (status : Int) (body : String) : Outcome Decimal :=
  match s with
  | .frankfurter => Payload.ratePayload status body quote
  | .coinbase => Payload.spotPayload status body
  | .kraken => Payload.tickerPayload status body

variable {ω : Type}

/-- That a request broke off. -/
def broken (s : Source) (text : String) : Outcome Numeral :=
  .error (.fault (.provider ⟨.transport text, some s.name⟩))

/-- What a reply means. -/
def attemptOf (s : Source) (quote : String) : Reply → Attempt
  | .response status body => ⟨(s.decode quote status body).map .finite, true, false⟩
  | .disconnected text => ⟨s.broken (if text.isEmpty then "ClientError" else text), true, true⟩
  | .timedOut => ⟨s.broken "TimeoutError", true, true⟩
  | .refused => ⟨.error (.defect .badValue), true, false⟩

/-- One request for a price. Without an address or a connection nothing is sent. -/
def attempt [Wire ω] (s : Source) (base quote : String) (l : Line ω) : Attempt × Line ω :=
  match s.address base quote with
  | .error cause => (⟨.error (.fault (.provider ⟨cause, none⟩)), false, false⟩, l)
  | .ok url =>
    if l.connected then
      let (reply, wire) := Wire.request l.wire url
      (s.attemptOf quote reply, { l with wire := wire, requests := l.requests ++ [url] })
    else (⟨s.broken "HTTP session is not initialized", false, false⟩, l)

/-- The source as a provider that has done nothing yet. -/
def provider [Wire ω] (s : Source) : Provider (Line ω) :=
  ⟨s.name, s.kind, s.attempt, .zero⟩

end Source
end QuoteDesk
