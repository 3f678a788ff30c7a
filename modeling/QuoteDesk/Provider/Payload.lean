import QuoteDesk.Fault
import QuoteDesk.Json.Reader
import QuoteDesk.Json.Display
import QuoteDesk.Text.LowerCase

/-
Prices from the bodies of responses. Every source has a shape of its own; a status
outside the two hundreds is an error whatever the body, which then may hold a message.
A price is a text or a number of JSON that denotes a finite decimal.
-/
namespace QuoteDesk.Payload

def rejected {α : Type} (cause : ProviderCause) : Outcome α :=
  .error (.fault (.provider ⟨cause, none⟩))

/-- The decimal that a text or a number denotes. -/
def decimal? : Json → Option Decimal
  | .text s => Decimal.read (Text.trim s)
  | .int i => Decimal.read (String.ofList (Decimal.writeInt i))
  | .real x => Decimal.read x.toText
  | _ => none

def textDecimal? : Json → Option Decimal
  | .text s => decimal? (.text s)
  | _ => none

/-- The value of a body, which must be JSON. -/
def document (body : String) : Outcome Json :=
  match Json.read body with
  | some v => .ok v
  | none => rejected (.invalidResponse "<json error>")

/-! Messages of error bodies -/

/-- The places where a message may stand, the preferred ones first. -/
def messageCandidates (v : Json) : List Json :=
  let error := v.get? "error"
  let inError := match error with
    | some (.object ms) => (Json.object ms).get? "message"
    | some (.list (first :: _)) => some first
    | _ => none
  let inErrors := match v.get? "errors" with
    | some (.list (first :: _)) => first.get? "message"
    | _ => none
  [v.get? "message", error, inError, inErrors].filterMap id

/-- A text that is not blank, without the blanks around it. -/
def shownText? : Json → Option String
  | .text s => if (Text.trimChars s.toList).isEmpty then none else some (Text.trim s)
  | _ => none

def errorMessage? (body : String) : Option String :=
  (Json.read body).bind fun v => (messageCandidates v).findSome? shownText?

def isSuccess (status : Int) : Bool := 200 ≤ status && status ≤ 299

def checkStatus (status : Int) (body : String) : Outcome Unit :=
  if isSuccess status then .ok ()
  else rejected (.http status
    ((errorMessage? body).getD ("HTTP " ++ String.ofList (Decimal.writeInt status))))

/-! Shapes -/

/-- A number in an object in the object of the body, each under a name of its own. -/
def nestedPayload (outer inner : String) (number? : Json → Option Decimal) (missing : String)
    (invalid : Json → String) (status : Int) (body : String) : Outcome Decimal := do
  checkStatus status body
  let v ← document body
  match (v.get? outer).bind (·.get? inner) with
  | none => rejected (.invalidResponse missing)
  | some raw =>
    match number? raw with
    | some d => return d
    | none => rejected (.invalidResponse (invalid raw))

/-- An object of rates by symbol, under `rates`. -/
def ratePayload (status : Int) (body quote : String) : Outcome Decimal :=
  nestedPayload "rates" quote decimal? ("missing rate for " ++ quote)
    (fun raw => "invalid numeric rate for " ++ quote ++ ": " ++ raw.display) status body

/-- An object under `data` with an `amount`, which must be a text. -/
def spotPayload (status : Int) (body : String) : Outcome Decimal :=
  nestedPayload "data" "amount" textDecimal? "missing coinbase amount"
    (fun _ => "invalid coinbase amount") status body

/-- Whether a value says nothing: null, false, zero and what is empty. -/
def isVoid : Json → Bool
  | .null => true
  | .bool b => !b
  | .int i => i == 0
  | .real x => x.mantissa == 0
  | .text s => s.isEmpty
  | .list items => items.isEmpty
  | .object members => members.isEmpty

/-- The first item of a list or the first character of a text; an object has no
member named by a number, and other values hold nothing. -/
def firstOf : Json → Outcome Json
  | .list (v :: _) => .ok v
  | .list [] => .error (.defect .outOfPlace)
  | .text s =>
    match s.toList with
    | c :: _ => .ok (.text (String.singleton c))
    | [] => .error (.defect .outOfPlace)
  | .object _ => .error (.defect .unknownName)
  | _ => .error (.defect .wrongType)

/-- Whether the characters of `part` stand side by side in the text. -/
def contains (part : List Char) : List Char → Bool
  | [] => part.isEmpty
  | c :: cs => part.isPrefixOf (c :: cs) || contains part cs

/-- The error that a ticker response tells of. -/
def tickerError (v : Json) : Outcome Unit :=
  match v.get? "error" with
  | none => .ok ()
  | some e =>
    if isVoid e then .ok ()
    else do
      let text := (← firstOf e).display
      if contains "unknown asset pair".toList (Text.lower text).toList then
        rejected (.unsupportedPair text)
      else rejected (.http 400 text)

/-- Errors under `error`, else an object of tickers under `result`; the first one's
`c` begins with the price of the last trade, which must be a text. -/
def tickerPayload (status : Int) (body : String) : Outcome Decimal := do
  checkStatus status body
  match ← document body with
  | .object members => do
    let v := Json.object members
    tickerError v
    match v.get? "result" with
    | some (.object ((_, ticker) :: _)) =>
      match ticker.get? "c" with
      | none => rejected (.invalidResponse "missing kraken close price")
      | some close =>
        if isVoid close then rejected (.invalidResponse "missing kraken close price")
        else
          match textDecimal? (← firstOf close) with
          | some d => return d
          | none => rejected (.invalidResponse "invalid kraken close price")
    | _ => rejected (.invalidResponse "missing kraken result")
  | _ => rejected (.invalidResponse "expected kraken ticker object")

end QuoteDesk.Payload
