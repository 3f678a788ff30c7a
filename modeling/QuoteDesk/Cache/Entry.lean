import QuoteDesk.Quote
import QuoteDesk.Json.Lenient
import QuoteDesk.Json.Reader
import QuoteDesk.Json.Writer
import QuoteDesk.Moment.Reader

/-
What is kept for one key: the last quote, the last failure after it, when the quote
was fetched and for how long it counted as fresh. The JSON form has its members in a
fixed order; it is read leniently, and times that are missing are those of reading.
-/
namespace QuoteDesk

/-- A failed fetch. -/
structure FetchError where
  message : String
  failedAt : Moment
  deriving DecidableEq, Repr

structure Entry where
  key : String
  quote : Option Quote
  lastError : Option FetchError
  fetchedAt : Moment
  ttl : Int
  deriving DecidableEq, Repr

/-! Writing -/

def Quote.toJson (q : Quote) : Json :=
  .object [("base", .text q.base), ("quote", .text q.quote),
    ("unit_price", .text q.unitPrice.toText), ("provider", .text q.provider),
    ("fetched_at", .text q.fetchedAt.toText)]

def FetchError.toJson (e : FetchError) : Json :=
  .object [("message", .text e.message), ("failed_at", .text e.failedAt.toText)]

def Entry.toJson (e : Entry) : Json :=
  .object [("key", .text e.key), ("quote", e.quote.elim .null Quote.toJson),
    ("last_error", e.lastError.elim .null FetchError.toJson),
    ("fetched_at", .text e.fetchedAt.toText), ("ttl_seconds", .int e.ttl)]

/-- Whether a number can be written: the integers of 64 bits, with or without sign. -/
def writable (i : Int) : Bool := -9223372036854775808 ≤ i && i ≤ 18446744073709551615

/-- The text of an entry in a file. -/
def Entry.text (e : Entry) : Outcome String :=
  if writable e.ttl then .ok e.toJson.write else .error (.defect .wrongType)

/-! Reading -/

/-- The member of a record, if it has the type that `read` takes. -/
def member? {α : Type} (members : List (String × Json)) (name : String) (read : Json → Option α) :
    Option α :=
  (members.lookup name).bind read

/-- A time, or the time of reading where none is given. -/
def timeOr? (now : Moment) (members : List (String × Json)) (name : String) : Option Moment :=
  match members.lookup name with
  | none => some now
  | some v => Moment.ofJson? v

/-- A part that may be missing or null. -/
def part? {α : Type} (members : List (String × Json)) (name : String) (read : Json → Option α) :
    Option (Option α) :=
  match members.lookup name with
  | none | some .null => some none
  | some v => (read v).map some

def Quote.ofJson? (now : Moment) : Json → Option Quote
  | .object ms => do
    let base ← member? ms "base" Json.text?
    let quote ← member? ms "quote" Json.text?
    let unitPrice ← member? ms "unit_price" Json.decimal?
    let provider ← member? ms "provider" Json.text?
    let fetchedAt ← timeOr? now ms "fetched_at"
    some ⟨base, quote, unitPrice, provider, fetchedAt⟩
  | _ => none

def FetchError.ofJson? (now : Moment) : Json → Option FetchError
  | .object ms => do
    let message ← member? ms "message" Json.text?
    let failedAt ← timeOr? now ms "failed_at"
    some ⟨message, failedAt⟩
  | _ => none

def Entry.ofJson? (now : Moment) : Json → Option Entry
  | .object ms => do
    let key ← member? ms "key" Json.text?
    let quote ← part? ms "quote" (Quote.ofJson? now)
    let lastError ← part? ms "last_error" (FetchError.ofJson? now)
    let fetchedAt ← member? ms "fetched_at" Moment.ofJson?
    let ttl ← member? ms "ttl_seconds" Json.wholeNumber?
    some ⟨key, quote, lastError, fetchedAt, ttl⟩
  | _ => none

/-- The entry in the bytes of a file, if they hold one. -/
def Entry.ofBytes? (now : Moment) (bytes : ByteArray) : Option Entry := do
  let text ← String.fromUTF8? bytes
  let v ← Json.read text
  Entry.ofJson? now v

end QuoteDesk
