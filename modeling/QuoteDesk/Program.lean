import QuoteDesk.Arguments
import QuoteDesk.Cache.Shelf
import QuoteDesk.Desk
import QuoteDesk.Settings

/-
The program: settings from the environment, arguments, one command at the desk with
its cache in files, and the texts and the exit code that come of it.
-/
namespace QuoteDesk

/-! Payloads -/

def CachedQuote.freshnessJson (c : CachedQuote) : Json :=
  .object [("status", .text c.status.label), ("key", .text c.key), ("ttl_secs", .int c.ttl),
    ("age_secs", .int c.age)]

def ConversionReport.toJson (r : ConversionReport) : Json :=
  .object [("kind", .text r.pair.kind.name), ("base", .text r.pair.base),
    ("quote", .text r.pair.quote), ("amount", .text r.amount), ("unit_price", .text r.unitPrice),
    ("converted", .text r.converted), ("provider", .text r.provider),
    ("fetched_at", .text r.fetchedAt), ("cache", r.cached.freshnessJson)]

def Row.toJson (r : Row) : Json :=
  .object [("title", .text r.title), ("subtitle", .text r.subtitle), ("arg", .text r.arg),
    ("valid", .bool r.valid)]

def Row.itemsJson (rows : List Row) : Json := .object [("items", .list (rows.map toJson))]

def Fault.toJson (f : Fault) : Json :=
  .object [("code", .text f.code), ("layer", .text f.layer), ("message", .text f.message),
    ("exit_code", .int f.exitCode)]

namespace OutputForm

def conversionText : OutputForm → ConversionReport → String
  | .json, r => r.toJson.write
  | .human, r => r.line

def rowsText : OutputForm → List Row → String
  | .json, rows => (Row.itemsJson rows).write
  | .human, rows => Row.linesText rows

def faultText : OutputForm → Fault → String
  | .json, f => (Json.object [("error", f.toJson)]).write
  | .human, f => "error[" ++ f.code ++ "]: " ++ f.message

end OutputForm

namespace Desk

variable {σ ω : Type} [Store σ]

/-- The text that a command gives. -/
def carryOut (d : Desk σ ω) (i : Invocation) : Outcome String × Desk σ ω :=
  match i.command with
  | .convert kind base quote amount =>
    let (report, d) := d.convert kind base quote amount
    (report.map i.output.conversionText, d)
  | .evaluate query target =>
    let (rows, d) := d.query query target
    (rows.map i.output.rowsText, d)

end Desk

/-- What a run finds outside and leaves there. -/
structure World (ω : Type) where
  now : Moment
  /-- The system's directory for temporary files. -/
  temporary : String
  shelf : Shelf
  wire : ω

/-- How a run ends. -/
inductive Ending where
  | stopped (stop : Stop)
  | succeeded (out : String)
  | failed (f : Fault) (err : String)
  | broken (d : Defect)
  deriving DecidableEq, Repr

namespace Ending

def ofOutcome (output : OutputForm) : Outcome String → Ending
  | .ok text => .succeeded (text ++ "\n")
  | .error (.fault f) => .failed f (output.faultText f ++ "\n")
  | .error (.defect d) => .broken d

def out : Ending → String
  | .succeeded out => out
  | _ => ""

def err : Ending → String
  | .failed _ err => err
  | _ => ""

/-- The exit code, unless a defect ends the run. -/
def exitCode? : Ending → Option Nat
  | .stopped stop => some stop.exitCode
  | .succeeded _ => some 0
  | .failed f _ => some f.exitCode
  | .broken _ => none

end Ending

/-- A finished run. -/
structure Run (ω : Type) where
  ending : Ending
  world : World ω
  requests : List String
  waits : List Nat

namespace Program

variable {ω : Type}

def idle (ending : Ending) (w : World ω) : Run ω := ⟨ending, w, [], []⟩

/-- One run. Settings are read before the arguments. -/
def run [Wire ω] (environment : List (String × String)) (arguments : List String) (w : World ω) :
    Run ω :=
  match Settings.ofEnvironment? environment with
  | none => idle (.broken .invalidRecord) w
  | some settings =>
    match Arguments.read arguments with
    | .error stop => idle (.stopped stop) w
    | .ok invocation =>
      let files : Files := ⟨settings.cacheDirectory.getD w.temporary, w.shelf⟩
      let desk : Desk Files ω :=
        { market := Market.opened w.now settings.retry w.wire true
          cache := Cache.ofStore files
          defaultFiat := settings.defaultFiat }
      let (text, desk) := desk.carryOut invocation
      { ending := .ofOutcome invocation.output text
        world := { w with shelf := desk.cache.store.shelf, wire := desk.market.line.wire }
        requests := desk.market.line.requests
        waits := desk.market.waits }

end Program
end QuoteDesk
