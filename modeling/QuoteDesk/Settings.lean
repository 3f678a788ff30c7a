import QuoteDesk.Fault
import QuoteDesk.Json.Lenient
import QuoteDesk.Provider.Retry

/-
Settings by name, each with a default. Values come as texts from an environment or as
JSON, and are read leniently; one value that fits not its type refuses them all.
-/
namespace QuoteDesk

/-- A length of time in seconds as a binary number, which may also be none. -/
inductive Seconds where
  | finite (x : Binary64)
  | infinite (negative : Bool)
  | undefined
  deriving DecidableEq, Repr

namespace Seconds

def ofBinary (negative : Bool) (x : Option Binary64) : Seconds :=
  x.elim (.infinite negative) .finite

/-- Underscores between characters are left out, in no other place they may stand. -/
def withoutUnderscores? (cs : List Char) : Option (List Char) :=
  if cs.head? = some '_' ∨ cs.getLast? = some '_' ∨ (cs.zip cs.tail).contains ('_', '_') then none
  else some (cs.filter (· ≠ '_'))

def ofText? (s : String) : Option Seconds := do
  let cs ← withoutUnderscores? (Text.trimOuter s.toList)
  let (negative, cs) := Numeral.splitSign cs
  match Numeral.readFinite negative cs with
  | some d => some (ofBinary negative (Binary64.ofDecimal d))
  | none =>
    let word := String.ofList (cs.map Char.toLower)
    if word = "inf" ∨ word = "infinity" then some (.infinite negative)
    else if word = "nan" then some .undefined
    else none

def ofJson? : Json → Option Seconds
  | .int i => some (ofBinary (i < 0) (Binary64.nearest (i < 0) i.natAbs 1))
  | .bool b => some (ofBinary false (Binary64.nearest false b.toNat 1))
  | .real x => some (.finite x)
  | .text s => ofText? s
  | _ => none

/-- Whole milliseconds: the product is rounded as a binary number, then half to even. -/
def milliseconds : Seconds → Outcome Int
  | .finite x =>
    let (n, d) := x.fraction
    match Binary64.nearest x.negative (n * 1000) d with
    | some y =>
      let (n, d) := y.fraction
      let k : Nat := Rounding.halfEven.divide false n d
      .ok (if y.negative then -k else k)
    | none => .error (.defect .outOfRange)
  | .infinite _ => .error (.defect .outOfRange)
  | .undefined => .error (.defect .badValue)

end Seconds

structure Settings where
  /-- Where cached quotes are kept, if not in the system's place for temporary files. -/
  cacheDirectory : Option String
  /-- The target of expressions that name none. -/
  defaultFiat : String
  /-- How long a request may take. -/
  timeout : Seconds
  retry : RetryPolicy
  logLevel : String
  logFormat : String
  debug : Bool
  deriving DecidableEq, Repr

namespace Settings

/-- The parts of a path without empty ones and those that stand for the same place. -/
def pathParts (cs : List Char) : List (List Char) :=
  (cs.splitOn '/').filter fun part => !part.isEmpty && part != ['.']

/-- A path without repeated slashes; just two of them at the start stay. -/
def normalPath (path : String) : String :=
  let cs := path.toList
  let slashes := (cs.takeWhile (· = '/')).length
  let root := if slashes = 0 then [] else if slashes = 2 then ['/', '/'] else ['/']
  let body := root ++ ['/'].intercalate (pathParts cs)
  String.ofList (if body.isEmpty then ['.'] else body)

/-- The directory that a text names; a blank one names none. -/
def directoryOf (s : String) : Option String :=
  if (Text.trimChars s.toList).isEmpty then none else some (normalPath (Text.trim s))

/-- The value of a name, or its default where it is not given. -/
def valueOr? {α : Type} (values : List (String × Json)) (name : String) (dflt : α)
    (read : Json → Option α) : Option α :=
  match values.lookup name with
  | none => some dflt
  | some v => read v

def directory? : Json → Option (Option String)
  | .null => some none
  | .text s => some (directoryOf s)
  | _ => none

def read? (values : List (String × Json)) : Option Settings := do
  let cacheDirectory ← valueOr? values "MARKET_CACHE_DIR" none directory?
  let defaultFiat ← valueOr? values "DEFAULT_FIAT" "USD" Json.text?
  let timeout ← valueOr? values "PROVIDER_TIMEOUT_SECS"
    (Seconds.ofBinary false (Binary64.nearest false 6 1)) Seconds.ofJson?
  let attempts ← valueOr? values "PROVIDER_RETRY_MAX_ATTEMPTS" 3 Json.wholeNumber?
  let backoff ← valueOr? values "PROVIDER_RETRY_BASE_BACKOFF_MS" 200 Json.wholeNumber?
  let retry ← RetryPolicy.ofInts? attempts backoff
  let logLevel ← valueOr? values "LOG_LEVEL" "WARNING" Json.text?
  let logFormat ← valueOr? values "LOG_FORMAT" "json" Json.text?
  let debug ← valueOr? values "DEBUG" false Json.truth?
  some ⟨cacheDirectory, defaultFiat, timeout, retry, logLevel, logFormat, debug⟩

/-- Settings from the variables of an environment. -/
def ofEnvironment? (named : List (String × String)) : Option Settings :=
  read? (named.map fun (name, value) => (name, .text value))

end Settings
end QuoteDesk
