import QuoteDesk.Pair
import QuoteDesk.Table
import QuoteDesk.Text.DecimalDigit

/-
Arguments of the command line. Options have long names that may be cut as long as
they stay unambiguous, and a value follows its option or an equals sign. Text that
opens with a hyphen is a value only if it is a negative number or holds a space. Of
two mistakes the earlier one counts, and help that is reached before a mistake is
given.
-/
namespace QuoteDesk

inductive OutputForm where
  | json
  | human
  deriving DecidableEq, Repr

inductive Command where
  | convert (kind : PairKind) (base quote amount : String)
  | evaluate (query : String) (target : Option String)
  deriving DecidableEq, Repr

structure Invocation where
  command : Command
  output : OutputForm
  deriving DecidableEq, Repr

/-- Why there is nothing to carry out. -/
inductive Stop where
  | help
  | usage
  deriving DecidableEq, Repr

namespace Stop

def exitCode : Stop → Nat
  | .help => 0
  | .usage => 2

end Stop

namespace OutputForm

def name : OutputForm → String
  | .json => "json"
  | .human => "human"

def ofName? (s : String) : Option OutputForm :=
  if s = "json" then some .json else if s = "human" then some .human else none

end OutputForm

namespace Arguments

/-- What an argument is taken for. -/
inductive Word where
  | value (text : String)
  | option (name : String) (attached : Option String)
  | helpCluster (rest : List Char)
  | unknown
  | separator
  | ambiguous
  deriving DecidableEq, Repr

def isDecimalDigit (c : Char) : Bool := (Text.digitValue? c).isSome

/-- Whether an argument is a negative number: digits, or a point with digits after it.
A line break at its end does not matter. -/
def isNegativeNumber (cs : List Char) : Bool :=
  match cs with
  | '-' :: cs =>
    let cs := if cs.getLast? = some '\n' then cs.dropLast else cs
    match cs.dropWhile isDecimalDigit with
    | [] => !cs.isEmpty
    | '.' :: fraction => !fraction.isEmpty && fraction.all isDecimalDigit
    | _ => false
  | _ => false

/-- The part before the first equals sign, and the part after it. -/
def splitEquals (cs : List Char) : Option (List Char × List Char) :=
  match cs.dropWhile (· ≠ '=') with
  | _ :: value => some (cs.takeWhile (· ≠ '='), value)
  | [] => none

/-- The options that an argument can mean when it is no option's full name: a long one
by its beginning, and the short one for help with more letters behind it. -/
def candidates (names : List String) (cs : List Char) : List Word :=
  match cs with
  | '-' :: '-' :: _ =>
    let (start, attached) := match splitEquals cs with
      | some (start, value) => (start, some (String.ofList value))
      | none => (cs, none)
    (names.filter fun n => start.isPrefixOf n.toList).map fun n => .option n attached
  | '-' :: 'h' :: more => [.helpCluster more]
  | _ => []

/-- What an argument is taken for where the options `names` are known. -/
def classify (names : List String) (arg : String) : Word :=
  match arg.toList with
  | '-' :: [] => .value arg
  | '-' :: rest =>
    let cs := '-' :: rest
    if rest = ['-'] then .separator
    else if names.contains arg then .option arg none
    else
      let exact := (splitEquals cs).bind fun (name, value) =>
        if names.contains (String.ofList name) then
          some (Word.option (String.ofList name) (some (String.ofList value)))
        else none
      match exact with
      | some w => w
      | none =>
        match candidates names cs with
        | [w] => w
        | _ :: _ :: _ => .ambiguous
        | [] => if isNegativeNumber cs || cs.contains ' ' then .value arg else .unknown
  | _ => .value arg

/-- All arguments; behind a separator there are values only. -/
def classifyAll (names : List String) : List String → List Word
  | [] => []
  | a :: as =>
    match classify names a with
    | .separator => .separator :: as.map .value
    | w => w :: classifyAll names as

/-- The option for help gives it, unless it is given a value. -/
def helpStop (attached : Option String) : Stop := if attached.isSome then .usage else .help

/-- Letters behind the short option for help: it may be repeated, neither a hyphen nor
an equals sign may follow, and anything else is passed over. -/
def clusterStop : List Char → Stop
  | [] => .help
  | '-' :: _ => .usage
  | ['h'] => .help
  | 'h' :: '=' :: _ => .usage
  | 'h' :: more => clusterStop more
  | _ => .help

def isHelp (name : String) : Bool := name = "-h" || name = "--help"

/-- Options with their values, and whether anything else was there. -/
structure Collected where
  values : Table String
  extras : Bool

/-- An option's value; the form of output has two only. -/
def accept (c : Collected) (name value : String) : Except Stop Collected :=
  if name = "--output" && (OutputForm.ofName? value).isNone then .error .usage
  else .ok { c with values := c.values.set name value }

/-- The arguments of a command in their order. -/
def collect (c : Collected) : List Word → Except Stop Collected
  | [] => .ok c
  | .value _ :: ws | .unknown :: ws | .separator :: ws => collect { c with extras := true } ws
  | .ambiguous :: _ => .error .usage
  | .helpCluster rest :: _ => .error (clusterStop rest)
  | .option name attached :: ws =>
    if isHelp name then .error (helpStop attached)
    else
      match attached, ws with
      | some value, ws => do
        let c ← accept c name value
        collect c ws
      | none, .value value :: ws => do
        let c ← accept c name value
        collect c ws
      | none, _ => .error .usage

def helpNames : List String := ["-h", "--help"]

def convertNames : List String := helpNames ++ ["--base", "--quote", "--amount", "--output"]

def evaluateNames : List String := helpNames ++ ["--query", "--default-fiat", "--output"]

/-- The options of a command; an ambiguous one is a mistake wherever it stands. -/
def readOptions (names args : List String) : Except Stop Collected :=
  let ws := classifyAll names args
  if ws.contains .ambiguous then .error .usage else collect ⟨[], false⟩ ws

def required (c : Collected) (name : String) : Except Stop String :=
  match c.values.lookup name with
  | some v => .ok v
  | none => .error .usage

def outputOf (c : Collected) : OutputForm :=
  ((c.values.lookup "--output").bind OutputForm.ofName?).getD .json

/-- A command's invocation, unless something was left over. -/
def finish (c : Collected) (command : Command) : Except Stop Invocation :=
  if c.extras then .error .usage else .ok ⟨command, outputOf c⟩

def readCommand (name : String) (args : List String) : Except Stop Invocation :=
  match PairKind.ofName? name with
  | some kind => do
    let c ← readOptions convertNames args
    let base ← required c "--base"
    let quote ← required c "--quote"
    let amount ← required c "--amount"
    finish c (.convert kind base quote amount)
  | none =>
    if name = "expr" then do
      let c ← readOptions evaluateNames args
      let query ← required c "--query"
      finish c (.evaluate query (c.values.lookup "--default-fiat"))
    else .error .usage

/-- The command and its options. What stands before the command can only be help, or
a mistake that is told after the command's own. -/
def read : List String → Except Stop Invocation
  | [] => .error .usage
  | a :: as =>
    match classify helpNames a with
    | .value name => readCommand name as
    | .option _ attached => .error (helpStop attached)
    | .helpCluster rest => .error (clusterStop rest)
    | .unknown =>
      match read as with
      | .error stop => .error stop
      | .ok _ => .error .usage
    | _ => .error .usage

end Arguments
end QuoteDesk
