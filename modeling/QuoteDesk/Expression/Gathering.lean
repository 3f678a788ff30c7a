import QuoteDesk.Expression.Evaluation

/-
Lookups that run side by side. All start in order; one that needs no time is done
before the next one starts, the others finish as their delays pass, in order of start
where the delays are equal. As soon as one has failed, those that still wait are
cancelled, and the first failure is the result.
-/
namespace QuoteDesk.Gathering

/-- How a lookup goes: it is refused as it starts, or it ends after a delay. -/
inductive Course (α : Type) where
  | refused (f : Failure)
  | ends (delay : Nat) (outcome : Outcome α)

inductive Event where
  | started (symbol target : String)
  | done (symbol : String)
  deriving DecidableEq, Repr

structure Waiting (α : Type) where
  symbol : String
  delay : Nat
  outcome : Outcome α

/-- What has happened so far, and the lookups that have not ended. -/
structure Progress (α : Type) where
  events : List Event
  answers : List (String × α)
  failure : Option Failure
  waiting : List (Waiting α)

variable {α : Type}

namespace Progress

def empty : Progress α := ⟨[], [], none, []⟩

/-- Only the first failure is kept. -/
def fail (p : Progress α) (f : Failure) : Progress α :=
  { p with failure := p.failure.or (some f) }

/-- A lookup ends. -/
def finish (p : Progress α) (symbol : String) (outcome : Outcome α) : Progress α :=
  let p := { p with events := p.events ++ [Event.done symbol] }
  match outcome with
  | .ok a => { p with answers := p.answers ++ [(symbol, a)] }
  | .error f => p.fail f

/-- A lookup starts. -/
def start (p : Progress α) (symbol target : String) (course : Course α) : Progress α :=
  let p := { p with events := p.events ++ [Event.started symbol target] }
  match course with
  | .refused f => p.fail f
  | .ends 0 outcome => p.finish symbol outcome
  | .ends (d + 1) outcome => { p with waiting := p.waiting ++ [(⟨symbol, d + 1, outcome⟩ : Waiting α)] }

/-- The least delay of the lookups that wait. -/
def nextDelay (p : Progress α) : Nat :=
  match p.waiting with
  | [] => 0
  | w :: ws => ws.foldl (fun d w => min d w.delay) w.delay

/-- Time passes until the next lookups end. -/
def pass (p : Progress α) : Progress α :=
  let (ready, later) := p.waiting.partition (·.delay == p.nextDelay)
  ready.foldl (fun p w => p.finish w.symbol w.outcome) { p with waiting := later }

/-- Time passes until a lookup has failed or none waits. -/
def settle : Nat → Progress α → Progress α
  | 0, p => p
  | fuel + 1, p => if p.failure.isSome || p.waiting.isEmpty then p else settle fuel p.pass

end Progress

/-- The course of all lookups, each for its symbol and the target, until their common result is
known. -/
def run (symbols : List String) (target : String) (course : (symbol target : String) → Course α) :
    Progress α :=
  let p := symbols.foldl (fun p s => p.start s target (course s target)) Progress.empty
  p.settle p.waiting.length

/-- The symbols whose lookups were cancelled. -/
def Progress.cancelled (p : Progress α) : List String := p.waiting.map (·.symbol)

/-- The answers in the order of the symbols, or the first failure. -/
def Progress.result (p : Progress α) (symbols : List String) : Outcome (List α) :=
  match p.failure with
  | some f => .error f
  | none => .ok (symbols.filterMap fun s => p.answers.lookup s)

end QuoteDesk.Gathering

namespace QuoteDesk.Expression

/-- The evaluation with all prices looked up side by side, and how the lookups went. A lookup is
given its symbol and the target. -/
def gather (e : Expression)
    (course : (symbol target : String) → Gathering.Course CachedQuote) :
    Outcome Evaluation × Gathering.Progress CachedQuote :=
  match e.plan with
  | .error f => (.error f, .empty)
  | .ok (.finished result) => (.ok result, .empty)
  | .ok (.priced symbols) =>
    let p := Gathering.run symbols e.target course
    (p.result symbols >>= e.withPrices, p)

end QuoteDesk.Expression
