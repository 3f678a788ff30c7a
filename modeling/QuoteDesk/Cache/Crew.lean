import QuoteDesk.Cache.Lookup

/-
Lookups that run side by side on one cache. Those of one key take turns in the order
in which they came: one enters when no earlier one of its key is open, holds the key
while its fetch runs, and leaves when the fetch has ended or it is cancelled. Lookups
of different keys do not wait for each other.
-/
namespace QuoteDesk

/-- A lookup that is asked for, with what its fetch would give and how long it takes. -/
structure Call where
  key : String
  ttl : Int
  fetched : Outcome Quote
  delay : Nat

inductive Phase where
  | waiting
  | fetching (since : Moment) (entry : Option Entry) (due : Nat)
  | done (answer : Outcome CachedQuote) (fetched : Bool)
  | cancelled

namespace Phase

/-- Whether the lookup has not ended. -/
def isOpen : Phase → Bool
  | .waiting | .fetching _ _ _ => true
  | _ => false

def isWaiting : Phase → Bool
  | .waiting => true
  | _ => false

end Phase

structure Task where
  call : Call
  phase : Phase

/-- A cache and the lookups on it, in the order in which they came. -/
structure Crew (σ : Type) where
  cache : Cache σ
  tasks : List Task

namespace Crew

/-- The first waiting lookup whose key is not held. -/
def nextToEnter (held : List String) : List Task → Option Nat
  | [] => none
  | t :: ts =>
    if t.phase.isWaiting && !held.contains t.call.key then some 0
    else
      (nextToEnter (if t.phase.isOpen then t.call.key :: held else held) ts).map (· + 1)

/-- The running fetch that ends first, and when. -/
def nextToFinish : List Task → Option (Nat × Nat)
  | [] => none
  | t :: ts =>
    let later := (nextToFinish ts).map fun (i, due) => (i + 1, due)
    match t.phase, later with
    | .fetching _ _ due, some (i, due') => if due ≤ due' then some (0, due) else some (i, due')
    | .fetching _ _ due, none => some (0, due)
    | _, later => later

variable {σ : Type} [Store σ]

/-- A waiting lookup gets its turn. -/
def enter (c : Crew σ) (now : Moment) (tick i : Nat) : Crew σ :=
  match c.tasks[i]? with
  | some ⟨call, .waiting⟩ =>
    match c.cache.look now call.key call.ttl with
    | (.error f, cache) => ⟨cache, c.tasks.set i ⟨call, .done (.error f) false⟩⟩
    | (.ok (.answered a), cache) => ⟨cache, c.tasks.set i ⟨call, .done (.ok a) false⟩⟩
    | (.ok (.missing entry), cache) =>
      ⟨cache, c.tasks.set i ⟨call, .fetching now entry (tick + call.delay)⟩⟩
  | _ => c

/-- A running fetch ends. -/
def finish (c : Crew σ) (i : Nat) : Crew σ :=
  match c.tasks[i]? with
  | some ⟨call, .fetching since entry _⟩ =>
    let (answer, cache) := c.cache.settle since call.key call.ttl entry call.fetched
    ⟨cache, c.tasks.set i ⟨call, .done answer true⟩⟩
  | _ => c

/-- An open lookup is given up; it has changed nothing but its counts. -/
def cancel (c : Crew σ) (i : Nat) : Crew σ :=
  match c.tasks[i]? with
  | some t => if t.phase.isOpen then { c with tasks := c.tasks.set i ⟨t.call, .cancelled⟩ } else c
  | none => c

/-- Whoever may enter does so at once; else the fetch that is due first ends. -/
def runFrom (now : Moment) : (fuel tick : Nat) → Crew σ → Crew σ
  | 0, _, c => c
  | fuel + 1, tick, c =>
    match nextToEnter [] c.tasks with
    | some i => runFrom now fuel tick (c.enter now tick i)
    | none =>
      match nextToFinish c.tasks with
      | some (i, due) => runFrom now fuel due (c.finish i)
      | none => c

/-- All calls on a cache until each has its answer; a call enters once and leaves once. -/
def run (cache : Cache σ) (now : Moment) (calls : List Call) : Crew σ :=
  runFrom now (2 * calls.length) 0 ⟨cache, calls.map fun call => ⟨call, .waiting⟩⟩

/-- The answers, each with whether its fetch was made. -/
def answers (c : Crew σ) : List (Outcome CachedQuote × Bool) :=
  c.tasks.filterMap fun t =>
    match t.phase with
    | .done answer fetched => some (answer, fetched)
    | _ => none

end Crew
end QuoteDesk
