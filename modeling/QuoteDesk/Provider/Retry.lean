import QuoteDesk.Binary64
import QuoteDesk.Fault

/-
Bounded retries. A failure that may pass is tried again after a wait, and every wait
is twice as long as the one before it. The last attempt's own outcome is the result.
Waits are binary numbers of seconds, and a policy that no such number suits fails
before its first attempt.
-/
namespace QuoteDesk

/-- How many attempts are made at most, and the first wait in milliseconds. -/
structure RetryPolicy where
  maxAttempts : Nat
  backoff : Nat
  positive : 0 < maxAttempts
  deriving DecidableEq, Repr

namespace RetryPolicy

def standard : RetryPolicy := ⟨3, 200, by decide⟩

/-- A policy from numbers that may be out of bounds. -/
def ofInts? (maxAttempts backoff : Int) : Option RetryPolicy :=
  if h : 0 < maxAttempts.toNat then
    if 0 ≤ backoff then some ⟨maxAttempts.toNat, backoff.toNat, h⟩ else none
  else none

/-- The first wait in seconds. The milliseconds become a binary number before they are
divided; nothing if they are past the largest. -/
def firstWait? (p : RetryPolicy) : Option Binary64 := do
  let milliseconds ← Binary64.nearest false p.backoff 1
  milliseconds.times 1 1000

end RetryPolicy

namespace Retry

/-- The longest wait, two to the 62nd seconds. -/
def longestWait : Binary64 := ⟨false, 2 ^ 52, 10⟩

/-- The wait after attempt `i`, counted from zero. The power is a binary number as well:
past two to the 1023rd there is only the longest wait. -/
def wait (first : Binary64) (i : Nat) : Binary64 :=
  if i < 1024 then
    match first.times (2 ^ i) 1 with
    | some doubled => if doubled.exceeds longestWait then longestWait else doubled
    | none => longestWait
  else longestWait

/-- A wait as it is recorded, in whole microseconds: the product is rounded as a binary
number, which there is for all waits, and then half to even. -/
def microseconds (w : Binary64) : Nat :=
  match w.times 1000000 1 with
  | some x => Rounding.halfEven.divide false x.fraction.1 x.fraction.2
  | none => 0

variable {σ α : Type}

/-- An attempt with at most `left` more after it. The waits in between are listed. -/
def attempts (first : Binary64) (attempt : σ → Outcome α × σ) :
    (left i : Nat) → σ → Outcome α × List Binary64 × σ
  | 0, _, s =>
    let (o, s) := attempt s
    (o, [], s)
  | left + 1, i, s =>
    match attempt s with
    | (.error f, s) =>
      if f.retryable then
        let (o, waits, s) := attempts first attempt left (i + 1) s
        (o, wait first i :: waits, s)
      else (.error f, [], s)
    | (o, s) => (o, [], s)

/-- The outcome under the policy, the waits and what the attempts left behind. -/
def run (p : RetryPolicy) (attempt : σ → Outcome α × σ) (s : σ) :
    Outcome α × List Binary64 × σ :=
  match p.firstWait? with
  | some first => attempts first attempt (p.maxAttempts - 1) 0 s
  | none => (.error (.defect .outOfRange), [], s)

theorem run_of_some {p : RetryPolicy} {first : Binary64} (held : p.firstWait? = some first)
    (attempt : σ → Outcome α × σ) (s : σ) :
    run p attempt s = attempts first attempt (p.maxAttempts - 1) 0 s := by
  simp only [run, held]

theorem run_of_none {p : RetryPolicy} (lost : p.firstWait? = none)
    (attempt : σ → Outcome α × σ) (s : σ) :
    run p attempt s = (.error (.defect .outOfRange), [], s) := by
  simp only [run, lost]

end Retry
end QuoteDesk
