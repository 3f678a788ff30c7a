import QuoteDesk.Cache.Store

/-
The cache in front of the sources. A fresh quote is answered as it is; otherwise the
price is fetched, and if that fails the last quote serves once more, however old. A
lookup has two halves with the fetch between them, and a count is kept of how lookups
of each key went.
-/
namespace QuoteDesk

/-- How the lookups of one key went. -/
structure Tally where
  live : Nat
  hits : Nat
  stale : Nat
  failures : Nat
  deriving DecidableEq, Repr

namespace Tally

def zero : Tally := ⟨0, 0, 0, 0⟩

def hit (t : Tally) : Tally := { t with hits := t.hits + 1 }

def fetched (t : Tally) : Tally := { t with live := t.live + 1 }

def failed (t : Tally) : Tally := { t with failures := t.failures + 1 }

def fellBack (t : Tally) : Tally := { t with stale := t.stale + 1 }

def add (a b : Tally) : Tally :=
  ⟨a.live + b.live, a.hits + b.hits, a.stale + b.stale, a.failures + b.failures⟩

/-- The share of lookups that were answered at once. -/
def hitRate (t : Tally) : Binary64 :=
  let lookups := t.live + t.hits + t.stale
  if lookups = 0 then ⟨false, 0, Binary64.lowestExponent⟩
  else (Binary64.nearest false t.hits lookups).getD default

end Tally

structure Cache (σ : Type) where
  store : σ
  tallies : Table Tally

/-- What the first half of a lookup comes to. -/
inductive Look where
  | answered (c : CachedQuote)
  | missing (entry : Option Entry)
  deriving DecidableEq, Repr

namespace Cache

variable {σ : Type}

def ofStore (store : σ) : Cache σ := ⟨store, []⟩

/-- One more count for a key. -/
def count (c : Cache σ) (key : String) (step : Tally → Tally) : Cache σ :=
  { c with tallies := c.tallies.set key (step ((c.tallies.lookup key).getD .zero)) }

def total (c : Cache σ) : Tally := c.tallies.foldl (fun t (_, u) => t.add u) .zero

variable [Store σ]

/-- The first half: whether the stored quote is still fresh. -/
def look (c : Cache σ) (now : Moment) (key : String) (ttl : Int) : Outcome Look × Cache σ :=
  match Store.read c.store now key with
  | .error f => (.error f, c)
  | .ok entry =>
    match entry.bind (·.quote), entry with
    | some q, some e =>
      match Moment.age? e.fetchedAt now with
      | none => (.error (.defect .wrongType), c)
      | some age =>
        if (age : Int) ≤ ttl then (.ok (.answered ⟨q, .fresh, key, ttl, age⟩), c.count key Tally.hit)
        else (.ok (.missing entry), c)
    | _, _ => (.ok (.missing entry), c)

/-- A fetched quote is stored and answered. -/
def keep (c : Cache σ) (key : String) (ttl : Int) (q : Quote) : Outcome CachedQuote × Cache σ :=
  match Store.write c.store ⟨key, some q, none, q.fetchedAt, ttl⟩ with
  | (.error f, store) => (.error f, { c with store := store })
  | (.ok (), store) =>
    (.ok ⟨q, .live, key, ttl, 0⟩, Cache.count { c with store := store } key Tally.fetched)

/-- The entry that records a failed fetch: the last quote and its time stay. -/
def failedEntry (now : Moment) (key : String) (ttl : Int) (entry : Option Entry) (f : Fault) :
    Entry :=
  let previous := entry.bind (·.quote)
  { key := key
    quote := previous
    lastError := some ⟨f.text, now⟩
    fetchedAt := if previous.isSome then (entry.map (·.fetchedAt)).getD now else now
    ttl := ttl }

/-- The last quote in place of one that could not be fetched. -/
def fallBack (c : Cache σ) (now : Moment) (key : String) (ttl : Int) (entry : Option Entry)
    (f : Fault) : Outcome CachedQuote × Cache σ :=
  match entry.bind (·.quote), entry with
  | some q, some e =>
    match Moment.age? e.fetchedAt now with
    | none => (.error (.defect .wrongType), c)
    | some age => (.ok ⟨q, .stale, key, ttl, age⟩, c.count key Tally.fellBack)
  | _, _ => (.error (.fault f), c)

/-- A failed fetch is recorded, as far as the store allows, and the last quote serves
if there is one. -/
def fail (c : Cache σ) (now : Moment) (key : String) (ttl : Int) (entry : Option Entry)
    (f : Fault) : Outcome CachedQuote × Cache σ :=
  let c := c.count key Tally.failed
  match Store.write c.store (failedEntry now key ttl entry f) with
  | (.error (.defect d), store) => (.error (.defect d), { c with store := store })
  | (_, store) => fallBack { c with store := store } now key ttl entry f

/-- The second half, once the fetch has ended. -/
def settle (c : Cache σ) (now : Moment) (key : String) (ttl : Int) (entry : Option Entry)
    (fetched : Outcome Quote) : Outcome CachedQuote × Cache σ :=
  match fetched with
  | .ok q => c.keep key ttl q
  | .error (.fault f) => c.fail now key ttl entry f
  | .error (.defect d) => (.error (.defect d), c)

/-- A whole lookup, whose fetch changes the world `ω` outside: the answer, whether
the fetch was made, the cache and the world after. -/
def lookup {ω : Type} (c : Cache σ) (now : Moment) (key : String) (ttl : Int)
    (fetch : ω → Outcome Quote × ω) (w : ω) : Outcome CachedQuote × Bool × Cache σ × ω :=
  match c.look now key ttl with
  | (.error f, c) => (.error f, false, c, w)
  | (.ok (.answered a), c) => (.ok a, false, c, w)
  | (.ok (.missing entry), c) =>
    let (fetched, w) := fetch w
    let (answer, c) := c.settle now key ttl entry fetched
    (answer, true, c, w)

end Cache
end QuoteDesk
