import QuoteDesk.Proofs.Cache.Keeping
import QuoteDesk.Proofs.Pair
import QuoteDesk.Proofs.Provider.Course

/-
Lookups of prices side by side, down to the single request. Each goes on by itself: it
looks into the cache, sends its requests one by one, and hands what they came to back to
the cache, while the others do the same in between; it may be given up at any time. The
turns that lookups of one key take are left out here, so more can happen than really does.
-/
namespace QuoteDesk

/-- A request that was answered: for which pair it was made, and when the reply came. -/
structure Exchange where
  pair : Pair
  address : String
  reply : Reply
  time : Moment

/-- Where the lookup of a price stands. -/
inductive Stage where
  | waiting
  | asking (since : Moment) (entry : Option Entry) (address : String)
      (next : Reply → Course (String × Numeral))
  | done (answer : Outcome CachedQuote)
  | cancelled

/-- The answer of a lookup that is done. -/
def Stage.answer? : Stage → Option CachedQuote
  | .done (.ok a) => some a
  | _ => none

theorem Stage.done_of_answer? {stage : Stage} {a : CachedQuote} (answer : stage.answer? = some a) :
    stage = .done (.ok a) := by
  unfold answer? at answer
  split at answer
  · cases answer
    rfl
  · cases answer

structure PriceLookup where
  pair : Pair
  stage : Stage

structure Session (σ : Type) where
  cache : Cache σ
  exchanges : List Exchange
  lookups : List PriceLookup

/-- The pairs whose prices are asked for: those of conversions, and for each symbol of an
expression the currency pair if it looks like a currency, and the asset pair. -/
inductive Pair.Wanted : Pair → Prop where
  | conversion {kind : PairKind} {base quote amount : String} {c : Conversion}
      (read : Conversion.read kind base quote amount = .ok c) : Wanted c.pair
  | currency {text default symbol : String} {e : Expression}
      (read : Expression.read text default = .ok e) (mentioned : symbol ∈ e.symbols)
      (fiat : Symbol.looksFiat symbol = true) : Wanted ⟨.fx, symbol, e.target⟩
  | asset {text default symbol base : String} {e : Expression}
      (read : Expression.read text default = .ok e) (mentioned : symbol ∈ e.symbols)
      (named : Symbol.readAsset "base" symbol = .ok base) : Wanted ⟨.crypto, base, e.target⟩

theorem Outcome.ok_of_ofInput {α : Type} {x : Except InputFault α} {a : α}
    (done : Outcome.ofInput x = .ok a) : x = .ok a := by
  cases x with
  | error cause => cases done
  | ok b => exact congrArg _ (Except.ok.inj done)

theorem Pair.settled_of_wanted {pair : Pair} (wanted : pair.Wanted) : pair.Settled := by
  cases wanted with
  | conversion read =>
    obtain ⟨base, readBase, read⟩ := ok_of_bind read
    obtain ⟨quote, readQuote, read⟩ := ok_of_bind read
    obtain ⟨amount, _, read⟩ := ok_of_bind read
    cases read
    exact ⟨Symbol.settled_of_readFor (Outcome.ok_of_ofInput readBase),
      Symbol.settled_of_readFor (Outcome.ok_of_ofInput readQuote)⟩
  | currency read mentioned fiat =>
    obtain ⟨symbols, target⟩ := Expression.settled_of_read read
    exact ⟨symbols _ mentioned, target⟩
  | asset read mentioned named =>
    obtain ⟨_, target⟩ := Expression.settled_of_read read
    exact ⟨Symbol.settled_of_readAsset named, target⟩

namespace Session

variable {σ : Type} [Store σ]

def log (s : Session σ) (xs : List Exchange) : Session σ :=
  { s with exchanges := s.exchanges ++ xs }

omit [Store σ] in
theorem log_nil (s : Session σ) : s.log [] = s := by
  simp only [log, List.append_nil]

omit [Store σ] in
theorem log_log (s : Session σ) (xs ys : List Exchange) : (s.log xs).log ys = s.log (xs ++ ys) := by
  simp only [log, List.append_assoc]

/-- A search goes on: it asks once more, or what it came to goes to the cache. -/
def proceed (s : Session σ) (i : Nat) (pair : Pair) (since : Moment) (entry : Option Entry)
    (now : Moment) : Course (String × Numeral) → Session σ
  | .asks address next =>
    { s with lookups := s.lookups.set i ⟨pair, .asking since entry address next⟩ }
  | .ends o =>
    let (answer, cache) :=
      s.cache.settle since pair.key pair.kind.freshSeconds entry (pair.quoteAt now o)
    { s with cache := cache, lookups := s.lookups.set i ⟨pair, .done answer⟩ }

/-- A waiting lookup looks into the cache, and starts to search if it finds no fresh quote. -/
def enter (s : Session σ) (policy : RetryPolicy) (connected : Bool) (now : Moment) (i : Nat) :
    Session σ :=
  match s.lookups[i]? with
  | some ⟨pair, .waiting⟩ =>
    match s.cache.look now pair.key pair.kind.freshSeconds with
    | (.error f, cache) =>
      { s with cache := cache, lookups := s.lookups.set i ⟨pair, .done (.error f)⟩ }
    | (.ok (.answered a), cache) =>
      { s with cache := cache, lookups := s.lookups.set i ⟨pair, .done (.ok a)⟩ }
    | (.ok (.missing entry), cache) =>
      proceed { s with cache := cache } i pair now entry now (pair.course policy connected)
  | _ => s

/-- The reply to a request comes. -/
def receive (s : Session σ) (now : Moment) (i : Nat) (r : Reply) : Session σ :=
  match s.lookups[i]? with
  | some ⟨pair, .asking since entry address next⟩ =>
    (s.log [⟨pair, address, r, now⟩]).proceed i pair since entry now (next r)
  | _ => s

/-- A lookup is given up. -/
def cancel (s : Session σ) (i : Nat) : Session σ :=
  match s.lookups[i]? with
  | some ⟨pair, .waiting⟩ | some ⟨pair, .asking _ _ _ _⟩ =>
    { s with lookups := s.lookups.set i ⟨pair, .cancelled⟩ }
  | _ => s

/-- What sessions that begin on a store can come to: any wanted pairs are asked for, lookups
enter, get any replies and are given up in any order, and the clock shows any time of the
calendar at each step. -/
inductive Reached (start : σ) : Session σ → Prop where
  | start : Reached start ⟨Cache.ofStore start, [], []⟩
  | ask {s : Session σ} {pair : Pair} (before : Reached start s) (wanted : pair.Wanted) :
      Reached start { s with lookups := s.lookups ++ [⟨pair, .waiting⟩] }
  | enter {s : Session σ} (before : Reached start s) (policy : RetryPolicy) (connected : Bool)
      {now : Moment} (proper : now.Proper) (i : Nat) :
      Reached start (s.enter policy connected now i)
  | receive {s : Session σ} (before : Reached start s) {now : Moment} (proper : now.Proper)
      (i : Nat) (r : Reply) : Reached start (s.receive now i r)
  | cancel {s : Session σ} (before : Reached start s) (i : Nat) : Reached start (s.cancel i)

end Session

/-! What is known of quotes -/

/-- The quote is one of this pair: its price stands in a successful response to the request
that its provider, a source of the kind, makes for the pair, and it is dated by the reply. -/
def Quote.Genuine (q : Quote) (exchanges : List Exchange) (pair : Pair) : Prop :=
  q.base = pair.base ∧ q.quote = pair.quote ∧
    ∃ x ∈ exchanges, x.pair = pair ∧ x.time = q.fetchedAt ∧
      ∃ source ∈ Source.ranked pair.kind, q.provider = source.name ∧
        source.Answers pair x.address x.reply q.unitPrice

/-- The same of an answer, with the key and the time of the pair. -/
structure CachedQuote.Serves (a : CachedQuote) (exchanges : List Exchange) (pair : Pair) : Prop where
  quote : a.quote.Genuine exchanges pair
  key : a.key = pair.key
  ttl : a.ttl = pair.kind.freshSeconds

/-- A quote under a key is dated in the calendar and one of the pair that has this key. -/
def Quote.KeptFor (exchanges : List Exchange) (key : String) (q : Quote) : Prop :=
  q.fetchedAt.Proper ∧ ∀ pair : Pair, pair.Settled → pair.key = key → q.Genuine exchanges pair

theorem Quote.genuine_mono {q : Quote} {exchanges : List Exchange} {pair : Pair} (x : Exchange)
    (genuine : q.Genuine exchanges pair) : q.Genuine (exchanges ++ [x]) pair := by
  obtain ⟨base, quote, y, member, rest⟩ := genuine
  exact ⟨base, quote, y, List.mem_append_left _ member, rest⟩

theorem Quote.keptFor_mono {exchanges : List Exchange} {key : String} {q : Quote} (x : Exchange)
    (kept : q.KeptFor exchanges key) : q.KeptFor (exchanges ++ [x]) key :=
  ⟨kept.1, fun pair settled named => genuine_mono x (kept.2 pair settled named)⟩

theorem Quote.keptFor_key {exchanges : List Exchange} {pair : Pair} {q : Quote}
    (settled : pair.Settled) (proper : q.fetchedAt.Proper) (genuine : q.Genuine exchanges pair) :
    q.KeptFor exchanges pair.key := by
  refine ⟨proper, ?_⟩
  intro pair' settled' same
  rw [Pair.key_injective settled' settled same]
  exact genuine

end QuoteDesk
