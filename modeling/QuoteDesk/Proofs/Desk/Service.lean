import QuoteDesk.Program
import QuoteDesk.Proofs.Cache.Fallback
import QuoteDesk.Proofs.Provider.Outcome

/-
A desk in service, its entries in memory. As long as its clock and the times of its quotes are
known and its sources give prices and faults of their own only, a price that is asked for has an
answer, or the fetch fails and no quote is stored. Nothing that is done at the desk changes this.
-/
namespace QuoteDesk

namespace Cache

/-- The time of every stored quote is known. -/
def Dated (c : Cache Memory) : Prop :=
  ∀ key e, c.store.get? key = some e → e.quote.isSome = true → e.fetchedAt.Aware

theorem dated_empty : Dated (ofStore .empty) := by
  intro key e found
  cases found

theorem Dated.put {c : Cache Memory} (dated : c.Dated) {e : Entry}
    (known : e.quote.isSome = true → e.fetchedAt.Aware) (tallies : Table Tally) :
    Dated ⟨c.store.put e, tallies⟩ := by
  intro key e' found quoted
  by_cases same : key = e.key
  · subst same
    rw [Memory.get?_put_self] at found
    cases found
    exact known quoted
  · rw [Memory.get?_put_of_ne c.store e same] at found
    exact dated key e' found quoted

section Passage

variable {c c' : Cache Memory} {now : Moment} {key : String} {ttl : Int} {fetched : Outcome Quote}
  {answer : Outcome CachedQuote} {made : Bool}

theorem aware_failedEntry {entry : Option Entry} (f : Fault) (clock : now.Aware)
    (known : ∀ e, entry = some e → e.quote.isSome = true → e.fetchedAt.Aware) :
    (failedEntry now key ttl entry f).fetchedAt.Aware := by
  unfold failedEntry
  dsimp only
  split
  · rename_i held
    cases entry with
    | none => exact clock
    | some e => exact known e rfl held
  · exact clock

theorem Passage.dated (passage : c.Passage now key ttl fetched answer made c') (dated : c.Dated)
    (clock : now.Aware) (ordinary : fetched.Ordinary fun q => q.fetchedAt = now) : c'.Dated := by
  have read : ∀ {entry}, Store.read c.store now key = .ok entry →
      ∀ e, entry = some e → e.quote.isSome = true → e.fetchedAt.Aware := by
    rintro _ read e rfl
    exact dated key e (Except.ok.inj read)
  cases passage with
  | unreadable | ageless | fresh | aborted => exact dated
  | @kept entry q s _ _ outcome write =>
    subst outcome
    cases write
    cases ordinary with
    | value time =>
      have known : (keptEntry key ttl q).fetchedAt.Aware := by
        rw [keptEntry, time]
        exact clock
      exact dated.put (fun _ => known) _
  | refused _ _ _ write | unrecorded _ _ _ write => cases write
  | failed here _ _ write | fellBack here _ _ _ _ write =>
    cases write
    exact dated.put (fun _ => aware_failedEntry _ clock (read here)) _

end Passage

end Cache

namespace Desk

variable {ω : Type} {d : Desk Memory ω}

structure Ready (d : Desk Memory ω) : Prop where
  clock : d.market.now.Aware
  dated : d.cache.Dated
  ordinary : d.market.Ordinary

theorem Ready.quotePair (ready : d.Ready) (pair : Pair) : (d.quotePair pair).2.Ready := by
  have now := d.now_quotePair pair
  obtain ⟨answer, made, c, passage, run⟩ := d.passage_quotePair pair
  rw [run] at now ⊢
  constructor
  · rw [now]
    exact ready.clock
  · exact passage.dated ready.dated ready.clock (Market.ordinary_outcome ready.ordinary pair)
  · cases made with
    | true => exact Market.ordinary_fetch ready.ordinary pair
    | false => exact ready.ordinary

/-- The price of a pair cannot be had: the fetch fails, and there is no quote to fall back on. -/
structure Fruitless (d : Desk Memory ω) (pair : Pair) (f : ProviderFault) : Prop where
  fetch : (d.market.fetch pair).1 = .error (.fault (.provider f))
  bare : (d.cache.store.get? pair.key).bind (·.quote) = none

/-- What asking for the price of a pair comes to. -/
inductive Quoted (d : Desk Memory ω) (pair : Pair) : Outcome CachedQuote → Prop where
  | priced (a : CachedQuote) (fruitful : ∀ f, ¬ d.Fruitless pair f) : Quoted d pair (.ok a)
  | failed {f : ProviderFault} (fruitless : d.Fruitless pair f) :
      Quoted d pair (.error (.fault (.provider f)))

theorem Ready.quoted (ready : d.Ready) (pair : Pair) : d.Quoted pair (d.quotePair pair).1 := by
  have ordinary := Market.ordinary_outcome ready.ordinary pair
  obtain ⟨answer, made, c, passage, run⟩ := d.passage_quotePair pair
  rw [run]
  -- a stored quote rules out that there is none, and a fetched one that the fetch fails
  have held : ∀ {e : Entry} {q : Quote},
      Store.read d.cache.store d.market.now pair.key = .ok (some e) → e.quote = some q →
      ∀ f, ¬ d.Fruitless pair f := by
    intro e q read quote f fruitless
    have found : d.cache.store.get? pair.key = some e := Except.ok.inj read
    have bare := fruitless.bare
    rw [found, Option.bind_some, quote] at bare
    cases bare
  cases passage with
  | unreadable read => cases read
  | @ageless e q read quote age =>
    have known := ready.dated pair.key e (Except.ok.inj read) (by rw [quote]; rfl)
    exact absurd known ((Moment.age?_eq_none_iff ready.clock).mp age)
  | fresh read quote => exact .priced _ (held read quote)
  | aborted _ _ outcome =>
    rw [outcome] at ordinary
    cases ordinary
  | kept _ _ outcome =>
    refine .priced _ ?_
    intro f fruitless
    cases outcome.symm.trans fruitless.fetch
  | refused _ _ _ write | unrecorded _ _ _ write => cases write
  | failed read bare outcome =>
    rw [outcome] at ordinary
    cases ordinary with
    | fault f =>
      cases read
      exact .failed ⟨outcome, bare⟩
  | fellBack read quote => exact .priced _ (held read quote)

/-! Whatever is done at a desk is done by asking for the prices of pairs -/

section Kept

variable {σ : Type} [Store σ] {P : Desk σ ω → Prop} (each : ∀ d pair, P d → P (d.quotePair pair).2)

include each

theorem kept_quoteAsCrypto {d : Desk σ ω} (holds : P d) (symbol target : String)
    (trace : List String) : P (d.quoteAsCrypto symbol target trace).2 := by
  unfold quoteAsCrypto
  split
  · exact holds
  · rename_i base _
    have quoted := each d ⟨.crypto, base, target⟩ holds
    split
    · rename_i f d' failed
      rw [failed] at quoted
      exact quoted
    · exact quoted

theorem kept_quoteAsset {d : Desk σ ω} (holds : P d) (symbol target : String) :
    P (d.quoteAsset symbol target).2 := by
  unfold quoteAsset
  split
  · have quoted := each d ⟨.fx, symbol, target⟩ holds
    split
    · rename_i f d' failed
      rw [failed] at quoted
      exact kept_quoteAsCrypto each quoted symbol target _
    · exact quoted
  · exact kept_quoteAsCrypto each holds symbol target []

theorem kept_quoteAssets {d : Desk σ ω} (holds : P d) (target : String) (symbols : List String) :
    P (d.quoteAssets target symbols).2 := by
  induction symbols generalizing d with
  | nil => exact holds
  | cons s more ih => exact ih (kept_quoteAsset each holds s target)

theorem kept_evaluate {d : Desk σ ω} (holds : P d) (e : Expression) : P (d.evaluate e).2 := by
  unfold evaluate
  split
  · exact holds
  · exact holds
  · exact kept_quoteAssets each holds e.target _

theorem kept_carryOut {d : Desk σ ω} (holds : P d) (i : Invocation) : P (d.carryOut i).2 := by
  unfold carryOut
  cases i.command with
  | convert kind base quote amount =>
    dsimp only
    unfold convert
    split
    · exact holds
    · exact each d _ holds
  | evaluate text target =>
    dsimp only
    unfold query
    split
    · exact holds
    · exact kept_evaluate each holds _

end Kept

/-- What a desk over an empty memory can come to: commands are carried out, prices of symbols are
asked for, and the clock is set. -/
inductive InService : Desk Memory ω → Prop where
  | opened {market : Market ω} (clock : market.now.Aware) (ordinary : market.Ordinary)
      (defaultFiat : String) : InService ⟨market, Cache.ofStore .empty, defaultFiat⟩
  | clock {d : Desk Memory ω} (before : InService d) {now : Moment} (aware : now.Aware) :
      InService { d with market := { d.market with now := now } }
  | command {d : Desk Memory ω} (before : InService d) (i : Invocation) :
      InService (d.carryOut i).2
  | asset {d : Desk Memory ω} (before : InService d) (symbol target : String) :
      InService (d.quoteAsset symbol target).2

theorem ready_of_inService (service : InService d) : d.Ready := by
  have each : ∀ (d : Desk Memory ω) pair, d.Ready → (d.quotePair pair).2.Ready :=
    fun _ pair ready => ready.quotePair pair
  induction service with
  | opened clock ordinary => exact ⟨clock, Cache.dated_empty, ordinary⟩
  | clock before aware ih =>
    refine ⟨aware, ih.dated, ih.ordinary.held, ?_⟩
    intro kind p member
    apply ih.ordinary.each kind p
    cases kind with
    | fx => exact member
    | crypto => exact member
  | command before i ih => exact kept_carryOut each ih i
  | asset before symbol target ih => exact kept_quoteAsset each ih symbol target

end Desk
end QuoteDesk
