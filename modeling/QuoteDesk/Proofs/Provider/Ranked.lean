import QuoteDesk.Desk
import QuoteDesk.Proofs.Cache.Passage

/-
What asking providers leaves of them: everything but their counters. So a market whose
providers are the sources of both kinds, best first, stays one for good.
-/
namespace QuoteDesk

variable {ω : Type}

namespace Provider

/-- The provider as it was before its first attempt. -/
def unused (p : Provider ω) : Provider ω := { p with counters := .zero }

theorem unused_fetchQuote (p : Provider ω) (policy : RetryPolicy) (now : Moment)
    (base quote : String) (w : ω) :
    (p.fetchQuote policy now base quote w).2.2.1.unused = p.unused := by
  unfold fetchQuote
  generalize Retry.run policy (p.attemptCounted base quote) (p.counters, w) = r
  obtain ⟨price | f, waits, c, w'⟩ := r <;> rfl

end Provider

theorem Chain.unused_searchFrom (policy : RetryPolicy) (now : Moment) (pair : Pair)
    (trace : List String) (ps : List (Provider ω)) (w : ω) :
    (searchFrom policy now pair trace ps w).providers.map Provider.unused =
      ps.map Provider.unused := by
  induction ps generalizing trace w with
  | nil => rfl
  | cons p ps ih =>
    have same := p.unused_fetchQuote policy now pair.base pair.quote w
    unfold searchFrom
    generalize p.fetchQuote policy now pair.base pair.quote w = r at same
    obtain ⟨o, waits, p', w'⟩ := r
    dsimp only at same ⊢
    split
    · simp only [List.map_cons, same, ih]
    · simp only [List.map_cons, same]

namespace Market

theorem chain_withChain_self (m : Market ω) (kind : PairKind) (ps : List (Provider (Line ω))) :
    (m.withChain kind ps).chain kind = ps := by
  cases kind <;> rfl

theorem chain_withChain_of_ne (m : Market ω) {kind other : PairKind} (ps : List (Provider (Line ω)))
    (apart : other ≠ kind) : (m.withChain kind ps).chain other = m.chain other := by
  cases kind <;> cases other <;> first | rfl | exact absurd rfl apart

theorem unused_fetch (m : Market ω) (pair : Pair) (kind : PairKind) :
    ((m.fetch pair).2.chain kind).map Provider.unused = (m.chain kind).map Provider.unused := by
  change (((m.withChain pair.kind _).chain kind).map _) = _
  by_cases same : kind = pair.kind
  · rw [same, chain_withChain_self, Chain.search, Chain.unused_searchFrom]
  · rw [chain_withChain_of_ne m _ same]

theorem now_fetch (m : Market ω) (pair : Pair) : (m.fetch pair).2.now = m.now := by
  cases kind : pair.kind with
  | fx => simp only [fetch, kind, withChain]
  | crypto => simp only [fetch, kind, withChain]

theorem policy_fetch (m : Market ω) (pair : Pair) : (m.fetch pair).2.policy = m.policy := by
  cases kind : pair.kind with
  | fx => simp only [fetch, kind, withChain]
  | crypto => simp only [fetch, kind, withChain]

/-- The providers of each kind are its sources, best first, whatever they have done. -/
def Ranked [Wire ω] (m : Market ω) : Prop :=
  ∀ kind, (m.chain kind).map Provider.unused = (Source.ranked kind).map Source.provider

variable [Wire ω]

theorem ranked_opened (now : Moment) (policy : RetryPolicy) (wire : ω) (connected : Bool) :
    (opened now policy wire connected).Ranked := by
  intro kind
  cases kind <;> rfl

theorem source_of_ranked {m : Market ω} (ranked : m.Ranked) {kind : PairKind}
    {p : Provider (Line ω)} (member : p ∈ m.chain kind) :
    ∃ s ∈ Source.ranked kind, p.name = s.name ∧ p.attempt = s.attempt := by
  have listed : p.unused ∈ (m.chain kind).map Provider.unused := List.mem_map_of_mem member
  rw [ranked kind, List.mem_map] at listed
  obtain ⟨s, here, same⟩ := listed
  refine ⟨s, here, ?_, ?_⟩
  · exact (congrArg Provider.name same).symm
  · exact (congrArg Provider.attempt same).symm

theorem ranked_fetch {m : Market ω} (ranked : m.Ranked) (pair : Pair) :
    (m.fetch pair).2.Ranked := by
  intro kind
  rw [unused_fetch]
  exact ranked kind

end Market

/-- The price of a pair is a lookup in the cache, and the market is asked if its fetch is made. -/
theorem Desk.passage_quotePair {σ : Type} [Store σ] (d : Desk σ ω) (pair : Pair) :
    ∃ answer made c, d.cache.Passage d.market.now pair.key pair.kind.freshSeconds
        (d.market.fetch pair).1 answer made c ∧
      d.quotePair pair =
        (answer, { d with cache := c, market := if made then (d.market.fetch pair).2 else d.market }) := by
  obtain ⟨answer, made, c, passage, run⟩ := d.cache.passage_lookup d.market.now pair.key
    pair.kind.freshSeconds (Market.fetch · pair) d.market
  refine ⟨answer, made, c, passage, ?_⟩
  simp only [quotePair, run]

theorem Desk.now_quotePair {σ : Type} [Store σ] (d : Desk σ ω) (pair : Pair) :
    (d.quotePair pair).2.market.now = d.market.now := by
  obtain ⟨answer, made, c, _, run⟩ := d.passage_quotePair pair
  rw [run]
  cases made with
  | true => exact d.market.now_fetch pair
  | false => rfl

theorem Desk.ranked_quotePair {σ : Type} [Store σ] [Wire ω] {d : Desk σ ω} (ranked : d.market.Ranked)
    (pair : Pair) : (d.quotePair pair).2.market.Ranked := by
  obtain ⟨answer, made, c, _, run⟩ := d.passage_quotePair pair
  rw [run]
  cases made with
  | true => exact Market.ranked_fetch ranked pair
  | false => exact ranked

end QuoteDesk
