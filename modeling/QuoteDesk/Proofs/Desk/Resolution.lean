import QuoteDesk.Proofs.Cache.Serial
import QuoteDesk.Proofs.Desk.Service
import QuoteDesk.Proofs.Desk.Untouched
import QuoteDesk.Proofs.Pair

/-
Which price a symbol of an expression gets. One that looks like a currency is tried as a currency
first, and if that gives a price the sources and entries of assets play no part; otherwise it is
tried as an asset. It has no price only if every fetch on the way fails and no quote is stored.
-/
namespace QuoteDesk

namespace Market

variable {ω : Type} {kind : PairKind} {pair : Pair}

theorem fetch_withChain (m : Market ω) (apart : pair.kind ≠ kind)
    (ps : List (Provider (Line ω))) :
    (m.withChain kind ps).fetch pair =
      ((m.fetch pair).1, (m.fetch pair).2.withChain kind ps) := by
  obtain ⟨own, base, quote⟩ := pair
  cases own <;> cases kind <;> first | rfl | exact absurd rfl apart

theorem chain_fetch_of_ne (m : Market ω) (apart : pair.kind ≠ kind) :
    (m.fetch pair).2.chain kind = m.chain kind :=
  chain_withChain_of_ne m _ (Ne.symm apart)

theorem now_withChain (m : Market ω) (kind : PairKind) (ps : List (Provider (Line ω))) :
    (m.withChain kind ps).now = m.now := by
  cases kind <;> rfl

theorem withChain_chain (m : Market ω) (kind : PairKind) : m.withChain kind (m.chain kind) = m := by
  cases kind <;> rfl

end Market

namespace Desk

open Cache

variable {ω α β : Type} {d e : Desk Memory ω} {kind : PairKind} {pair : Pair}

/-! What plays no part in a step -/

/-- Two desks differ in nothing but the sources of a kind and what is cached for its pairs. -/
structure SameBut (kind : PairKind) (d e : Desk Memory ω) : Prop where
  market : ∃ ps, e.market = d.market.withChain kind ps
  cached : ∀ pair : Pair, pair.kind ≠ kind → Alike pair.key d.cache e.cache
  defaultFiat : e.defaultFiat = d.defaultFiat

/-- The sources of a kind and what is cached for its pairs do not matter to a step at a desk: they
stay as they are, and with others in their place the step would have been the same. -/
structure Ignores (kind : PairKind) (step : Desk Memory ω → Outcome α × Desk Memory ω)
    (d : Desk Memory ω) : Prop where
  sources : (step d).2.market.chain kind = d.market.chain kind
  cached : ∀ pair : Pair, pair.kind = kind → Alike pair.key (step d).2.cache d.cache
  same : ∀ e, SameBut kind d e → (step e).1 = (step d).1 ∧ SameBut kind (step d).2 (step e).2

theorem SameBut.refl (kind : PairKind) (d : Desk Memory ω) : SameBut kind d d :=
  ⟨⟨_, (d.market.withChain_chain kind).symm⟩, fun pair _ => .refl pair.key d.cache, rfl⟩

theorem Ignores.retold {step : Desk Memory ω → Outcome α × Desk Memory ω}
    {step' : Desk Memory ω → Outcome β × Desk Memory ω} (ignores : Ignores kind step d)
    (tell : Outcome α → Outcome β)
    (retold : ∀ e, SameBut kind d e → step' e = (tell (step e).1, (step e).2)) :
    Ignores kind step' d := by
  have here := retold d (.refl kind d)
  constructor
  · rw [here]
    exact ignores.sources
  · rw [here]
    exact ignores.cached
  · intro e same
    obtain ⟨answer, left⟩ := ignores.same e same
    rw [here, retold e same, answer]
    exact ⟨rfl, left⟩

/-- The lookup that gives the price of a pair. -/
def looked (d : Desk Memory ω) (pair : Pair) :
    Outcome CachedQuote × Bool × Cache Memory × Market ω :=
  d.cache.lookup d.market.now pair.key pair.kind.freshSeconds (Market.fetch · pair) d.market

theorem market_looked (d : Desk Memory ω) (pair : Pair) : (d.looked pair).2.2.2 =
    if (d.looked pair).2.1 then (d.market.fetch pair).2 else d.market :=
  world_lookup d.cache _ _ _ _ _

theorem looked_other (d : Desk Memory ω) {other : Pair} (apart : pair.kind ≠ other.kind) :
    Alike other.key (d.looked pair).2.2.1 d.cache := by
  apply lookup_other
  intro same
  exact apart (Pair.kind_of_key same).1.symm

theorem SameBut.quotePair (same : SameBut kind d e) (apart : pair.kind ≠ kind) :
    (e.quotePair pair).1 = (d.quotePair pair).1 ∧
      SameBut kind (d.quotePair pair).2 (e.quotePair pair).2 := by
  obtain ⟨⟨ps, market⟩, cached, fiat⟩ := same
  have now : e.market.now = d.market.now := by
    rw [market, Market.now_withChain]
  have fetch := d.market.fetch_withChain apart ps
  rw [← market] at fetch
  have looked : e.looked pair = e.cache.lookup d.market.now pair.key pair.kind.freshSeconds
      (Market.fetch · pair) e.market := by
    rw [Desk.looked, now]
  obtain ⟨answer, made, left⟩ := lookup_alike (cached pair apart) d.market.now
    pair.kind.freshSeconds (Market.fetch · pair) d.market e.market (by rw [fetch])
  rw [← looked] at answer made left
  refine ⟨answer.symm, ?_, ?_, fiat⟩
  · change ∃ ps, (e.looked pair).2.2.2 = (d.looked pair).2.2.2.withChain kind ps
    rw [market_looked, market_looked, ← made, fetch]
    refine ⟨ps, ?_⟩
    change (if (d.looked pair).2.1 then _ else _) = _
    split
    · rfl
    · exact market
  · intro other apart'
    by_cases own : other.key = pair.key
    · rw [own]
      exact left
    · have before := lookup_other d.cache d.market.now pair.kind.freshSeconds
        (Market.fetch · pair) d.market own
      have after := lookup_other e.cache e.market.now pair.kind.freshSeconds
        (Market.fetch · pair) e.market own
      exact (before.trans (cached other apart')).trans after.symm

theorem ignores_quotePair (d : Desk Memory ω) (apart : pair.kind ≠ kind) :
    Ignores kind (quotePair · pair) d := by
  constructor
  · change (d.looked pair).2.2.2.chain kind = _
    rw [market_looked]
    split
    · exact d.market.chain_fetch_of_ne apart
    · rfl
  · rintro other rfl
    exact d.looked_other apart
  · exact fun e same => same.quotePair apart

/-! A symbol as a currency and as an asset -/

variable {symbol target : String}

/-- The answer to a symbol as an asset, by the one to its pair. -/
def assetAnswer (symbol target : String) (trace : List String) :
    Outcome CachedQuote → Outcome CachedQuote
  | .error (.fault (.provider f)) =>
    .error (unresolved symbol target (trace ++ ["crypto: " ++ f.text]))
  | o => o

theorem quoteAsCrypto_eq (settled : Symbol.Settled symbol) (d : Desk Memory ω) (target : String)
    (trace : List String) : d.quoteAsCrypto symbol target trace =
      (assetAnswer symbol target trace (d.quotePair ⟨.crypto, symbol, target⟩).1,
        (d.quotePair ⟨.crypto, symbol, target⟩).2) := by
  unfold quoteAsCrypto
  rw [Symbol.readAsset_of_settled "base" settled]
  dsimp only
  generalize d.quotePair ⟨.crypto, symbol, target⟩ = quoted
  obtain ⟨answer, d'⟩ := quoted
  rcases answer with (f | defect) | a
  · cases f <;> rfl
  · rfl
  · rfl

theorem quoteAsset_of_priced {a : CachedQuote} (fiat : Symbol.looksFiat symbol = true)
    (priced : (d.quotePair ⟨.fx, symbol, target⟩).1 = .ok a) :
    d.quoteAsset symbol target = d.quotePair ⟨.fx, symbol, target⟩ := by
  unfold quoteAsset
  rw [if_pos fiat]
  generalize d.quotePair ⟨.fx, symbol, target⟩ = quoted at priced ⊢
  obtain ⟨_, d'⟩ := quoted
  cases priced
  rfl

theorem quoteAsset_of_failed {f : ProviderFault} (fiat : Symbol.looksFiat symbol = true)
    (failed : (d.quotePair ⟨.fx, symbol, target⟩).1 = .error (.fault (.provider f))) :
    d.quoteAsset symbol target =
      (d.quotePair ⟨.fx, symbol, target⟩).2.quoteAsCrypto symbol target ["fx: " ++ f.text] := by
  unfold quoteAsset
  rw [if_pos fiat]
  generalize d.quotePair ⟨.fx, symbol, target⟩ = quoted at failed ⊢
  obtain ⟨_, d'⟩ := quoted
  cases failed
  rfl

theorem quoteAsset_of_asset (asset : Symbol.looksFiat symbol = false) (d : Desk Memory ω)
    (target : String) : d.quoteAsset symbol target = d.quoteAsCrypto symbol target [] := by
  unfold quoteAsset
  rw [if_neg (by simp [asset])]

theorem ignores_crypto {a : CachedQuote} (fiat : Symbol.looksFiat symbol = true)
    (priced : (d.quotePair ⟨.fx, symbol, target⟩).1 = .ok a) :
    Ignores .crypto (quoteAsset · symbol target) d := by
  have ignores : Ignores .crypto (quotePair · ⟨.fx, symbol, target⟩) d := d.ignores_quotePair nofun
  apply ignores.retold id
  intro e same
  exact quoteAsset_of_priced fiat ((ignores.same e same).1.trans priced)

theorem ignores_fx (settled : Symbol.Settled symbol) (asset : Symbol.looksFiat symbol = false)
    (d : Desk Memory ω) (target : String) : Ignores .fx (quoteAsset · symbol target) d := by
  have ignores : Ignores .fx (quotePair · ⟨.crypto, symbol, target⟩) d := d.ignores_quotePair nofun
  apply ignores.retold (assetAnswer symbol target [])
  intro e _
  rw [quoteAsset_of_asset asset, quoteAsCrypto_eq settled]

/-! When there is no price -/

theorem Ready.error_iff (ready : d.Ready) (pair : Pair) (f : Failure) :
    (d.quotePair pair).1 = .error f ↔
      ∃ g, d.Fruitless pair g ∧ f = .fault (.provider g) := by
  have quoted := ready.quoted pair
  constructor
  · intro failed
    rw [failed] at quoted
    cases quoted with
    | failed fruitless => exact ⟨_, fruitless, rfl⟩
  · rintro ⟨g, fruitless, rfl⟩
    generalize (d.quotePair pair).1 = answer at quoted ⊢
    cases quoted with
    | priced a fruitful => exact absurd fruitless (fruitful g)
    | failed fruitless' =>
      cases fruitless'.fetch.symm.trans fruitless.fetch
      rfl

theorem Ready.quoteAsCrypto_error_iff (ready : d.Ready) (settled : Symbol.Settled symbol)
    (target : String) (trace : List String) (f : Failure) :
    (d.quoteAsCrypto symbol target trace).1 = .error f ↔
      ∃ g, d.Fruitless ⟨.crypto, symbol, target⟩ g ∧
        f = unresolved symbol target (trace ++ ["crypto: " ++ g.text]) := by
  rw [quoteAsCrypto_eq settled]
  have failing := ready.error_iff ⟨.crypto, symbol, target⟩
  constructor
  · intro failed
    cases answer : (d.quotePair ⟨.crypto, symbol, target⟩).1 with
    | ok a =>
      rw [answer] at failed
      cases failed
    | error f' =>
      obtain ⟨g, fruitless, rfl⟩ := (failing f').mp answer
      rw [answer] at failed
      cases failed
      exact ⟨g, fruitless, rfl⟩
  · rintro ⟨g, fruitless, rfl⟩
    rw [(failing _).mpr ⟨g, fruitless, rfl⟩]
    rfl

end Desk

/-- The kinds as which a symbol may have a price, in the order in which they are tried. -/
def Symbol.kinds (s : String) : List PairKind := if looksFiat s then [.fx, .crypto] else [.crypto]

namespace Desk

variable {ω : Type} {d : Desk Memory ω} {symbol : String}

/-- The prices of a symbol as each of some kinds are asked for in turn, and no fetch gives one.
The trace tells of each of them. -/
inductive NoneFetched (symbol target : String) :
    Desk Memory ω → List PairKind → List String → Prop where
  | done (d : Desk Memory ω) : NoneFetched symbol target d [] []
  | failed {d : Desk Memory ω} {kind : PairKind} {kinds : List PairKind} {f : ProviderFault}
      {trace : List String}
      (fetch : (d.market.fetch ⟨kind, symbol, target⟩).1 = .error (.fault (.provider f)))
      (more : NoneFetched symbol target (d.quotePair ⟨kind, symbol, target⟩).2 kinds trace) :
      NoneFetched symbol target d (kind :: kinds) ((kind.name ++ ": " ++ f.text) :: trace)

/-- No quote is stored for a symbol as anything that it is tried as. -/
def NoneStored (d : Desk Memory ω) (symbol target : String) : Prop :=
  ∀ kind ∈ Symbol.kinds symbol,
    (d.cache.store.get? (Pair.key ⟨kind, symbol, target⟩)).bind (·.quote) = none

theorem quoteAsset_error_iff_of_asset (ready : d.Ready) (settled : Symbol.Settled symbol)
    (asset : Symbol.looksFiat symbol = false) (target : String) (f : Failure) :
    (d.quoteAsset symbol target).1 = .error f ↔
      d.NoneStored symbol target ∧ ∃ trace,
        NoneFetched symbol target d (Symbol.kinds symbol) trace ∧
          f = unresolved symbol target trace := by
  have kinds : Symbol.kinds symbol = [.crypto] := by
    rw [Symbol.kinds, if_neg (by simp [asset])]
  rw [quoteAsset_of_asset asset, ready.quoteAsCrypto_error_iff settled, NoneStored, kinds]
  constructor
  · rintro ⟨g, fruitless, rfl⟩
    refine ⟨?_, _, .failed fruitless.fetch (.done _), rfl⟩
    intro kind member
    cases List.mem_singleton.mp member
    exact fruitless.bare
  · rintro ⟨stored, trace, fetched, rfl⟩
    cases fetched with
    | failed fetch more =>
      cases more
      exact ⟨_, ⟨fetch, stored .crypto (by simp)⟩, rfl⟩

theorem quoteAsset_error_iff_of_fiat (ready : d.Ready) (settled : Symbol.Settled symbol)
    (fiat : Symbol.looksFiat symbol = true) (target : String) (f : Failure) :
    (d.quoteAsset symbol target).1 = .error f ↔
      d.NoneStored symbol target ∧ ∃ trace,
        NoneFetched symbol target d (Symbol.kinds symbol) trace ∧
          f = unresolved symbol target trace := by
  have kinds : Symbol.kinds symbol = [.fx, .crypto] := by
    rw [Symbol.kinds, if_pos fiat]
  have failing := ready.error_iff ⟨.fx, symbol, target⟩
  have failing' := (ready.quotePair ⟨.fx, symbol, target⟩).quoteAsCrypto_error_iff settled target
  -- the entry of the asset is what it was when the currency has been tried
  have ignores : Ignores .crypto (quotePair · ⟨.fx, symbol, target⟩) d := d.ignores_quotePair nofun
  have entry := (ignores.cached ⟨.crypto, symbol, target⟩ rfl).entry
  rw [NoneStored, kinds]
  constructor
  · intro failed
    cases first : (d.quotePair ⟨.fx, symbol, target⟩).1 with
    | ok a =>
      rw [quoteAsset_of_priced fiat first, first] at failed
      cases failed
    | error f' =>
      obtain ⟨g, fruitless, rfl⟩ := (failing f').mp first
      rw [quoteAsset_of_failed fiat first] at failed
      obtain ⟨h, fruitless', rfl⟩ := (failing' _ f).mp failed
      refine ⟨?_, _, .failed fruitless.fetch (.failed fruitless'.fetch (.done _)), rfl⟩
      intro kind _
      cases kind with
      | fx => exact fruitless.bare
      | crypto =>
        rw [← entry]
        exact fruitless'.bare
  · rintro ⟨stored, trace, fetched, rfl⟩
    cases fetched with
    | failed fetch more =>
      cases more with
      | failed fetch' done =>
        cases done
        have first := (failing _).mpr ⟨_, ⟨fetch, stored .fx (by simp)⟩, rfl⟩
        have bare := stored .crypto (by simp)
        rw [← entry] at bare
        rw [quoteAsset_of_failed fiat first]
        exact (failing' _ _).mpr ⟨_, ⟨fetch', bare⟩, rfl⟩

/-- The desk once a symbol that looks like a currency has been tried as one. -/
def afterCurrency (d : Desk Memory ω) (symbol target : String) : Desk Memory ω :=
  if Symbol.looksFiat symbol then (d.quotePair ⟨.fx, symbol, target⟩).2 else d

theorem quoteAsset_eq_crypto (ready : d.Ready) (settled : Symbol.Settled symbol) {target : String}
    (tried : Symbol.looksFiat symbol = true →
      ∃ f, (d.quotePair ⟨.fx, symbol, target⟩).1 = .error f)
    {a : CachedQuote}
    (priced : ((d.afterCurrency symbol target).quotePair ⟨.crypto, symbol, target⟩).1 = .ok a) :
    d.quoteAsset symbol target =
      (d.afterCurrency symbol target).quotePair ⟨.crypto, symbol, target⟩ := by
  unfold afterCurrency at priced ⊢
  by_cases fiat : Symbol.looksFiat symbol = true
  · rw [if_pos fiat] at priced ⊢
    obtain ⟨f, first⟩ := tried fiat
    obtain ⟨g, _, rfl⟩ := (ready.error_iff _ f).mp first
    rw [quoteAsset_of_failed fiat first, quoteAsCrypto_eq settled, priced]
    exact Prod.ext priced.symm rfl
  · rw [if_neg fiat] at priced ⊢
    rw [quoteAsset_of_asset (Bool.eq_false_iff.mpr fiat), quoteAsCrypto_eq settled, priced]
    exact Prod.ext priced.symm rfl

/-- A symbol that looks like a currency and has a price as one gets it, and assets do not matter
to that; with any other symbol currencies do not matter. Where the price as a currency is not
asked for or not to be had, it is that as an asset. A symbol has no price exactly if no quote is
stored and no fetch gives one, and the error then tells of every kind it was tried as. -/
theorem currency_before_asset (ready : d.Ready) (settled : Symbol.Settled symbol)
    (target : String) :
    (∀ a, Symbol.looksFiat symbol = true → (d.quotePair ⟨.fx, symbol, target⟩).1 = .ok a →
      d.quoteAsset symbol target = d.quotePair ⟨.fx, symbol, target⟩ ∧
        Ignores .crypto (quoteAsset · symbol target) d) ∧
    (Symbol.looksFiat symbol = false → Ignores .fx (quoteAsset · symbol target) d) ∧
    (∀ a, (Symbol.looksFiat symbol = true →
        ∃ f, (d.quotePair ⟨.fx, symbol, target⟩).1 = .error f) →
      ((d.afterCurrency symbol target).quotePair ⟨.crypto, symbol, target⟩).1 = .ok a →
      d.quoteAsset symbol target =
        (d.afterCurrency symbol target).quotePair ⟨.crypto, symbol, target⟩) ∧
    (∀ f, (d.quoteAsset symbol target).1 = .error f ↔
      d.NoneStored symbol target ∧ ∃ trace,
        NoneFetched symbol target d (Symbol.kinds symbol) trace ∧
          f = unresolved symbol target trace) := by
  refine ⟨?_, ?_, ?_, ?_⟩
  · intro a fiat priced
    exact ⟨quoteAsset_of_priced fiat priced, ignores_crypto fiat priced⟩
  · intro asset
    exact ignores_fx settled asset d target
  · intro a tried priced
    exact quoteAsset_eq_crypto ready settled tried priced
  · intro f
    cases fiat : Symbol.looksFiat symbol with
    | false => exact quoteAsset_error_iff_of_asset ready settled fiat target f
    | true => exact quoteAsset_error_iff_of_fiat ready settled fiat target f

/-! On a wire on which nobody can be reached, a currency is tried as both kinds in vain. -/

theorem ordinary_deadWire (now : Moment) {policy : RetryPolicy} (held : policy.firstWait? ≠ none)
    (wire : DeadWire) (connected : Bool) :
    (Market.opened now policy wire connected).Ordinary := by
  refine ⟨held, ?_⟩
  intro kind p member
  have listed : p ∈ (Source.ranked kind).map Source.provider := by
    cases kind <;> exact member
  obtain ⟨s, _, rfl⟩ := List.mem_map.mp listed
  intro base quote l
  change Outcome.Ordinary _ (s.attempt base quote l).1.outcome
  unfold Source.attempt
  split
  · exact .fault _
  · split
    · exact .fault _
    · exact .fault _

theorem inService_newDesk : InService newDesk := by
  have clock : (⟨0, some 0⟩ : Moment).Aware := rfl
  have held : RetryPolicy.standard.firstWait? ≠ none := by decide
  have ordinary := ordinary_deadWire ⟨0, some 0⟩ held ⟨"down"⟩ true
  exact .opened clock ordinary "USD"

/-- That no source of a kind tells what the euro is worth. -/
def noEuro (kind : PairKind) : ProviderFault where
  cause := .unavailable ("failed to fetch " ++ kind.name ++ " price for EUR/USD")
    ((Source.ranked kind).map fun s => s.name ++ ": transport error: down")
  provider := none

theorem euro_without_price : newDesk.Ready ∧ Symbol.Settled "EUR" ∧
    (newDesk.quoteAsset "EUR" "USD").1 = .error (unresolved "EUR" "USD"
      ["fx: " ++ (noEuro .fx).text, "crypto: " ++ (noEuro .crypto).text]) := by
  have ready := ready_of_inService inService_newDesk
  have settled : Symbol.Settled "EUR" := ⟨by decide, by decide, List.all_eq_true.mp rfl⟩
  obtain ⟨_, _, _, failed⟩ := currency_before_asset ready settled "USD"
  have stored : newDesk.NoneStored "EUR" "USD" := fun kind _ => rfl
  have fetch : (newDesk.market.fetch ⟨.fx, "EUR", "USD"⟩).1 =
      .error (.fault (.provider (noEuro .fx))) := by
    rfl
  have fetch' : ((newDesk.quotePair ⟨.fx, "EUR", "USD"⟩).2.market.fetch ⟨.crypto, "EUR", "USD"⟩).1 =
      .error (.fault (.provider (noEuro .crypto))) := by
    rfl
  have fetched := NoneFetched.failed fetch (.failed fetch' (.done _))
  exact ⟨ready, settled, (failed _).mpr ⟨stored, _, fetched, rfl⟩⟩

end Desk
end QuoteDesk
