import QuoteDesk.Proofs.Cache.Fallback
import QuoteDesk.Proofs.Cache.History
import QuoteDesk.Proofs.Moment.Age

/-
How long a stored quote is answered without a fetch. The age that is compared is cut to
whole seconds, so a quote stays fresh up to a second longer than it should: exactly
while its exact age is in the window of the time given. Outside it the fetch is made,
once, and what is answered does not pass for fresh.
-/
namespace QuoteDesk

namespace Moment

theorem age?_of_aware {since now : Moment} (start : since.Aware) (stop : now.Aware) :
    age? since now = some (wholeSeconds (now.universal - since.universal)).toNat := by
  simp [age?, ticksBetween, show since.offset.isSome = now.offset.isSome from start.trans stop.symm]

end Moment

namespace Cache

variable {σ : Type} [Store σ]

/-- A lookup that finds a quote of a known age. -/
theorem lookup_of_age {ω : Type} (c : Cache σ) {now : Moment} {key : String} (ttl : Int)
    (fetch : ω → Outcome Quote × ω) (w : ω) {e : Entry} {q : Quote} {age : Nat}
    (read : Store.read c.store now key = .ok (some e)) (quote : e.quote = some q)
    (known : Moment.age? e.fetchedAt now = some age) :
    (age ≤ ttl → c.lookup now key ttl fetch w =
      (.ok ⟨q, .fresh, key, ttl, age⟩, false, c.count key Tally.hit, w)) ∧
    (ttl < age → ∃ answer c', c.lookup now key ttl fetch w = (answer, true, c', (fetch w).2) ∧
      ∀ a, answer = .ok a → a.status ≠ .fresh) := by
  obtain ⟨answer, made, c', passage, run⟩ := passage_lookup c now key ttl fetch w
  rw [run]
  constructor
  · intro young
    have served : ∀ {entry}, Store.read c.store now key = .ok entry → ¬ Unserved now ttl entry := by
      intro entry read' unserved
      cases read.symm.trans read'
      obtain ⟨_, known', old⟩ := unserved e q rfl quote
      cases known.symm.trans known'
      omega
    cases passage with
    | unreadable read' => cases read.symm.trans read'
    | ageless read' quote' unknown =>
      cases read.symm.trans read'
      cases known.symm.trans unknown
    | fresh read' quote' known' =>
      cases read.symm.trans read'
      cases quote.symm.trans quote'
      cases known.symm.trans known'
      rfl
    | aborted read' unserved => exact absurd unserved (served read')
    | kept read' unserved => exact absurd unserved (served read')
    | refused read' unserved => exact absurd unserved (served read')
    | unrecorded read' unserved => exact absurd unserved (served read')
    | failed read' bare => exact absurd (unserved_of_bare bare) (served read')
    | fellBack read' quote' known' old =>
      cases read.symm.trans read'
      cases known.symm.trans known'
      omega
  · intro old
    cases passage with
    | unreadable read' => cases read.symm.trans read'
    | ageless read' quote' unknown =>
      cases read.symm.trans read'
      cases known.symm.trans unknown
    | fresh read' quote' known' young =>
      cases read.symm.trans read'
      cases known.symm.trans known'
      omega
    | aborted | refused | unrecorded | failed =>
      refine ⟨_, _, rfl, ?_⟩
      intro a absurd
      cases absurd
    | kept | fellBack =>
      refine ⟨_, _, rfl, ?_⟩
      rintro a ⟨⟩ ⟨⟩

/-- An answer that passes for fresh is a stored quote with an age up to the time given. -/
theorem stored_of_fresh {ω : Type} {c : Cache σ} {now : Moment} {key : String} {ttl : Int}
    {fetch : ω → Outcome Quote × ω} {w : ω} {a : CachedQuote}
    (answer : (c.lookup now key ttl fetch w).1 = .ok a) (fresh : a.status = .fresh) :
    ∃ e age, Store.read c.store now key = .ok (some e) ∧ e.quote = some a.quote ∧
      Moment.age? e.fetchedAt now = some age ∧ age ≤ ttl := by
  obtain ⟨answer', made, c', passage, run⟩ := passage_lookup c now key ttl fetch w
  rw [run] at answer
  subst answer
  cases passage with
  | fresh read quote known young => exact ⟨_, _, read, quote, known, young⟩
  | kept | fellBack => cases fresh

/-- A lookup that finds a quote answers it without a fetch exactly while its age is in the
window of the time given, and makes the fetch once otherwise. The window holds all ages up
to that time and, as times go, none of a second more. Over a run of lookups on an empty
cache, at whatever times, nothing outside its window passes for fresh. -/
theorem fresh_iff_inWindow (now : Moment) (key : String) (ttl : Nat) (clock : now.Aware)
    (today : now.Proper) :
    (∀ {σ ω : Type} [Store σ] (c : Cache σ) (fetch : ω → Outcome Quote × ω) (w : ω) (e : Entry)
        (q : Quote),
      Store.read c.store now key = .ok (some e) → e.quote = some q → e.fetchedAt.Aware →
      e.fetchedAt.Proper →
      let elapsed := now.universal - e.fetchedAt.universal
      (Moment.InWindow ttl elapsed → ∃ age, c.lookup now key ttl fetch w =
        (.ok ⟨q, .fresh, key, ttl, age⟩, false, c.count key Tally.hit, w)) ∧
      (¬ Moment.InWindow ttl elapsed → ∃ answer c',
        c.lookup now key ttl fetch w = (answer, true, c', (fetch w).2) ∧
        ∀ a, answer = .ok a → a.status ≠ .fresh) ∧
      (elapsed ≤ ttl * Moment.ticksPerSecond → Moment.InWindow ttl elapsed) ∧
      (ttl < 2 ^ 34 →
        (Moment.InWindow ttl elapsed ↔ elapsed < (ttl + 1) * Moment.ticksPerSecond))) ∧
    (∀ (visits : List Visit) (fetched : Outcome Quote) (a : CachedQuote),
      ((History.after visits).cache.lookup now key ttl (Visit.fetch ⟨key, ttl, now, fetched⟩)
        (History.after visits).log).1 = .ok a →
      a.status = .fresh → a.quote.fetchedAt.Proper →
      Moment.InWindow ttl (now.universal - a.quote.fetchedAt.universal)) := by
  constructor
  · intro σ ω _ c fetch w e q read quote aware dated elapsed
    have bound := Moment.span_lt_of_proper dated today
    have known := Moment.age?_of_aware aware clock
    obtain ⟨served, fetched⟩ := lookup_of_age c ttl fetch w read quote known
    have cut := Moment.wholeSeconds_le_iff ttl bound
    refine ⟨?_, ?_, fun young => Moment.inWindow_of_le young bound, fun small =>
      Moment.inWindow_iff_lt small⟩
    · intro inside
      exact ⟨_, served (by exact_mod_cast cut.mpr inside)⟩
    · intro outside
      exact fetched (by exact_mod_cast Nat.lt_of_not_le (mt cut.mp outside))
  · intro visits fetched a answer fresh dated
    obtain ⟨e, age, read, quote, known, young⟩ := stored_of_fresh answer fresh
    have held : (History.after visits).entry key = some e := Except.ok.inj read
    have same : e.fetchedAt = a.quote.fetchedAt :=
      (History.faithful_after visits key).dated e a.quote held quote
    have aware : e.fetchedAt.Aware := by
      by_contra naive
      rw [(Moment.age?_eq_none_iff clock).mpr naive] at known
      cases known
    have known' := Moment.age?_of_aware aware clock
    cases known.symm.trans known'
    rw [← same] at dated ⊢
    exact (Moment.wholeSeconds_le_iff ttl (Moment.span_lt_of_proper dated today)).mp
      (by exact_mod_cast young)

/-! Half a second past its five minutes a price is still served. -/

def halfSecondLate : Moment := ⟨300 * Moment.ticksPerSecond + 500000, some 0⟩

def firstVisit : Visit := ⟨"crypto-btc-usd", 300, ⟨0, some 0⟩, .ok (quoteAt 7 ⟨0, some 0⟩)⟩

theorem proper_start : (⟨0, some 0⟩ : Moment).Proper := by
  refine ⟨by decide, ?_⟩
  rintro minutes ⟨⟩
  decide

theorem proper_halfSecondLate : halfSecondLate.Proper := by
  refine ⟨by decide, ?_⟩
  rintro minutes ⟨⟩
  decide

def secondVisit : Visit := ⟨"crypto-btc-usd", 300, halfSecondLate, .ok (quoteAt 9 halfSecondLate)⟩

theorem fresh_past_its_time :
    halfSecondLate.Aware ∧ halfSecondLate.Proper ∧
      Store.read (History.after [firstVisit]).cache.store halfSecondLate "crypto-btc-usd" =
        .ok (some outlived) ∧
      outlived.quote = some (quoteAt 7 ⟨0, some 0⟩) ∧ outlived.fetchedAt.Aware ∧
      outlived.fetchedAt.Proper ∧
      ¬ halfSecondLate.universal - outlived.fetchedAt.universal ≤ 300 * Moment.ticksPerSecond ∧
      (∃ age, (History.after [firstVisit]).cache.lookup halfSecondLate "crypto-btc-usd" 300
          secondVisit.fetch (History.after [firstVisit]).log =
        (.ok ⟨quoteAt 7 ⟨0, some 0⟩, .fresh, "crypto-btc-usd", 300, age⟩, false,
          (History.after [firstVisit]).cache.count "crypto-btc-usd" Tally.hit,
          (History.after [firstVisit]).log)) ∧
      Moment.InWindow 300 (halfSecondLate.universal - (quoteAt 7 ⟨0, some 0⟩).fetchedAt.universal) := by
  have held : Store.read (History.after [firstVisit]).cache.store halfSecondLate "crypto-btc-usd" =
      .ok (some outlived) := by rfl
  obtain ⟨lookups, runs⟩ :=
    fresh_iff_inWindow halfSecondLate "crypto-btc-usd" 300 rfl proper_halfSecondLate
  obtain ⟨served, _⟩ := lookups (History.after [firstVisit]).cache secondVisit.fetch
    (History.after [firstVisit]).log outlived _ held rfl rfl proper_start
  obtain ⟨age, answer⟩ := served (by decide)
  have window := runs [firstVisit] (.ok (quoteAt 9 halfSecondLate))
    ⟨quoteAt 7 ⟨0, some 0⟩, .fresh, "crypto-btc-usd", 300, age⟩ (congrArg Prod.fst answer) rfl
    proper_start
  exact ⟨rfl, proper_halfSecondLate, held, rfl, rfl, proper_start, by decide, ⟨age, answer⟩, window⟩

end Cache

end QuoteDesk
