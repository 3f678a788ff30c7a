import QuoteDesk.Proofs.Cache.Passage

/-
When a stored quote keeps a lookup from failing. The store is any store whose writes
either succeed or fail with a fault of the store. A recorded failure may be lost to
such a fault without harm; a fetched quote that is refused is not answered.
-/
namespace QuoteDesk

namespace Moment

/-- Its distance from universal time is known. -/
def Aware (t : Moment) : Prop := t.offset.isSome = true

instance (t : Moment) : Decidable t.Aware := inferInstanceAs (Decidable (t.offset.isSome = true))

theorem age?_eq_none_iff {since now : Moment} (clock : now.Aware) :
    age? since now = none ↔ ¬ since.Aware := by
  have known : now.offset.isSome = true := clock
  simp [age?, ticksBetween, Aware, known]

end Moment

namespace Cache

variable {σ : Type} [Store σ]

/-- The quote of an entry has outlived its time, a new one was fetched, and the store
refuses it. -/
def Refused (c : Cache σ) (now : Moment) (key : String) (ttl : Int) (e : Entry)
    (fetched : Outcome Quote) (f : Failure) : Prop :=
  ∃ age q, Moment.age? e.fetchedAt now = some age ∧ ttl < age ∧ fetched = .ok q ∧
    (Store.write c.store (keptEntry key ttl q)).1 = .error f

/-- Writing fails with faults of the store only. -/
def FaultsOnly (s : σ) : Prop :=
  ∀ e f, (Store.write s e).1 = .error f → ∃ cause, f = .fault (.store cause)

/-- A lookup with a stored quote, by what its fetch and the store do. -/
theorem answer_of_quote {c : Cache σ} {now : Moment} {key : String} {ttl : Int}
    {fetched : Outcome Quote} {answer : Outcome CachedQuote} {made : Bool} {c' : Cache σ}
    (passage : Passage c now key ttl fetched answer made c')
    (fetches : ∀ d, fetched ≠ .error (.defect d)) (writes : FaultsOnly c.store)
    {e : Entry} {q : Quote} (read : Store.read c.store now key = .ok (some e))
    (quote : e.quote = some q) :
    (Moment.age? e.fetchedAt now = none ∧ answer = .error (.defect .wrongType)) ∨
    (∃ f, Refused c now key ttl e fetched f ∧ answer = .error f) ∨
    ((Moment.age? e.fetchedAt now).isSome ∧ (∀ f, ¬ Refused c now key ttl e fetched f) ∧
      ∃ a, answer = .ok a) := by
  cases passage with
  | unreadable read' => cases read.symm.trans read'
  | ageless read' quote' age =>
    cases read.symm.trans read'
    exact .inl ⟨age, rfl⟩
  | fresh read' quote' known young =>
    cases read.symm.trans read'
    refine .inr (.inr ⟨by simp [known], ?_, _, rfl⟩)
    rintro f ⟨age, _, known', old, _, _⟩
    cases known.symm.trans known'
    omega
  | aborted read' unserved outcome => exact absurd outcome (fetches _)
  | kept read' unserved outcome write =>
    cases read.symm.trans read'
    obtain ⟨age, known, old⟩ := unserved e q rfl quote
    refine .inr (.inr ⟨by simp [known], ?_, _, rfl⟩)
    rintro f ⟨_, _, _, _, outcome', refusal⟩
    cases outcome.symm.trans outcome'
    simp [write] at refusal
  | refused read' unserved outcome write =>
    cases read.symm.trans read'
    obtain ⟨age, known, old⟩ := unserved e q rfl quote
    exact .inr (.inl ⟨_, ⟨age, _, known, old, outcome, by rw [write]⟩, rfl⟩)
  | unrecorded read' unserved outcome write =>
    obtain ⟨cause, absurd⟩ := writes _ _ (congrArg Prod.fst write)
    cases absurd
  | failed read' bare outcome write sound =>
    cases read.symm.trans read'
    simp [quote] at bare
  | fellBack read' quote' known old outcome write sound =>
    cases read.symm.trans read'
    refine .inr (.inr ⟨by simp [known], ?_, _, rfl⟩)
    rintro f ⟨_, _, _, _, outcome', _⟩
    cases outcome.symm.trans outcome'

/-- A lookup without a stored quote fails as its fetch does. -/
theorem answer_of_fault {c : Cache σ} {now : Moment} {key : String} {ttl : Int}
    {fetched : Outcome Quote} {answer : Outcome CachedQuote} {made : Bool} {c' : Cache σ}
    (passage : Passage c now key ttl fetched answer made c') (writes : FaultsOnly c.store)
    {entry : Option Entry} {f : Fault} (read : Store.read c.store now key = .ok entry)
    (bare : entry.bind (·.quote) = none) (outcome : fetched = .error (.fault f)) :
    answer = .error (.fault f) := by
  subst outcome
  cases passage with
  | unreadable read' => cases read.symm.trans read'
  | ageless read' quote age =>
    cases read.symm.trans read'
    simp [quote] at bare
  | fresh read' quote known young =>
    cases read.symm.trans read'
    simp [quote] at bare
  | aborted read' unserved outcome => cases outcome
  | kept read' unserved outcome write => cases outcome
  | refused read' unserved outcome write => cases outcome
  | unrecorded read' unserved outcome write =>
    obtain ⟨cause, absurd⟩ := writes _ _ (congrArg Prod.fst write)
    cases absurd
  | failed read' bare' outcome write sound =>
    cases outcome
    rfl
  | fellBack read' quote known old outcome write sound =>
    cases read.symm.trans read'
    simp [quote] at bare

/-- With a stored quote a lookup is answered exactly if the age of the entry is known
and no newly fetched quote is refused by the store, and a refusal is raised as it is;
without one it fails with the fault of its fetch. -/
theorem answered_iff_not_refused {ω : Type} (c : Cache σ) (now : Moment) (key : String) (ttl : Int)
    (fetch : ω → Outcome Quote × ω) (w : ω) (clock : now.Aware)
    (fetches : ∀ d, (fetch w).1 ≠ .error (.defect d)) (writes : FaultsOnly c.store) :
    (∀ e q, Store.read c.store now key = .ok (some e) → e.quote = some q →
      ((∃ a, (c.lookup now key ttl fetch w).1 = .ok a) ↔
        e.fetchedAt.Aware ∧ ∀ f, ¬ Refused c now key ttl e (fetch w).1 f) ∧
      (∀ f, Refused c now key ttl e (fetch w).1 f →
        (c.lookup now key ttl fetch w).1 = .error f)) ∧
    (∀ entry f, Store.read c.store now key = .ok entry → entry.bind (·.quote) = none →
      (fetch w).1 = .error (.fault f) → (c.lookup now key ttl fetch w).1 = .error (.fault f)) := by
  obtain ⟨answer, made, c', passage, run⟩ := passage_lookup c now key ttl fetch w
  rw [run]
  constructor
  · intro e q read quote
    have aware : e.fetchedAt.Aware ↔ Moment.age? e.fetchedAt now ≠ none := by
      simp [Moment.age?_eq_none_iff clock]
    rcases answer_of_quote passage fetches writes read quote with
      ⟨unknown, rfl⟩ | ⟨f, refused, rfl⟩ | ⟨known, accepted, a, rfl⟩
    · constructor
      · simp [aware, unknown]
      · rintro f ⟨age, _, known, _⟩
        cases unknown.symm.trans known
    · constructor
      · constructor
        · rintro ⟨a, absurd⟩
          cases absurd
        · rintro ⟨_, accepted⟩
          exact absurd refused (accepted f)
      · rintro f' ⟨_, _, _, _, outcome', refusal'⟩
        obtain ⟨_, _, _, _, outcome, refusal⟩ := refused
        cases outcome.symm.trans outcome'
        cases refusal.symm.trans refusal'
        rfl
    · constructor
      · exact ⟨fun _ => ⟨aware.mpr (Option.isSome_iff_ne_none.mp known), accepted⟩, fun _ => ⟨a, rfl⟩⟩
      · intro f refused
        exact absurd refused (accepted f)
  · intro entry f read bare outcome
    exact answer_of_fault passage writes read bare outcome

/-! A store that takes no writes loses a quote that was fetched in time. -/

/-- Entries that can be read and not be written. -/
structure ReadOnly where
  entries : Table Entry

instance : Store ReadOnly where
  read s _ key := .ok (s.entries.lookup key)
  write s e := (.error (.fault (.store (.unwritable e.key))), s)

def quoteAt (price : Nat) (t : Moment) : Quote := ⟨"BTC", "USD", .ofNat price, "coinbase", t⟩

def anHourLater : Moment := ⟨3600 * Moment.ticksPerSecond, some 0⟩

def outlived : Entry := keptEntry "crypto-btc-usd" 300 (quoteAt 7 ⟨0, some 0⟩)

def readOnly : Cache ReadOnly := ofStore ⟨[("crypto-btc-usd", outlived)]⟩

theorem faultsOnly_readOnly (s : ReadOnly) : FaultsOnly s := by
  intro e f refusal
  cases refusal
  exact ⟨_, rfl⟩

theorem refused_outlived :
    Refused readOnly anHourLater "crypto-btc-usd" 300 outlived (.ok (quoteAt 9 anHourLater))
      (.fault (.store (.unwritable "crypto-btc-usd"))) :=
  ⟨3600, _, by decide, by decide, rfl, rfl⟩

theorem fetched_quote_lost_to_refusal :
    anHourLater.Aware ∧ FaultsOnly readOnly.store ∧
      Store.read readOnly.store anHourLater "crypto-btc-usd" = .ok (some outlived) ∧
      outlived.quote = some (quoteAt 7 ⟨0, some 0⟩) ∧
      (¬ ∃ a, (readOnly.lookup anHourLater "crypto-btc-usd" 300
        (fun w : Unit => (.ok (quoteAt 9 anHourLater), w)) ()).1 = .ok a) ∧
      (readOnly.lookup anHourLater "crypto-btc-usd" 300
        (fun w : Unit => (.ok (quoteAt 9 anHourLater), w)) ()).1 =
          .error (.fault (.store (.unwritable "crypto-btc-usd"))) := by
  have held : Store.read readOnly.store anHourLater "crypto-btc-usd" = .ok (some outlived) := rfl
  obtain ⟨answered, raised⟩ :=
    (answered_iff_not_refused readOnly anHourLater "crypto-btc-usd" 300
      (fun w : Unit => (.ok (quoteAt 9 anHourLater), w)) () rfl
      (by intro d absurd; cases absurd) (faultsOnly_readOnly _)).1 outlived _ held rfl
  refine ⟨rfl, faultsOnly_readOnly _, held, rfl, ?_, raised _ refused_outlived⟩
  intro answer
  exact (answered.mp answer).2 _ refused_outlived

end Cache
end QuoteDesk
