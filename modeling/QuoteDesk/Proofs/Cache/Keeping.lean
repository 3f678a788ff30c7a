import QuoteDesk.Proofs.Cache.Passage
import QuoteDesk.Proofs.Moment.Age

/-
What holds of all quotes in a store. A store that keeps quotes as they are written keeps
such a property over every write, and the two halves of a lookup take quotes only from
what was read or fetched.
-/
namespace QuoteDesk

/-- Whatever quote is read under a key has the property. -/
def Store.Holds {σ : Type} [Store σ] (property : String → Quote → Prop) (s : σ) : Prop :=
  ∀ now key e q, Store.read s now key = .ok (some e) → e.quote = some q → property key q

/-- Stores in which a quote is found under its key as it was written, if its time is one of the
calendar, or not found. -/
class Store.Keeping (σ : Type) [Store σ] : Prop where
  write : ∀ (property : String → Quote → Prop) (s : σ) (e : Entry),
    (∀ key q, property key q → q.fetchedAt.Proper) → Store.Holds property s →
    (∀ q, e.quote = some q → property e.key q) → Store.Holds property (Store.write s e).2

theorem Store.holds_mono {σ : Type} [Store σ] {property property' : String → Quote → Prop} {s : σ}
    (weaker : ∀ key q, property key q → property' key q) (holds : Store.Holds property s) :
    Store.Holds property' s :=
  fun now key e q read quote => weaker key q (holds now key e q read quote)

instance : Store.Keeping Memory where
  write property m e _ holds new := by
    intro now key e' q read quote
    have found : (m.put e).get? key = some e' := Except.ok.inj read
    by_cases same : key = e.key
    · subst same
      rw [Memory.get?_put_self] at found
      cases found
      exact new q quote
    · rw [Memory.get?_put_of_ne m e same] at found
      exact holds now key e' q (congrArg Except.ok found) quote

theorem Memory.holds_empty (property : String → Quote → Prop) : Store.Holds property Memory.empty := by
  intro now key e q read
  cases read

namespace Cache

variable {σ : Type} [Store σ]

omit [Store σ] in
theorem fallBack_cases (c : Cache σ) (now : Moment) (key : String) (ttl : Int)
    (entry : Option Entry) (f : Fault) :
    (c.fallBack now key ttl entry f).2.store = c.store ∧
    ∀ a, (c.fallBack now key ttl entry f).1 = .ok a → a.key = key ∧ a.ttl = ttl ∧
      entry.bind (·.quote) = some a.quote := by
  unfold fallBack
  split
  · rename_i q e held
    split
    · exact ⟨rfl, fun a absurd => (by cases absurd)⟩
    · refine ⟨rfl, ?_⟩
      rintro a ⟨⟩
      exact ⟨rfl, rfl, held⟩
  · exact ⟨rfl, fun a absurd => (by cases absurd)⟩

/-- The answer of the second half has its quote from the fetch or from the entry, and so has the
entry that is written, if one is. -/
theorem settle_cases (c : Cache σ) (now : Moment) (key : String) (ttl : Int) (entry : Option Entry)
    (fetched : Outcome Quote) :
    (∀ a, (c.settle now key ttl entry fetched).1 = .ok a → a.key = key ∧ a.ttl = ttl ∧
      (fetched = .ok a.quote ∨ entry.bind (·.quote) = some a.quote)) ∧
    ((c.settle now key ttl entry fetched).2.store = c.store ∨
      ∃ e, e.key = key ∧ (c.settle now key ttl entry fetched).2.store = (Store.write c.store e).2 ∧
        ∀ q, e.quote = some q → fetched = .ok q ∨ entry.bind (·.quote) = some q) := by
  unfold settle
  cases fetched with
  | ok q =>
    dsimp only
    unfold keep
    split
    · rename_i f s write
      refine ⟨fun a absurd => (by cases absurd), .inr ⟨keptEntry key ttl q, rfl, ?_, ?_⟩⟩
      · exact (congrArg Prod.snd write).symm
      · rintro q' ⟨⟩
        exact .inl rfl
    · rename_i s write
      refine ⟨?_, .inr ⟨keptEntry key ttl q, rfl, ?_, ?_⟩⟩
      · rintro a ⟨⟩
        exact ⟨rfl, rfl, .inl rfl⟩
      · exact (congrArg Prod.snd write).symm
      · rintro q' ⟨⟩
        exact .inl rfl
  | error failure =>
    cases failure with
    | defect d => exact ⟨fun a absurd => (by cases absurd), .inl rfl⟩
    | fault f =>
      dsimp only
      unfold fail
      dsimp only
      split
      · rename_i d s write
        refine ⟨fun a absurd => (by cases absurd), .inr ⟨failedEntry now key ttl entry f, rfl, ?_, ?_⟩⟩
        · exact (congrArg Prod.snd write).symm
        · exact fun q carried => .inr carried
      · rename_i r s sound write
        obtain ⟨kept, answered⟩ :=
          fallBack_cases { c.count key Tally.failed with store := s } now key ttl entry f
        refine ⟨?_, .inr ⟨failedEntry now key ttl entry f, rfl, ?_, ?_⟩⟩
        · intro a answer
          obtain ⟨named, span, carried⟩ := answered a answer
          exact ⟨named, span, .inr carried⟩
        · exact kept.trans (congrArg Prod.snd write).symm
        · exact fun q carried => .inr carried

/-- The first half leaves the store alone, and takes its quote from what it reads. -/
theorem look_cases (c : Cache σ) (now : Moment) (key : String) (ttl : Int) :
    (c.look now key ttl).2.store = c.store ∧
    (∀ a, (c.look now key ttl).1 = .ok (.answered a) → a.key = key ∧ a.ttl = ttl ∧
      ∃ e, Store.read c.store now key = .ok (some e) ∧ e.quote = some a.quote) ∧
    (∀ entry, (c.look now key ttl).1 = .ok (.missing entry) →
      Store.read c.store now key = .ok entry) := by
  have glance := glance_look c now key ttl
  generalize c.look now key ttl = first at glance ⊢
  cases glance with
  | unreadable | ageless =>
    exact ⟨rfl, fun _ absurd => (by cases absurd), fun _ absurd => (by cases absurd)⟩
  | fresh read quote =>
    refine ⟨rfl, ?_, fun _ absurd => (by cases absurd)⟩
    rintro a ⟨⟩
    exact ⟨rfl, rfl, _, read, quote⟩
  | missing read =>
    refine ⟨rfl, fun _ absurd => (by cases absurd), ?_⟩
    rintro entry ⟨⟩
    exact read

end Cache
end QuoteDesk
