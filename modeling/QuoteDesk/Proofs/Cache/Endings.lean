import QuoteDesk.Cache.Crew
import QuoteDesk.Proofs.Cache.Fallback
import QuoteDesk.Proofs.Cache.Temporary

/-
The four ways in which a lookup on a cache in memory can end: a hit, a fetch, a fetch that failed
behind an older quote, and one that failed without. Each adds the same to the counts of its key,
whatever they were.
-/
namespace QuoteDesk

/-! Tables -/

namespace Table

variable {α : Type}

theorem mem_map_fst_set (t : Table α) (name other : String) (v : α) :
    other ∈ (t.set name v).map (·.1) ↔ other = name ∨ other ∈ t.map (·.1) := by
  induction t with
  | nil => simp [set]
  | cons m ms ih =>
    obtain ⟨n, w⟩ := m
    by_cases same : n = name
    · simp [set, same]
    · simp only [set, same, ↓reduceIte, List.map_cons, List.mem_cons, ih]
      exact or_left_comm

theorem nodup_map_fst_set {t : Table α} (distinct : (t.map (·.1)).Nodup) (name : String) (v : α) :
    ((t.set name v).map (·.1)).Nodup := by
  induction t with
  | nil => simp [set]
  | cons m ms ih =>
    obtain ⟨n, w⟩ := m
    obtain ⟨apart, rest⟩ := List.nodup_cons.mp distinct
    by_cases same : n = name
    · simp only [set, same, ↓reduceIte, List.map_cons, List.nodup_cons]
      exact ⟨same ▸ apart, rest⟩
    · rw [set, if_neg same, List.map_cons, List.nodup_cons, mem_map_fst_set]
      refine ⟨?_, ih rest⟩
      intro either
      rcases either with equal | inside
      · exact same equal
      · exact apart inside

end Table

/-! Counts -/

namespace Tally

theorem add_comm (a b : Tally) : a.add b = b.add a := by
  simp only [add, Tally.mk.injEq]
  omega

theorem add_comm_right (a b c : Tally) : (a.add b).add c = (a.add c).add b := by
  simp only [add, Tally.mk.injEq]
  omega

theorem add_assoc (a b c : Tally) : (a.add b).add c = a.add (b.add c) := by
  simp only [add, Tally.mk.injEq]
  omega

theorem zero_add (a : Tally) : zero.add a = a := by
  simp only [add, zero, Nat.zero_add]

/-- What a step does does not depend on what was counted before. -/
def Adds (step : Tally → Tally) : Prop := ∀ t, step t = t.add (step zero)

theorem foldl_add (ts : Table Tally) (a : Tally) :
    ts.foldl (fun t (_, u) => t.add u) a = a.add (ts.foldl (fun t (_, u) => t.add u) zero) := by
  induction ts generalizing a with
  | nil => simp [add, zero]
  | cons m ms ih =>
    rw [List.foldl_cons, ih, List.foldl_cons, ih (zero.add m.2), zero_add, add_assoc]

end Tally

namespace Cache

variable {σ : Type}

theorem total_cons (store : σ) (m : String × Tally) (ms : Table Tally) :
    (⟨store, m :: ms⟩ : Cache σ).total = m.2.add (⟨store, ms⟩ : Cache σ).total := by
  obtain ⟨key, t⟩ := m
  unfold total
  dsimp only
  rw [List.foldl_cons, Tally.foldl_add]
  dsimp only
  rw [Tally.zero_add]

theorem total_count (c : Cache σ) (key : String) {step : Tally → Tally} (adds : Tally.Adds step) :
    (c.count key step).total = c.total.add (step .zero) := by
  obtain ⟨store, tallies⟩ := c
  unfold count
  dsimp only
  induction tallies with
  | nil =>
    rw [List.lookup_nil, Option.getD_none, Table.set, total_cons, Tally.add_comm]
  | cons m ms ih =>
    obtain ⟨n, t⟩ := m
    by_cases same : n = key
    · have first : List.lookup key ((n, t) :: ms) = some t := by simp [same]
      rw [first, Option.getD_some, Table.set, if_pos same, total_cons, total_cons, adds t,
        Tally.add_comm_right]
    · have later : List.lookup key ((n, t) :: ms) = List.lookup key ms := by
        have apart : (key == n) = false := by simpa using Ne.symm same
        rw [List.lookup_cons, apart]
      rw [later, Table.set, if_neg same, total_cons, total_cons, ih, Tally.add_assoc]

theorem count_count (c : Cache σ) (key : String) (step step' : Tally → Tally) :
    (c.count key step).count key step' = c.count key (step' ∘ step) := by
  simp only [count, Table.lookup_set_self, Table.set_set, Option.getD_some, Function.comp]

/-! The four ways to end -/

/-- The answer of a lookup, whether its fetch was made, and the step of the counts that tells it. -/
inductive Ends (fetched : Outcome Quote) : Outcome CachedQuote → Bool → (Tally → Tally) → Prop where
  | hit {a : CachedQuote} (status : a.status = .fresh) : Ends fetched (.ok a) false Tally.hit
  | live {a : CachedQuote} {q : Quote} (outcome : fetched = .ok q) (status : a.status = .live) :
    Ends fetched (.ok a) true Tally.fetched
  | stale {a : CachedQuote} {f : Fault} (outcome : fetched = .error (.fault f))
    (status : a.status = .stale) : Ends fetched (.ok a) true (Tally.fellBack ∘ Tally.failed)
  | failed {f : Fault} (outcome : fetched = .error (.fault f)) :
    Ends fetched (.error (.fault f)) true Tally.failed

theorem Ends.adds {fetched : Outcome Quote} {answer : Outcome CachedQuote} {made : Bool}
    {step : Tally → Tally} (ends : Ends fetched answer made step) : Tally.Adds step := by
  intro t
  cases ends with
  | hit | live | stale | failed => rfl

end Cache

/-- A quote in the entry has a time of known distance from universal time. -/
def Entry.Dated (e : Entry) : Prop := ∀ q, e.quote = some q → e.fetchedAt.Aware

/-- The fetch gives a quote of such a time, or a fault. -/
def Call.Sound (call : Call) : Prop :=
  (∃ q, call.fetched = .ok q ∧ q.fetchedAt.Aware) ∨ ∃ f, call.fetched = .error (.fault f)

namespace Cache

variable {now : Moment}

/-- A look is a hit, or it leaves the cache alone. -/
theorem look_ends {c : Cache Memory} (key : String) (ttl : Int) (clock : now.Aware)
    (dated : ∀ e, c.store.get? key = some e → e.Dated) :
    (∃ a, a.status = .fresh ∧ c.look now key ttl = (.ok (.answered a), c.count key Tally.hit)) ∨
      c.look now key ttl = (.ok (.missing (c.store.get? key)), c) := by
  have glance := glance_look c now key ttl
  generalize c.look now key ttl = first at glance ⊢
  cases glance with
  | unreadable read => cases read
  | @ageless e q read quote age =>
    have stored : c.store.get? key = some e := Except.ok.inj read
    exact absurd (dated e stored q quote) ((Moment.age?_eq_none_iff clock).mp age)
  | fresh => exact .inl ⟨_, rfl, rfl⟩
  | missing read =>
    cases read
    exact .inr rfl

/-- What is left of a lookup that missed tells how it ended. -/
theorem settle_ends (c : Cache Memory) (key : String) (ttl : Int) (clock : now.Aware) {entry : Option Entry}
    (dated : ∀ e, entry = some e → e.Dated) {call : Call} (sound : call.Sound) :
    ∃ answer step e, Ends call.fetched answer true step ∧ e.key = key ∧ e.Dated ∧
      c.settle now key ttl entry call.fetched =
        (answer, ⟨c.store.put e, (c.count key step).tallies⟩) := by
  rcases sound with ⟨q, fetched, aware⟩ | ⟨f, fetched⟩
  · refine ⟨.ok ⟨q, .live, key, ttl, 0⟩, Tally.fetched, keptEntry key ttl q, ?_, rfl, ?_, ?_⟩
    · exact .live fetched rfl
    · intro q' same
      cases same
      exact aware
    · rw [fetched]
      rfl
  · have recorded : (failedEntry now key ttl entry f).Dated := by
      intro q quote
      obtain ⟨e, rfl, quote'⟩ := Option.bind_eq_some_iff.mp quote
      simp only [failedEntry, Option.bind_some, quote', Option.isSome_some, ↓reduceIte, Option.map_some,
        Option.getD_some]
      exact dated e rfl q quote'
    rw [fetched]
    cases bare : entry.bind (·.quote) with
    | none =>
      refine ⟨.error (.fault f), Tally.failed, failedEntry now key ttl entry f, .failed rfl, rfl,
        recorded, ?_⟩
      simp only [settle, fail, Store.write, fallBack, bare]
      rfl
    | some q =>
      obtain ⟨e, rfl, quote⟩ := Option.bind_eq_some_iff.mp bare
      obtain ⟨age, known⟩ : ∃ age, Moment.age? e.fetchedAt now = some age := by
        rw [← Option.isSome_iff_exists, Option.isSome_iff_ne_none]
        intro none
        exact (Moment.age?_eq_none_iff clock).mp none (dated e rfl q quote)
      refine ⟨.ok ⟨q, .stale, key, ttl, age⟩, Tally.fellBack ∘ Tally.failed,
        failedEntry now key ttl (some e) f, .stale rfl rfl, rfl, recorded, ?_⟩
      rw [← count_count]
      simp only [settle, fail, Store.write, fallBack, bare, known]
      rfl

end Cache

end QuoteDesk
