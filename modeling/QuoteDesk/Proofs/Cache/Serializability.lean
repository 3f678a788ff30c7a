import QuoteDesk.Proofs.Cache.Turns
import QuoteDesk.Proofs.Moment.Age

/-
Lookups side by side come to the same as the lookups of each key in a row. So of many that
miss the same key at one time, only the first one fetches, and whoever is given up leaves
no trace and passes the turn on.
-/
namespace QuoteDesk

theorem Moment.age?_of_ticksBetween {since now : Moment} (same : ticksBetween since now = some 0) :
    age? since now = some 0 := by
  have none : wholeSeconds 0 ≤ 0 := wholeSeconds_le_zero (Int.le_refl 0)
  rw [age?, same, Option.map_some, Int.toNat_of_nonpos none]

namespace Cache

/-- A stored quote of the present moment is answered at once. -/
theorem look_of_present {c : Cache Memory} {now : Moment} {key : String} {ttl : Int} {e : Entry}
    {q : Quote} (stored : c.store.get? key = some e) (quote : e.quote = some q)
    (present : Moment.age? e.fetchedAt now = some 0) (span : 0 ≤ ttl) :
    c.look now key ttl = (.ok (.answered ⟨q, .fresh, key, ttl, 0⟩), c.count key Tally.hit) := by
  have read : Store.read c.store now key = .ok (some e) := congrArg Except.ok stored
  simp only [look, read, Option.bind_some, quote, present, Int.ofNat_zero, span, ↓reduceIte]

theorem attend_of_present {c : Cache Memory} {v : Visit} {e : Entry} {q : Quote}
    (stored : c.store.get? v.key = some e) (quote : e.quote = some q)
    (present : Moment.age? e.fetchedAt v.now = some 0) (span : 0 ≤ v.ttl) :
    c.attend v = ((.ok ⟨q, .fresh, v.key, v.ttl, 0⟩, false), c.count v.key Tally.hit) := by
  obtain ⟨_, answered, _⟩ := attend_of_look (c := c) (v := v)
  have looked := look_of_present stored quote present span
  rw [answered _ (congrArg Prod.fst looked), looked]

/-- A fetched quote where none was stored is kept. -/
theorem attend_of_bare {c : Cache Memory} {v : Visit} {q : Quote}
    (bare : (c.store.get? v.key).bind (·.quote) = none) (fetched : v.fetched = .ok q) :
    c.attend v = ((.ok ⟨q, .live, v.key, v.ttl, 0⟩, true),
      Cache.count { c with store := c.store.put (keptEntry v.key v.ttl q) } v.key Tally.fetched) := by
  have looked : c.look v.now v.key v.ttl = (.ok (.missing (c.store.get? v.key)), c) := by
    have read : Store.read c.store v.now v.key = .ok (c.store.get? v.key) := rfl
    unfold look
    rw [read]
    dsimp only
    rw [bare]
  obtain ⟨_, _, missing⟩ := attend_of_look (c := c) (v := v)
  rw [missing _ (congrArg Prod.fst looked), fetched]
  rfl

end Cache

namespace Crew

section Consequences

variable {clock : Nat → Moment} {start : Cache Memory} {c : Crew Memory} {key : String}

/-- Behind a quote of the present moment nobody fetches. -/
theorem fresh_behind {cache : Cache Memory} {e : Entry} {q : Quote} {now : Moment}
    (quote : e.quote = some q) (present : Moment.age? e.fetchedAt now = some 0)
    {done : List (Visit × Outcome CachedQuote × Bool)} (stored : cache.store.get? key = some e)
    (alike : ∀ p ∈ done, p.1.key = key ∧ p.1.now = now ∧ 0 ≤ p.1.ttl)
    (answers : (cache.serve (done.map (·.1))).1 = done.map (·.2)) :
    (∀ p ∈ done, p.2 = (.ok ⟨q, .fresh, key, p.1.ttl, 0⟩, false)) ∧
      (cache.serve (done.map (·.1))).2.store.get? key = some e := by
  induction done generalizing cache with
  | nil => exact ⟨by simp, stored⟩
  | cons p done ih =>
    obtain ⟨v, answer⟩ := p
    obtain ⟨named, dated, span⟩ : v.key = key ∧ v.now = now ∧ 0 ≤ v.ttl := alike (v, answer) (by simp)
    subst named dated
    have attended := Cache.attend_of_present stored quote present span
    simp only [List.map_cons, Cache.serve_cons, attended, List.cons.injEq] at answers ⊢
    obtain ⟨first, answers⟩ := answers
    have counted : (cache.count v.key Tally.hit).store.get? v.key = some e := stored
    obtain ⟨rest, left⟩ := ih counted (fun p member => alike p (List.mem_cons_of_mem _ member)) answers
    refine ⟨?_, left⟩
    intro p member
    rcases List.mem_cons.mp member with rfl | member
    · exact first.symm
    · exact rest p member

theorem visit_of_mem_account {t : Task} {now : Moment} {p : Visit × Outcome CachedQuote × Bool}
    (member : p ∈ t.account key now) :
    t.call.key = key ∧ p.1.key = key ∧ p.1.now = now ∧ p.1.ttl = t.call.ttl := by
  unfold Task.account at member
  split at member
  · split at member
    · rename_i named
      obtain rfl := List.mem_singleton.mp member
      exact ⟨named, rfl, rfl, rfl⟩
    · cases member
  · cases member

section Together

variable {before after : List Task} {first : Call} {q : Quote} {now : Moment}

/-- The first one to end for a key without a quote has fetched, all that ended behind it at one
time are answered what it fetched, and that is what is stored. -/
theorem fresh_behind_first (orderly : Orderly clock start c) {answer : Outcome CachedQuote}
    {made : Bool} (tasks : c.tasks = before ++ ⟨first, .done answer made⟩ :: after)
    (early : ∀ t ∈ before, t.call.key = first.key → t.phase = .cancelled)
    (bare : (start.store.get? first.key).bind (·.quote) = none)
    (spans : ∀ t ∈ c.tasks, t.call.key = first.key → 0 ≤ t.call.ttl) (fixed : ∀ i, clock i = now)
    (fetched : first.fetched = .ok q) (present : Moment.age? q.fetchedAt now = some 0) :
    (answer, made) = (.ok ⟨q, .live, first.key, first.ttl, 0⟩, true) ∧
      (∀ p ∈ accounts clock first.key (before.length + 1) after,
        p.2 = (.ok ⟨q, .fresh, first.key, p.1.ttl, 0⟩, false)) ∧
      c.cache.store.get? first.key = some (Cache.keptEntry first.key first.ttl q) := by
  have none : ∀ i, accounts clock first.key i before = [] := by
    apply accounts_eq_nil
    intro t member now
    by_cases named : t.call.key = first.key
    · have idle : t.phase.hasBegun = false := by rw [early t member named]; rfl
      exact Task.account_of_not_begun idle _ now
    · exact Task.account_of_other named now
  have all : accounts clock first.key 0 c.tasks =
      (⟨first.key, first.ttl, now, first.fetched⟩, answer, made) ::
        accounts clock first.key (before.length + 1) after := by
    rw [tasks, accounts_append, none, Nat.zero_add, accounts]
    simp [Task.account, fixed]
  have later : ∀ p ∈ accounts clock first.key (before.length + 1) after,
      p.1.key = first.key ∧ p.1.now = now ∧ 0 ≤ p.1.ttl := by
    intro p member
    obtain ⟨t, inside, j, here⟩ := key_of_mem_accounts member
    obtain ⟨named, key, dated, span⟩ := visit_of_mem_account here
    refine ⟨key, dated.trans (fixed j), ?_⟩
    rw [span]
    exact spans t (by simp [tasks, inside]) named
  obtain ⟨answers, left⟩ := orderly.serial first.key
  rw [all] at answers left
  -- the first visit finds nothing and stores its quote, and all others find that
  simp only [List.map_cons, Cache.serve_cons, Cache.attend_of_bare
    (v := ⟨first.key, first.ttl, now, first.fetched⟩) bare fetched, List.cons.injEq] at answers left
  obtain ⟨own, answers⟩ := answers
  obtain ⟨fresh, stored⟩ := fresh_behind (e := Cache.keptEntry first.key first.ttl q) rfl present
    (Memory.get?_put_self _ (Cache.keptEntry first.key first.ttl q)) later answers
  exact ⟨own.symm, fresh, left.entry.symm.trans stored⟩

/-- Of the lookups that miss a key at one time only the first one fetches, if its fetch gives
a quote of that time. -/
theorem only_first_fetches (orderly : Orderly clock start c) {phase : Phase}
    (tasks : c.tasks = before ++ ⟨first, phase⟩ :: after)
    (early : ∀ t ∈ before, t.call.key = first.key → t.phase = .cancelled)
    (bare : (start.store.get? first.key).bind (·.quote) = none)
    (spans : ∀ t ∈ c.tasks, t.call.key = first.key → 0 ≤ t.call.ttl) (fixed : ∀ i, clock i = now)
    (fetched : first.fetched = .ok q) (present : Moment.age? q.fetchedAt now = some 0)
    (kept : phase ≠ .cancelled) :
    (∀ answer made, phase = .done answer made →
      answer = .ok ⟨q, .live, first.key, first.ttl, 0⟩ ∧ made = true) ∧
    ∀ t ∈ after, t.call.key = first.key → t.phase.isFetching = false ∧
      ∀ answer made, t.phase = .done answer made →
        answer = .ok ⟨q, .fresh, first.key, t.call.ttl, 0⟩ ∧ made = false := by
  cases phase with
  | cancelled => exact absurd rfl kept
  | waiting | fetching =>
    have ordered := orderly.ordered
    rw [tasks] at ordered
    have closed : ∀ t ∈ before, t.call.key = first.key → t.phase.isOpen = false := by
      intro t member named
      rw [early t member named]
      rfl
    obtain ⟨_, idle⟩ := alone ordered rfl closed
    refine ⟨fun _ _ absurd => (by cases absurd), ?_⟩
    intro t member named
    have idle := idle t member named
    refine ⟨by rw [Phase.isFetching_eq, idle, Bool.and_false], ?_⟩
    intro answer made ended
    rw [ended] at idle
    cases idle
  | done answer made =>
    obtain ⟨own, fresh, stored⟩ :=
      fresh_behind_first orderly tasks early bare spans fixed fetched present
    constructor
    · rintro _ _ ⟨⟩
      exact Prod.mk.inj own
    · intro t member named
      have later : t ∈ c.tasks := by simp [tasks, member]
      obtain ⟨call, phase⟩ := t
      constructor
      · cases phase with
        | waiting | done | cancelled => rfl
        | fetching since entry due =>
          -- its fetch would run on a missing quote, but the first one has left one
          obtain ⟨i, here⟩ := List.mem_iff_getElem?.mp later
          obtain ⟨rfl, missing⟩ := orderly.current i call since entry due here
          have answered := Cache.look_of_present (named ▸ stored) rfl (fixed i ▸ present)
            (spans _ later named)
          rw [answered] at missing
          cases missing
      · rintro answer' made' ⟨⟩
        obtain ⟨j, here⟩ : ∃ j, (⟨call.key, call.ttl, clock j, call.fetched⟩, answer', made') ∈
            accounts clock call.key (before.length + 1) after := mem_accounts member _
        dsimp only at named
        rw [named] at here
        exact Prod.mk.inj (fresh _ here)

end Together

/-- The first open lookup of a key runs its fetch or has its turn. -/
theorem exists_turn {ts : List Task} {t : Task} (member : t ∈ ts) (named : t.call.key = key)
    (isOpen : t.phase.isOpen = true) :
    ∃ j u, ts[j]? = some u ∧ u.call.key = key ∧ (u.phase.isFetching = true ∨ Turn ts j) := by
  have found : (ts.find? fun u => u.phase.isOpen && u.call.key == key).isSome := by
    rw [List.find?_isSome]
    exact ⟨t, member, by simp [isOpen, named]⟩
  obtain ⟨u, first⟩ := Option.isSome_iff_exists.mp found
  obtain ⟨open', before, after, rfl, none⟩ := List.find?_eq_some_iff_append.mp first
  simp only [Bool.and_eq_true, beq_iff_eq] at open'
  obtain ⟨open', named'⟩ := open'
  refine ⟨before.length, u, by simp, named', ?_⟩
  obtain ⟨call, phase⟩ := u
  cases phase with
  | fetching => exact .inl rfl
  | done | cancelled => cases open'
  | waiting =>
    refine .inr ⟨before, call, after, rfl, rfl, ?_⟩
    intro s earlier same
    have closed := none s earlier
    dsimp only at named'
    simpa [same.trans named'] using closed

theorem fetching_unique (ordered : c.tasks.Pairwise Task.Precedes) {i j : Nat} {t u : Task}
    (first : c.tasks[i]? = some t) (second : c.tasks[j]? = some u) (same : t.call.key = u.call.key)
    (running : t.phase.isFetching = true) (running' : u.phase.isFetching = true) : i = j := by
  obtain ⟨inside, rfl⟩ := List.getElem?_eq_some_iff.mp first
  obtain ⟨inside', rfl⟩ := List.getElem?_eq_some_iff.mp second
  rw [Phase.isFetching_eq, Bool.and_eq_true] at running running'
  rw [List.pairwise_iff_getElem] at ordered
  rcases Nat.lt_trichotomy i j with early | same' | late
  · have closed := ordered i j inside inside' early same running'.2
    rw [closed] at running
    cases running.1
  · exact same'
  · have closed := ordered j i inside' inside late same.symm running.2
    rw [closed] at running'
    cases running'.1

end Consequences

/-- Lookups side by side, at any moment and for each key: one fetch at most is running; nobody
has begun before all earlier ones had ended; the answers, the entry and the counts are those of
the finished lookups in a row, on any cache that is alike in this key; nobody is stuck; who is
given up leaves the cache alone and frees the key; and if the first one fetches a quote of the
present moment for a key without one, nobody else fetches. -/
theorem serializable {clock : Nat → Moment} {start : Cache Memory} {c : Crew Memory}
    (reached : Reached clock start c) (key : String) :
    (∀ (i j : Nat) (t u : Task), c.tasks[i]? = some t → c.tasks[j]? = some u → t.call.key = key →
      u.call.key = key → t.phase.isFetching = true → u.phase.isFetching = true → i = j) ∧
    (∀ before t after, c.tasks = before ++ t :: after → t.call.key = key →
      t.phase.hasBegun = true → ∀ s ∈ before, s.call.key = key → s.phase.isOpen = false) ∧
    (∀ other, Cache.Alike key other start →
      Serial other c.cache key (accounts clock key 0 c.tasks)) ∧
    (∀ t ∈ c.tasks, t.call.key = key → t.phase.isOpen = true →
      ∃ j u, c.tasks[j]? = some u ∧ u.call.key = key ∧
        (u.phase.isFetching = true ∨ Turn c.tasks j)) ∧
    (∀ (i : Nat) (t : Task), c.tasks[i]? = some t → t.call.key = key →
      t.phase.isOpen = true → (c.cancel i).cache = c.cache ∧
      accounts clock key 0 (c.cancel i).tasks = accounts clock key 0 c.tasks ∧
      (t.phase.isFetching = true → ∀ u ∈ (c.cancel i).tasks, u.call.key = key →
        u.phase.isOpen = true → ∃ j v, (c.cancel i).tasks[j]? = some v ∧ v.call.key = key ∧
          Turn (c.cancel i).tasks j)) ∧
    (∀ before first phase after q now, c.tasks = before ++ ⟨first, phase⟩ :: after →
      (∀ t ∈ before, t.call.key = key → t.phase = .cancelled) → first.key = key →
      (start.store.get? key).bind (·.quote) = none →
      (∀ t ∈ c.tasks, t.call.key = key → 0 ≤ t.call.ttl) → (∀ i, clock i = now) →
      first.fetched = .ok q → Moment.ticksBetween q.fetchedAt now = some 0 → phase ≠ .cancelled →
      (∀ answer made, phase = .done answer made →
        answer = .ok ⟨q, .live, key, first.ttl, 0⟩ ∧ made = true) ∧
      ∀ t ∈ after, t.call.key = key → t.phase.isFetching = false ∧
        ∀ answer made, t.phase = .done answer made →
          answer = .ok ⟨q, .fresh, key, t.call.ttl, 0⟩ ∧ made = false) := by
  have orderly := orderly_of_reached reached
  refine ⟨?_, ?_, ?_, ?_, ?_, ?_⟩
  · intro i j t u first second named named' running running'
    exact fetching_unique orderly.ordered first second (named.trans named'.symm) running running'
  · intro before t after tasks named begun s member same
    have ordered := orderly.ordered
    rw [tasks] at ordered
    exact leads_of_begun ordered begun s member (same.trans named.symm)
  · intro other alike
    obtain ⟨answers, left⟩ := orderly.serial key
    have own : ∀ v ∈ (accounts clock key 0 c.tasks).map (·.1), v.key = key := by
      intro v member
      obtain ⟨p, inside, rfl⟩ := List.mem_map.mp member
      obtain ⟨t, _, j, here⟩ := key_of_mem_accounts inside
      exact (visit_of_mem_account here).2.1
    obtain ⟨same, left'⟩ := Cache.serve_alike own alike
    exact ⟨same.trans answers, left'.trans left⟩
  · intro t member named isOpen
    exact exists_turn member named isOpen
  · intro i t here named isOpen
    have orderly' := orderly_cancel orderly i
    obtain ⟨before, after, tasks, rfl⟩ := split_of_getElem? here
    have given : c.cancel before.length = ⟨c.cache, before ++ ⟨t.call, .cancelled⟩ :: after⟩ := by
      simp [cancel, tasks, isOpen]
    rw [given] at orderly' ⊢
    refine ⟨rfl, ?_, ?_⟩
    · rw [tasks]
      exact accounts_replace isOpen fun _ => rfl
    · intro running u member named' open'
      obtain ⟨j, v, there, named', running' | turn⟩ := exists_turn member named' open'
      · have ordered := orderly.ordered
        rw [tasks] at ordered
        rw [Phase.isFetching_eq, Bool.and_eq_true] at running
        obtain ⟨unshared, _⟩ := alone ordered isOpen (leads_of_begun ordered running.2)
        rcases getElem?_replace (t := t) there with ⟨rfl, _⟩ | ⟨inside, _⟩
        · cases running'
        · rw [unshared v inside (named'.trans named.symm)] at running'
          cases running'
      · exact ⟨j, v, there, named', turn⟩
  · intro before first phase after q now tasks early named bare spans fixed fetched present kept
    subst named
    exact only_first_fetches orderly tasks early bare spans fixed fetched
      (Moment.age?_of_ticksBetween present) kept

/-! Two lookups miss a key together: the second one is answered what the first one fetched. -/

def noon : Moment := ⟨12 * 3600 * Moment.ticksPerSecond, some 0⟩

def bitcoinAt (price : Nat) : Quote := ⟨"BTC", "USD", .ofNat price, "coinbase", noon⟩

def callAt (price : Nat) : Call := ⟨"crypto-btc-usd", 300, .ok (bitcoinAt price), 1⟩

/-- Both wait, the first one enters, and its fetch ends. -/
def firstServed : Crew Memory :=
  (Crew.enter ⟨Cache.ofStore .empty, [⟨callAt 7, .waiting⟩, ⟨callAt 9, .waiting⟩]⟩ noon 0 0).finish 0

theorem second_lookup_fresh :
    Reached (fun _ => noon) (Cache.ofStore .empty) (firstServed.enter noon 1 1) ∧
      (firstServed.enter noon 1 1).tasks =
        [⟨callAt 7, .done (.ok ⟨bitcoinAt 7, .live, "crypto-btc-usd", 300, 0⟩) true⟩,
          ⟨callAt 9, .done (.ok ⟨bitcoinAt 7, .fresh, "crypto-btc-usd", 300, 0⟩) false⟩] ∧
      Serial (Cache.ofStore .empty) (firstServed.enter noon 1 1).cache "crypto-btc-usd"
        (accounts (fun _ => noon) "crypto-btc-usd" 0 (firstServed.enter noon 1 1).tasks) := by
  have first : Reached (fun _ => noon) (Cache.ofStore .empty) firstServed := by
    apply Reached.finish
    apply Reached.enter 0 0 (.arrive (callAt 9) (.arrive (callAt 7) .start))
    exact ⟨[], callAt 7, [⟨callAt 9, .waiting⟩], rfl, rfl, by simp⟩
  have second : Reached (fun _ => noon) (Cache.ofStore .empty) (firstServed.enter noon 1 1) := by
    apply Reached.enter 1 1 first
    refine ⟨[⟨callAt 7, .done _ true⟩], callAt 9, [], rfl, rfl, ?_⟩
    intro t member _
    obtain rfl := List.mem_singleton.mp member
    rfl
  have answered : firstServed.cache.look noon "crypto-btc-usd" 300 =
      (.ok (.answered ⟨bitcoinAt 7, .fresh, "crypto-btc-usd", 300, 0⟩),
        firstServed.cache.count "crypto-btc-usd" Tally.hit) :=
    Cache.look_of_present (e := Cache.keptEntry "crypto-btc-usd" 300 (bitcoinAt 7)) rfl rfl
      (Moment.age?_of_ticksBetween rfl) (by decide)
  obtain ⟨_, _, serial, _⟩ := serializable second "crypto-btc-usd"
  refine ⟨second, ?_, serial _ (.refl _ _)⟩
  have waiting : firstServed.tasks[1]? = some ⟨callAt 9, .waiting⟩ := rfl
  have called : firstServed.cache.look noon (callAt 9).key (callAt 9).ttl = _ := answered
  simp only [enter, waiting, called]
  rfl

end Crew

end QuoteDesk
