import QuoteDesk.Proofs.Desk.Session

/-
What every session keeps: each quote, in the store, with a lookup that asks or in an answer,
is genuine for the pair whose key it goes by. A price reaches a quote only right after the
reply it stands in, and a quote reaches another lookup only under its key.
-/
namespace QuoteDesk

theorem Pair.genuine_of_priced {pair : Pair} {exchanges : List Exchange} {x : Exchange}
    (member : x ∈ exchanges) (own : x.pair = pair) {priced : String × Numeral}
    (told : pair.Priced x.address x.reply priced) {q : Quote}
    (quoted : pair.quoteAt x.time (.ok priced) = .ok q) :
    q.Genuine exchanges pair ∧ q.fetchedAt = x.time := by
  obtain ⟨source, ranked, named, d, number, answers⟩ := told
  obtain ⟨name, price⟩ := priced
  cases named
  cases number
  cases quoted
  exact ⟨⟨rfl, rfl, x, member, own, rfl, source, ranked, rfl, answers⟩, rfl⟩

/-- What holds of a lookup of a pair: the price it may come to is told by the reply it waits
for, and the quotes it holds are those of the pair. -/
inductive Stage.Sound (exchanges : List Exchange) (pair : Pair) : Stage → Prop where
  | waiting : Sound exchanges pair .waiting
  | asking {since : Moment} {entry : Option Entry} {address : String}
      {next : Reply → Course (String × Numeral)}
      (told : ∀ r, (next r).Told pair.Priced (pair.Priced address r))
      (carried : ∀ q, entry.bind (·.quote) = some q → q.KeptFor exchanges pair.key) :
      Sound exchanges pair (.asking since entry address next)
  | served {a : CachedQuote} (serves : a.Serves exchanges pair) :
      Sound exchanges pair (.done (.ok a))
  | failed (f : Failure) : Sound exchanges pair (.done (.error f))
  | cancelled : Sound exchanges pair .cancelled

theorem Stage.sound_mono {exchanges : List Exchange} {pair : Pair} {stage : Stage} (x : Exchange)
    (sound : stage.Sound exchanges pair) : stage.Sound (exchanges ++ [x]) pair := by
  cases sound with
  | waiting => exact .waiting
  | asking told carried => exact .asking told fun q here => Quote.keptFor_mono x (carried q here)
  | served serves => exact .served ⟨Quote.genuine_mono x serves.quote, serves.key, serves.ttl⟩
  | failed f => exact .failed f
  | cancelled => exact .cancelled

namespace Session

variable {σ : Type} [Store σ]

structure Sound (s : Session σ) : Prop where
  stored : Store.Holds (fun key q => q.KeptFor s.exchanges key) s.cache.store
  lookups : ∀ l ∈ s.lookups, l.pair.Settled ∧ l.stage.Sound s.exchanges l.pair

/-- One lookup takes its step, with the cache and the others as they are. -/
theorem Sound.set {s : Session σ} (sound : s.Sound) {pair : Pair} {stage : Stage}
    (settled : pair.Settled) (here : stage.Sound s.exchanges pair) (i : Nat) {c : Cache σ}
    (stored : Store.Holds (fun key q => q.KeptFor s.exchanges key) c.store) :
    Sound { s with cache := c, lookups := s.lookups.set i ⟨pair, stage⟩ } where
  stored := stored
  lookups l member := by
    rcases List.mem_or_eq_of_mem_set member with before | rfl
    · exact sound.lookups l before
    · exact ⟨settled, here⟩

theorem sound_start {start : σ} (empty : Store.Holds (fun _ _ => False) start) :
    Sound (⟨Cache.ofStore start, [], []⟩ : Session σ) where
  stored := Store.holds_mono (fun _ _ absurd => absurd.elim) empty
  lookups _ absurd := by cases absurd

theorem Sound.ask {s : Session σ} (sound : s.Sound) {pair : Pair} (settled : pair.Settled) :
    Sound { s with lookups := s.lookups ++ [⟨pair, .waiting⟩] } where
  stored := sound.stored
  lookups l member := by
    rcases List.mem_append.mp member with before | last
    · exact sound.lookups l before
    · obtain rfl := List.mem_singleton.mp last
      exact ⟨settled, .waiting⟩

theorem Sound.log {s : Session σ} (sound : s.Sound) (x : Exchange) : (s.log [x]).Sound where
  stored := Store.holds_mono (fun _ _ kept => Quote.keptFor_mono x kept) sound.stored
  lookups l member := ⟨(sound.lookups l member).1, Stage.sound_mono x (sound.lookups l member).2⟩

variable [Store.Keeping σ]

theorem Sound.proceed {s : Session σ} (sound : s.Sound) {i : Nat} {pair : Pair} {since : Moment}
    {entry : Option Entry} {now : Moment} {course : Course (String × Numeral)}
    (settled : pair.Settled) (proper : now.Proper)
    (carried : ∀ q, entry.bind (·.quote) = some q → q.KeptFor s.exchanges pair.key)
    (told : course.Told pair.Priced fun priced =>
      ∃ x ∈ s.exchanges, x.pair = pair ∧ x.time = now ∧ pair.Priced x.address x.reply priced) :
    (s.proceed i pair since entry now course).Sound := by
  cases course with
  | asks address next =>
    cases told with
    | asks each => exact sound.set settled (.asking each carried) i sound.stored
  | ends o =>
    -- the quote that is written or answered is the one fetched just now or the one of the entry
    have fetched : ∀ q, pair.quoteAt now o = .ok q → q.KeptFor s.exchanges pair.key := by
      intro q quoted
      cases told with
      | failed f => cases quoted
      | ended here =>
        obtain ⟨x, member, own, rfl, told⟩ := here
        obtain ⟨genuine, dated⟩ := Pair.genuine_of_priced member own told quoted
        exact Quote.keptFor_key settled (dated ▸ proper) genuine
    have either : ∀ q, pair.quoteAt now o = .ok q ∨ entry.bind (·.quote) = some q →
        q.KeptFor s.exchanges pair.key := by
      rintro q (new | old)
      · exact fetched q new
      · exact carried q old
    obtain ⟨answered, written⟩ :=
      s.cache.settle_cases since pair.key pair.kind.freshSeconds entry (pair.quoteAt now o)
    unfold Session.proceed
    dsimp only
    generalize s.cache.settle since pair.key pair.kind.freshSeconds entry (pair.quoteAt now o) =
      second at answered written ⊢
    obtain ⟨answer, c⟩ := second
    dsimp only at answered written
    have stored : Store.Holds (fun key q => q.KeptFor s.exchanges key) c.store := by
      rcases written with same | ⟨e, named, store, quote⟩
      · rw [same]
        exact sound.stored
      · rw [store]
        apply Store.Keeping.write _ _ _ (fun _ _ kept => kept.1) sound.stored
        intro q here
        rw [named]
        exact either q (quote q here)
    cases answer with
    | error f => exact sound.set settled (.failed f) i stored
    | ok a =>
      obtain ⟨key, ttl, quote⟩ := answered a rfl
      have kept := either a.quote quote
      exact sound.set settled (.served ⟨kept.2 pair settled rfl, key, ttl⟩) i stored

theorem Sound.enter {s : Session σ} (sound : s.Sound) (policy : RetryPolicy) (connected : Bool)
    {now : Moment} (proper : now.Proper) (i : Nat) : (s.enter policy connected now i).Sound := by
  unfold Session.enter
  split
  · rename_i pair found
    have settled : pair.Settled := (sound.lookups _ (List.mem_of_getElem? found)).1
    obtain ⟨same, answered, missing⟩ := s.cache.look_cases now pair.key pair.kind.freshSeconds
    generalize s.cache.look now pair.key pair.kind.freshSeconds = first at same answered missing
    obtain ⟨look, c⟩ := first
    dsimp only at same answered missing
    have stored : Store.Holds (fun key q => q.KeptFor s.exchanges key) c.store := by
      rw [same]
      exact sound.stored
    cases look with
    | error f => exact sound.set settled (.failed f) i stored
    | ok look =>
      cases look with
      | answered a =>
        obtain ⟨key, ttl, e, read, quote⟩ := answered a rfl
        have kept := sound.stored now pair.key e a.quote read quote
        exact sound.set settled (.served ⟨kept.2 pair settled rfl, key, ttl⟩) i stored
      | missing entry =>
        have read := missing entry rfl
        have held : Sound { s with cache := c } := ⟨stored, sound.lookups⟩
        apply held.proceed settled proper
        · intro q quote
          obtain ⟨e, rfl, here⟩ := Option.bind_eq_some_iff.mp quote
          exact sound.stored now pair.key e q read here
        · exact (pair.told_course policy connected).mono fun _ absurd => absurd.elim
  · exact sound

theorem Sound.receive {s : Session σ} (sound : s.Sound) {now : Moment} (proper : now.Proper)
    (i : Nat) (r : Reply) : (s.receive now i r).Sound := by
  unfold Session.receive
  split
  · rename_i pair since entry address next found
    obtain ⟨settled, asking⟩ := sound.lookups _ (List.mem_of_getElem? found)
    obtain _ | ⟨told, carried⟩ := asking
    apply (sound.log ⟨pair, address, r, now⟩).proceed settled proper
    · exact fun q here => Quote.keptFor_mono _ (carried q here)
    · apply (told r).mono
      intro priced here
      exact ⟨_, List.mem_append_right _ (List.mem_singleton_self _), rfl, rfl, here⟩
  · exact sound

omit [Store.Keeping σ] in
theorem Sound.cancel {s : Session σ} (sound : s.Sound) (i : Nat) : (s.cancel i).Sound := by
  unfold Session.cancel
  split
  · rename_i pair found
    exact sound.set (sound.lookups _ (List.mem_of_getElem? found)).1 .cancelled i sound.stored
  · rename_i pair _ _ _ _ found
    exact sound.set (sound.lookups _ (List.mem_of_getElem? found)).1 .cancelled i sound.stored
  · exact sound

theorem sound_of_reached {start : σ} (empty : Store.Holds (fun _ _ => False) start) {s : Session σ}
    (reached : Reached start s) : s.Sound := by
  induction reached with
  | start => exact sound_start empty
  | ask _ wanted ih => exact ih.ask (Pair.settled_of_wanted wanted)
  | enter _ policy connected proper i ih => exact ih.enter policy connected proper i
  | receive _ proper i r ih => exact ih.receive proper i r
  | cancel _ i ih => exact ih.cancel i

/-- Whatever a lookup answers is one of its pair. -/
theorem serves_of_reached {start : σ} (empty : Store.Holds (fun _ _ => False) start) {s : Session σ}
    (reached : Reached start s) {l : PriceLookup} (member : l ∈ s.lookups) {a : CachedQuote}
    (done : l.stage = .done (.ok a)) : a.Serves s.exchanges l.pair := by
  obtain ⟨_, stage⟩ := (sound_of_reached empty reached).lookups l member
  rw [done] at stage
  cases stage with
  | served serves => exact serves

end Session
end QuoteDesk
