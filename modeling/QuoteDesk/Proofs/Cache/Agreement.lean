import QuoteDesk.Proofs.Cache.Keeping
import QuoteDesk.Proofs.Cache.Written

/-
Two stores that cannot be told apart. If two stores read the same, and do so again after the same
entry was written to both, then the caches over them give the same answer to every step of every
run. The keys may be restricted, and entries are those that a file can hold.
-/
namespace QuoteDesk.Cache

variable {σ τ : Type}

/-! Runs -/

/-- What can be done with a cache, its store and its clock. -/
inductive Step where
  | lookup (key : String) (ttl : Int) (fetched : Outcome Quote)
  | write (e : Entry)
  | read (key : String)
  | clock (now : Moment)
  | statistics
  /-- A new cache over the same store. -/
  | reopen

inductive Reply where
  /-- The answer of a lookup, and whether its fetch was made. -/
  | answer (a : Outcome CachedQuote) (made : Bool)
  | written (o : Outcome Unit)
  | entry (o : Outcome (Option Entry))
  /-- How many keys were looked up, and how these lookups went. -/
  | statistics (keys : Nat) (total : Tally)
  | done

/-- A cache with the time that its clock shows. -/
structure Scene (σ : Type) where
  cache : Cache σ
  now : Moment

def Scene.perform [Store σ] (s : Scene σ) : Step → Reply × Scene σ
  | .lookup key ttl fetched =>
    let (answer, made, cache, _) := s.cache.lookup s.now key ttl (fun w => (fetched, w)) ()
    (.answer answer made, { s with cache := cache })
  | .write e =>
    let (o, store) := Store.write s.cache.store e
    (.written o, { s with cache := { s.cache with store := store } })
  | .read key => (.entry (Store.read s.cache.store s.now key), s)
  | .clock now => (.done, { s with now := now })
  | .statistics => (.statistics s.cache.tallies.length s.cache.total, s)
  | .reopen => (.done, { s with cache := Cache.ofStore s.cache.store })

/-- The replies to all steps of a run. -/
def Scene.replies [Store σ] : Scene σ → List Step → List Reply
  | _, [] => []
  | s, step :: steps => (s.perform step).1 :: (s.perform step).2.replies steps

/-! Agreement -/

/-- The keys are of some kind, and what is to be stored can be written down. -/
def Step.Sound (named : String → Prop) : Step → Prop
  | .lookup key ttl fetched =>
    named key ∧ writable ttl = true ∧ ∀ q, fetched = .ok q → q.Storable
  | .write e => named e.key ∧ e.Storable
  | .read key => named key
  | .clock now => now.Proper
  | .statistics => True
  | .reopen => True

/-- Related stores read the same, and are related again after the same entry was written. -/
structure Agreement [Store σ] [Store τ] (named : String → Prop) (related : σ → τ → Prop) : Prop where
  read : ∀ {s t}, related s t → ∀ {key}, named key → ∀ now,
    Store.read s now key = Store.read t now key
  storable : ∀ {s t}, related s t → ∀ {key}, named key → ∀ {now e},
    Store.read s now key = .ok (some e) → e.Storable
  write : ∀ {s t}, related s t → ∀ {e : Entry}, named e.key → e.Storable →
    (Store.write s e).1 = (Store.write t e).1 ∧ related (Store.write s e).2 (Store.write t e).2

/-- Caches over related stores, with the same counts. -/
structure Twin (related : σ → τ → Prop) (c : Cache σ) (d : Cache τ) : Prop where
  store : related c.store d.store
  tallies : c.tallies = d.tallies

theorem Twin.count {related : σ → τ → Prop} {c : Cache σ} {d : Cache τ} (twin : Twin related c d)
    (key : String) (step : Tally → Tally) : Twin related (c.count key step) (d.count key step) :=
  ⟨twin.store, by simp only [Cache.count, twin.tallies]⟩

section Halves

variable [Store σ] [Store τ] {named : String → Prop} {related : σ → τ → Prop} {c : Cache σ}
  {d : Cache τ} {now : Moment} {key : String} {ttl : Int}

theorem Agreement.look (agreement : Agreement named related) (twin : Twin related c d)
    (member : named key) (now : Moment) (ttl : Int) :
    (c.look now key ttl).1 = (d.look now key ttl).1 ∧
      Twin related (c.look now key ttl).2 (d.look now key ttl).2 := by
  unfold Cache.look
  rw [agreement.read twin.store member now]
  split
  · exact ⟨rfl, twin⟩
  · split
    · split
      · exact ⟨rfl, twin⟩
      · split
        · exact ⟨rfl, twin.count key Tally.hit⟩
        · exact ⟨rfl, twin⟩
    · exact ⟨rfl, twin⟩

theorem storable_keptEntry {q : Quote} (small : writable ttl = true) (sound : q.Storable) :
    (⟨key, some q, none, q.fetchedAt, ttl⟩ : Entry).Storable := by
  refine ⟨?_, fun _ absurd => (by cases absurd), sound.time, small⟩
  rintro _ ⟨⟩
  exact sound

/-- The record of a failure can be written down if the entry before it can. -/
theorem storable_failedEntry {entry : Option Entry} (small : writable ttl = true)
    (sound : ∀ e, entry = some e → e.Storable) (proper : now.Proper) (f : Fault) :
    (failedEntry now key ttl entry f).Storable := by
  refine ⟨?_, ?_, ?_, small⟩
  · intro q quote
    obtain ⟨e, here, quote⟩ := Option.bind_eq_some_iff.mp quote
    exact (sound e here).quote q quote
  · rintro _ ⟨⟩
    exact proper
  · cases entry with
    | none => exact proper
    | some e =>
      cases quote : e.quote with
      | none => simpa [failedEntry, quote] using proper
      | some q => simpa [failedEntry, quote] using (sound e rfl).fetchedAt

omit [Store σ] [Store τ] in
theorem Twin.fallBack (twin : Twin related c d) (entry : Option Entry) (f : Fault) :
    (c.fallBack now key ttl entry f).1 = (d.fallBack now key ttl entry f).1 ∧
      Twin related (c.fallBack now key ttl entry f).2 (d.fallBack now key ttl entry f).2 := by
  unfold Cache.fallBack
  split
  · split
    · exact ⟨rfl, twin⟩
    · exact ⟨rfl, twin.count key Tally.fellBack⟩
  · exact ⟨rfl, twin⟩

theorem Agreement.keep (agreement : Agreement named related) (twin : Twin related c d)
    (member : named key) (small : writable ttl = true) {q : Quote} (sound : q.Storable) :
    (c.keep key ttl q).1 = (d.keep key ttl q).1 ∧
      Twin related (c.keep key ttl q).2 (d.keep key ttl q).2 := by
  obtain ⟨same, after⟩ := agreement.write twin.store (e := keptEntry key ttl q) member
    (storable_keptEntry small sound)
  simp only [keptEntry] at same after
  unfold Cache.keep
  generalize Store.write c.store _ = first at same after ⊢
  generalize Store.write d.store _ = second at same after ⊢
  obtain ⟨r, s⟩ := first
  obtain ⟨_, t⟩ := second
  subst same
  have stored : Twin related ⟨s, c.tallies⟩ ⟨t, d.tallies⟩ := ⟨after, twin.tallies⟩
  cases r with
  | error f => exact ⟨rfl, stored⟩
  | ok done =>
    cases done
    exact ⟨rfl, stored.count key Tally.fetched⟩

theorem Agreement.fail (agreement : Agreement named related) (twin : Twin related c d)
    (member : named key) (small : writable ttl = true) (proper : now.Proper) {entry : Option Entry}
    (sound : ∀ e, entry = some e → e.Storable) (f : Fault) :
    (c.fail now key ttl entry f).1 = (d.fail now key ttl entry f).1 ∧
      Twin related (c.fail now key ttl entry f).2 (d.fail now key ttl entry f).2 := by
  obtain ⟨same, after⟩ := agreement.write twin.store member
    (storable_failedEntry small sound proper f)
  have counted := (twin.count key Tally.failed).tallies
  unfold Cache.fail
  simp only [Cache.count] at counted ⊢
  generalize Store.write c.store _ = first at same after ⊢
  generalize Store.write d.store _ = second at same after ⊢
  obtain ⟨r, s⟩ := first
  obtain ⟨_, t⟩ := second
  subst same
  have noted : Twin related ⟨s, _⟩ ⟨t, _⟩ := ⟨after, counted⟩
  rcases r with (_ | _) | _
  · exact noted.fallBack entry f
  · exact ⟨rfl, noted⟩
  · exact noted.fallBack entry f

theorem Agreement.settle (agreement : Agreement named related) (twin : Twin related c d)
    (member : named key) (small : writable ttl = true) (proper : now.Proper) {entry : Option Entry}
    (sound : ∀ e, entry = some e → e.Storable) {fetched : Outcome Quote}
    (fetchable : ∀ q, fetched = .ok q → q.Storable) :
    (c.settle now key ttl entry fetched).1 = (d.settle now key ttl entry fetched).1 ∧
      Twin related (c.settle now key ttl entry fetched).2 (d.settle now key ttl entry fetched).2 := by
  unfold Cache.settle
  cases fetched with
  | ok q => exact agreement.keep twin member small (fetchable q rfl)
  | error failure =>
    cases failure with
    | defect d => exact ⟨rfl, twin⟩
    | fault f => exact agreement.fail twin member small proper sound f

theorem Agreement.lookup (agreement : Agreement named related) (twin : Twin related c d)
    (member : named key) (small : writable ttl = true) (proper : now.Proper)
    {fetched : Outcome Quote} (fetchable : ∀ q, fetched = .ok q → q.Storable) :
    ∃ answer made c' d', Twin related c' d' ∧
      c.lookup now key ttl (fun w => (fetched, w)) () = (answer, made, c', ()) ∧
      d.lookup now key ttl (fun w => (fetched, w)) () = (answer, made, d', ()) := by
  obtain ⟨same, after⟩ := agreement.look twin member now ttl
  have read := (look_cases c now key ttl).2.2
  unfold Cache.lookup
  generalize c.look now key ttl = first at same after read ⊢
  generalize d.look now key ttl = second at same after ⊢
  obtain ⟨look, c'⟩ := first
  obtain ⟨look', d'⟩ := second
  obtain rfl : look = look' := same
  rcases look with f | (a | entry)
  · exact ⟨_, _, c', d', after, rfl, rfl⟩
  · exact ⟨_, _, c', d', after, rfl, rfl⟩
  · have sound : ∀ e, entry = some e → e.Storable := by
      rintro e rfl
      exact agreement.storable twin.store member (read _ rfl)
    obtain ⟨same, settled⟩ := agreement.settle after member small proper sound fetchable
    refine ⟨(d'.settle now key ttl entry fetched).1, true, _, _, settled, ?_, rfl⟩
    dsimp only at same ⊢
    rw [same]

end Halves

/-! Runs over related stores -/

variable [Store σ] [Store τ] {named : String → Prop} {related : σ → τ → Prop}

/-- Scenes at the same time with caches over related stores. -/
structure Scene.Twin (related : σ → τ → Prop) (s : Scene σ) (t : Scene τ) : Prop where
  cache : Cache.Twin related s.cache t.cache
  now : s.now = t.now
  proper : s.now.Proper

/-- Each step is answered alike, and the scenes are twins again after it. -/
theorem Agreement.perform (agreement : Agreement named related) {s : Scene σ} {t : Scene τ}
    (twin : Scene.Twin related s t) {step : Step} (sound : step.Sound named) :
    (s.perform step).1 = (t.perform step).1 ∧
      Scene.Twin related (s.perform step).2 (t.perform step).2 := by
  obtain ⟨c, now⟩ := s
  obtain ⟨d, _⟩ := t
  obtain ⟨twin, same, proper⟩ := twin
  cases same
  cases step with
  | lookup key ttl fetched =>
    obtain ⟨member, small, fetchable⟩ := sound
    obtain ⟨answer, made, c', d', after, first, second⟩ :=
      agreement.lookup twin member small proper fetchable
    have here : (⟨c, now⟩ : Scene σ).perform (.lookup key ttl fetched) =
        (.answer answer made, ⟨c', now⟩) := by simp only [Scene.perform, first]
    have there : (⟨d, now⟩ : Scene τ).perform (.lookup key ttl fetched) =
        (.answer answer made, ⟨d', now⟩) := by simp only [Scene.perform, second]
    rw [here, there]
    exact ⟨rfl, after, rfl, proper⟩
  | write e =>
    obtain ⟨member, storable⟩ := sound
    obtain ⟨same, after⟩ := agreement.write twin.store member storable
    exact ⟨congrArg Reply.written same, ⟨after, twin.tallies⟩, rfl, proper⟩
  | read key =>
    exact ⟨congrArg Reply.entry (agreement.read twin.store sound now), twin, rfl, proper⟩
  | clock now' => exact ⟨rfl, twin, rfl, sound⟩
  | statistics =>
    have counts : c.tallies = d.tallies := twin.tallies
    refine ⟨?_, twin, rfl, proper⟩
    simp only [Scene.perform, Cache.total, counts]
  | reopen => exact ⟨rfl, ⟨twin.store, rfl⟩, rfl, proper⟩

theorem Agreement.replies (agreement : Agreement named related) {s : Scene σ} {t : Scene τ}
    (twin : Scene.Twin related s t) {steps : List Step} (sound : ∀ step ∈ steps, step.Sound named) :
    s.replies steps = t.replies steps := by
  induction steps generalizing s t with
  | nil => rfl
  | cons step steps ih =>
    obtain ⟨same, after⟩ := agreement.perform twin (sound step (by simp))
    rw [Scene.replies, Scene.replies, same, ih after fun later member => sound later (by simp [member])]

end QuoteDesk.Cache
