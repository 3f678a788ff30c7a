import Mathlib.Data.List.Induction
import QuoteDesk.Proofs.Cache.Passage

/-
A cache in memory over a whole run of lookups, one after the other. The fetches keep a
log of themselves as they are made, and what the cache holds for a key is settled by
the log of that key alone: the last quote in it, and how its last fetch ended.
-/
namespace QuoteDesk

/-- A lookup with the time at which it starts and what its fetch would give. -/
structure Visit where
  key : String
  ttl : Int
  now : Moment
  fetched : Outcome Quote

/-- A fetch that was made, with the time at which its lookup started. -/
structure Fetch where
  key : String
  since : Moment
  outcome : Outcome Quote

namespace Fetch

def quote? (f : Fetch) : Option Quote :=
  match f.outcome with
  | .ok q => some q
  | .error _ => none

def error? (f : Fetch) : Option FetchError :=
  match f.outcome with
  | .error (.fault x) => some ⟨x.text, f.since⟩
  | _ => none

/-- A fetch counts if it gave a quote or a fault; one that broke down leaves no trace. -/
def counts (f : Fetch) : Bool := f.quote?.isSome || f.error?.isSome

theorem counts_iff (f : Fetch) :
    f.counts ↔ (∃ q, f.outcome = .ok q) ∨ ∃ x, f.outcome = .error (.fault x) := by
  rcases f with ⟨key, since, (x | d) | q⟩ <;> simp [counts, quote?, error?]

theorem error?_eq_none_iff {f : Fetch} (counts : f.counts) :
    f.error? = none ↔ ∃ q, f.outcome = .ok q := by
  rcases (counts_iff f).mp counts with ⟨q, outcome⟩ | ⟨x, outcome⟩ <;> simp [error?, outcome]

/-- The last quote that was fetched. -/
def lastQuote (fs : List Fetch) : Option Quote := (fs.filterMap quote?).getLast?

end Fetch

/-- The fetch writes itself down. -/
def Visit.fetch (v : Visit) (log : List Fetch) : Outcome Quote × List Fetch :=
  (v.fetched, log ++ [⟨v.key, v.now, v.fetched⟩])

/-- A cache and the log of the fetches made so far, in their order. -/
structure History where
  cache : Cache Memory
  log : List Fetch

namespace History

def start : History := ⟨Cache.ofStore Memory.empty, []⟩

def visit (r : History) (v : Visit) : History :=
  let (_, _, cache, log) := r.cache.lookup v.now v.key v.ttl v.fetch r.log
  ⟨cache, log⟩

/-- The run after some lookups on an empty cache. -/
def after (visits : List Visit) : History := visits.foldl visit start

def entry (r : History) (key : String) : Option Entry := r.cache.store.get? key

/-- The fetches of a key that count. -/
def fetches (r : History) (key : String) : List Fetch := r.log.filter fun f => f.key = key && f.counts

/-- What an entry tells of the fetches of its key. -/
structure Faithful (key : String) (fs : List Fetch) (entry : Option Entry) : Prop where
  present : entry.isSome ↔ fs ≠ []
  named : ∀ e, entry = some e → e.key = key
  quote : ∀ e, entry = some e → e.quote = Fetch.lastQuote fs
  error : ∀ e, entry = some e → e.lastError = fs.getLast?.bind Fetch.error?
  dated : ∀ e q, entry = some e → e.quote = some q → e.fetchedAt = q.fetchedAt
  undated : ∀ e, entry = some e → e.quote = none →
    ∃ x, e.lastError = some x ∧ e.fetchedAt = x.failedAt

theorem faithful_nil (key : String) : Faithful key [] none := by
  constructor <;> simp

theorem faithful_kept (key : String) (ttl : Int) (since : Moment) (q : Quote) (fs : List Fetch) :
    Faithful key (fs ++ [⟨key, since, .ok q⟩]) (some (Cache.keptEntry key ttl q)) := by
  constructor
  · simp
  · simp [Cache.keptEntry]
  · simp [Cache.keptEntry, Fetch.lastQuote, Fetch.quote?]
  · simp [Cache.keptEntry, Fetch.error?]
  · intro e q' here quote
    cases here
    cases quote
    rfl
  · simp [Cache.keptEntry]

theorem faithful_failed {key : String} {fs : List Fetch} {entry : Option Entry}
    (faithful : Faithful key fs entry) (now : Moment) (ttl : Int) (f : Fault) :
    Faithful key (fs ++ [⟨key, now, .error (.fault f)⟩])
      (some (Cache.failedEntry now key ttl entry f)) := by
  have same : entry.bind (·.quote) = Fetch.lastQuote fs := by
    cases here : entry with
    | none =>
      have empty : fs = [] := by simpa [here] using faithful.present
      simp [empty, Fetch.lastQuote]
    | some e => exact faithful.quote e here
  constructor
  · simp
  · simp [Cache.failedEntry]
  · simp [Cache.failedEntry, same, Fetch.lastQuote, Fetch.quote?]
  · simp [Cache.failedEntry, Fetch.error?]
  · intro e q here quote
    cases here
    simp only [Cache.failedEntry] at quote ⊢
    obtain ⟨old, here, quote'⟩ := Option.bind_eq_some_iff.mp quote
    simp [here, quote', faithful.dated old q here quote']
  · intro e here bare
    cases here
    simp only [Cache.failedEntry] at bare ⊢
    simp [bare]

/-- What one lookup does to the entries and to the log. -/
theorem visit_cases (r : History) (v : Visit) :
    ((r.visit v).cache.store = r.cache.store ∧ (r.visit v).log = r.log) ∨
    ∃ fetch : Fetch, fetch = ⟨v.key, v.now, v.fetched⟩ ∧ (r.visit v).log = r.log ++ [fetch] ∧
      ((∃ d, v.fetched = .error (.defect d) ∧ (r.visit v).cache.store = r.cache.store) ∨
       (∃ q, v.fetched = .ok q ∧
          (r.visit v).cache.store = r.cache.store.put (Cache.keptEntry v.key v.ttl q)) ∨
       (∃ f, v.fetched = .error (.fault f) ∧
          (r.visit v).cache.store = r.cache.store.put
            (Cache.failedEntry v.now v.key v.ttl (r.entry v.key) f))) := by
  obtain ⟨answer, made, cache, passage, run⟩ :=
    Cache.passage_lookup r.cache v.now v.key v.ttl v.fetch r.log
  have ended : r.visit v = ⟨cache, if made then r.log ++ [⟨v.key, v.now, v.fetched⟩] else r.log⟩ := by
    simp only [visit, run, Visit.fetch]
  rw [ended]
  cases passage with
  | unreadable read => cases read
  | ageless read quote age => exact .inl ⟨rfl, rfl⟩
  | fresh read quote known young => exact .inl ⟨rfl, rfl⟩
  | aborted read unserved outcome => exact .inr ⟨_, rfl, rfl, .inl ⟨_, outcome, rfl⟩⟩
  | kept read unserved outcome write =>
    cases write
    exact .inr ⟨_, rfl, rfl, .inr (.inl ⟨_, outcome, rfl⟩)⟩
  | refused read unserved outcome write => cases write
  | unrecorded read unserved outcome write => cases write
  | failed read bare outcome write sound =>
    cases read
    cases write
    exact .inr ⟨_, rfl, rfl, .inr (.inr ⟨_, outcome, rfl⟩)⟩
  | @fellBack e q age f r' s read quote known old outcome write sound =>
    have held : r.entry v.key = some e := Except.ok.inj read
    cases write
    exact .inr ⟨_, rfl, rfl, .inr (.inr ⟨f, outcome, by rw [held]; rfl⟩)⟩

/-- A lookup leaves the entries of other keys as they are. -/
theorem entry_visit_of_ne (r : History) (v : Visit) {key : String} (other : v.key ≠ key) :
    (r.visit v).entry key = r.entry key := by
  rcases visit_cases r v with ⟨store, _⟩ | ⟨_, _, _, ⟨_, _, store⟩ | ⟨q, _, store⟩ | ⟨f, _, store⟩⟩
  · simp only [entry, store]
  · simp only [entry, store]
  · simp only [entry, store]
    exact Memory.get?_put_of_ne _ _ (Ne.symm other)
  · simp only [entry, store]
    exact Memory.get?_put_of_ne _ _ (Ne.symm other)

theorem faithful_visit (r : History) (v : Visit)
    (faithful : ∀ key, Faithful key (r.fetches key) (r.entry key)) (key : String) :
    Faithful key ((r.visit v).fetches key) ((r.visit v).entry key) := by
  rcases visit_cases r v with ⟨store, log⟩ | ⟨fetch, made, log, ending⟩
  · simpa only [fetches, entry, store, log] using faithful key
  · by_cases same : v.key = key
    · subst made
      rcases ending with ⟨d, outcome, store⟩ | ⟨q, outcome, store⟩ | ⟨f, outcome, store⟩
      · have skipped : (r.visit v).fetches key = r.fetches key := by
          simp [fetches, log, outcome, Fetch.counts, Fetch.quote?, Fetch.error?]
        simpa only [skipped, entry, store] using faithful key
      · have added : (r.visit v).fetches key = r.fetches key ++ [⟨key, v.now, .ok q⟩] := by
          simp [fetches, log, outcome, same, Fetch.counts, Fetch.quote?]
        have stored : (r.visit v).entry key = some (Cache.keptEntry key v.ttl q) := by
          simp only [entry, store, same]
          exact Memory.get?_put_self _ (Cache.keptEntry key v.ttl q)
        rw [added, stored]
        exact faithful_kept key v.ttl v.now q _
      · have added : (r.visit v).fetches key = r.fetches key ++ [⟨key, v.now, .error (.fault f)⟩] := by
          simp [fetches, log, outcome, same, Fetch.counts, Fetch.error?]
        have stored : (r.visit v).entry key =
            some (Cache.failedEntry v.now key v.ttl (r.entry key) f) := by
          simp only [entry, store, same]
          exact Memory.get?_put_self _ (Cache.failedEntry v.now key v.ttl (r.entry key) f)
        rw [added, stored]
        exact faithful_failed (faithful key) v.now v.ttl f
    · have unseen : (r.visit v).fetches key = r.fetches key := by
        simp [fetches, log, made, same]
      rw [unseen, entry_visit_of_ne r v same]
      exact faithful key

theorem after_snoc (visits : List Visit) (v : Visit) :
    after (visits ++ [v]) = (after visits).visit v := by simp [after]

theorem faithful_after (visits : List Visit) (key : String) :
    Faithful key ((after visits).fetches key) ((after visits).entry key) := by
  -- the last lookup is the one that may add to the log, so the run is taken apart there
  induction visits using List.reverseRecOn generalizing key with
  | nil => exact faithful_nil key
  | append_singleton visits v ih =>
    rw [after_snoc]
    exact faithful_visit (after visits) v ih key

theorem log_prefix_visit (r : History) (v : Visit) : r.log <+: (r.visit v).log := by
  rcases visit_cases r v with ⟨_, log⟩ | ⟨fetch, _, log, _⟩
  · exact ⟨[], by rw [log, List.append_nil]⟩
  · exact ⟨[fetch], log.symm⟩

theorem log_prefix_append (visits more : List Visit) :
    (after visits).log <+: (after (visits ++ more)).log := by
  induction more using List.reverseRecOn with
  | nil => simp
  | append_singleton more v ih =>
    rw [← List.append_assoc, after_snoc]
    exact ih.trans (log_prefix_visit _ v)

theorem fetches_ne_nil_iff (r : History) (key : String) :
    r.fetches key ≠ [] ↔
      ∃ f ∈ r.log, f.key = key ∧ ((∃ q, f.outcome = .ok q) ∨ ∃ x, f.outcome = .error (.fault x)) := by
  constructor
  · intro some
    obtain ⟨f, member⟩ := List.exists_mem_of_ne_nil _ some
    simp only [fetches, List.mem_filter, Bool.and_eq_true, decide_eq_true_eq] at member
    exact ⟨f, member.1, member.2.1, f.counts_iff.mp member.2.2⟩
  · rintro ⟨f, member, same, outcome⟩
    refine List.ne_nil_of_mem (a := f) ?_
    simp only [fetches, List.mem_filter, Bool.and_eq_true, decide_eq_true_eq]
    exact ⟨member, same, f.counts_iff.mpr outcome⟩

theorem entry_persists (visits more : List Visit) (key : String)
    (there : ((after visits).entry key).isSome) : ((after (visits ++ more)).entry key).isSome := by
  rw [(faithful_after visits key).present, fetches_ne_nil_iff] at there
  rw [(faithful_after (visits ++ more) key).present, fetches_ne_nil_iff]
  obtain ⟨f, member, rest⟩ := there
  exact ⟨f, (log_prefix_append visits more).subset member, rest⟩

/-- After any lookups on an empty cache, with any times and any outcomes of the fetches,
the entry of a key tells the fetches of that key that were made: it is there if one of
them counts, and stays; its quote is the last one fetched; its error is that of the last
fetch, if it failed; its time is that of the quote, or else of the error. Lookups of
other keys do not touch it. -/
theorem entry_tells_fetches (visits : List Visit) (key : String) :
    (((after visits).entry key).isSome ↔ ∃ f ∈ (after visits).log, f.key = key ∧
      ((∃ q, f.outcome = .ok q) ∨ ∃ x, f.outcome = .error (.fault x))) ∧
    (∀ more, ((after visits).entry key).isSome → ((after (visits ++ more)).entry key).isSome) ∧
    (∀ e, (after visits).entry key = some e →
      e.key = key ∧
      e.quote = Fetch.lastQuote ((after visits).fetches key) ∧
      (e.lastError = none ↔ ∃ f q, ((after visits).fetches key).getLast? = some f ∧
        f.outcome = .ok q) ∧
      (∀ f x, ((after visits).fetches key).getLast? = some f → f.outcome = .error (.fault x) →
        e.lastError = some ⟨x.text, f.since⟩) ∧
      (∀ q, e.quote = some q → e.fetchedAt = q.fetchedAt) ∧
      (e.quote = none → ∃ x, e.lastError = some x ∧ e.fetchedAt = x.failedAt)) ∧
    (∀ v : Visit, v.key ≠ key → (after (visits ++ [v])).entry key = (after visits).entry key) := by
  have faithful := faithful_after visits key
  refine ⟨?_, fun more => entry_persists visits more key, ?_, ?_⟩
  · rw [faithful.present, fetches_ne_nil_iff]
  · intro e here
    have nonempty := faithful.present.mp (by simp [here])
    have final := List.getLast?_eq_some_getLast nonempty
    have counts := (List.mem_filter.mp (List.getLast_mem nonempty)).2
    have error := faithful.error e here
    rw [final] at error ⊢
    generalize ((after visits).fetches key).getLast nonempty = last at error counts ⊢
    simp only [Bool.and_eq_true, decide_eq_true_eq, Option.bind_some] at counts error
    refine ⟨faithful.named e here, faithful.quote e here, ?_, ?_, ?_, faithful.undated e here⟩
    · rw [error, Fetch.error?_eq_none_iff counts.2]
      simp
    · intro f x isLast outcome
      cases isLast
      simp [error, Fetch.error?, outcome]
    · intro q quote
      exact faithful.dated e q here quote
  · intro v other
    rw [after_snoc]
    exact entry_visit_of_ne _ v other

end History
end QuoteDesk
