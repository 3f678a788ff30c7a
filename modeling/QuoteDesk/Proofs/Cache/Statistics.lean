import QuoteDesk.Proofs.Binary64
import QuoteDesk.Proofs.Cache.Endings
import QuoteDesk.Proofs.Cache.Turns

/-
The statistics of a cache in memory against the lookups that ended on it. Each of them is counted
in the way in which it ended, so over any run the totals are the numbers of lookups that ended in
each way, and the keys counted are those of the lookups that ended.
-/
namespace QuoteDesk

/-! Lookups that ended -/

namespace Task

def isDone (t : Task) : Bool :=
  match t.phase with
  | .done _ _ => true
  | _ => false

/-- The lookup was answered with a quote of this freshness. -/
def answeredAs (status : Freshness) (t : Task) : Bool :=
  match t.phase with
  | .done (.ok a) _ => a.status = status
  | _ => false

def raised (t : Task) : Bool :=
  match t.phase with
  | .done (.error _) _ => true
  | _ => false

/-- The lookup ended and its fetch had been made. -/
def fetched (t : Task) : Bool :=
  match t.phase with
  | .done _ made => made
  | _ => false

def fetchRaised (t : Task) : Bool := t.fetched && !t.call.fetched.isOk

/-- The lookup has not ended, or in one of the four ways. -/
def Sound (t : Task) : Prop :=
  ∀ answer made, t.phase = .done answer made → ∃ step, Cache.Ends t.call.fetched answer made step

theorem not_counted_of_not_done {t : Task} (running : t.isDone = false) :
    (∀ status, t.answeredAs status = false) ∧ t.raised = false ∧ t.fetched = false := by
  obtain ⟨call, phase⟩ := t
  cases phase with
  | done answer made => cases running
  | waiting | fetching | cancelled => exact ⟨fun _ => rfl, rfl, rfl⟩

theorem not_isDone_of_isOpen {t : Task} (isOpen : t.phase.isOpen = true) : t.isDone = false := by
  obtain ⟨call, phase⟩ := t
  cases phase with
  | waiting | fetching => rfl
  | done | cancelled => cases isOpen

end Task

namespace Crew

/-- The numbers of lookups that ended in each way. -/
def ledger (ts : List Task) : Tally :=
  { live := ts.countP (Task.answeredAs .live)
    hits := ts.countP (Task.answeredAs .fresh)
    stale := ts.countP (Task.answeredAs .stale)
    failures := ts.countP Task.fetchRaised }

def endedKeys (ts : List Task) : List String := (ts.filter Task.isDone).map (·.call.key)

theorem ledger_append (ts us : List Task) : ledger (ts ++ us) = (ledger ts).add (ledger us) := by
  simp only [ledger, List.countP_append, Tally.add]

theorem ledger_cons (t : Task) (ts : List Task) : ledger (t :: ts) = (ledger [t]).add (ledger ts) :=
  ledger_append [t] ts

theorem ledger_of_not_done {t : Task} (running : t.isDone = false) : ledger [t] = Tally.zero := by
  obtain ⟨answered, _, fetched⟩ := Task.not_counted_of_not_done running
  simp [ledger, Task.fetchRaised, answered, fetched, Tally.zero]

theorem ledger_replace {before after : List Task} {t : Task} (running : t.isDone = false) (t' : Task) :
    ledger (before ++ t' :: after) = (ledger (before ++ t :: after)).add (ledger [t']) := by
  rw [ledger_append, ledger_append, ledger_cons t', ledger_cons t, ledger_of_not_done running,
    Tally.zero_add, Tally.add_comm (ledger [t']), Tally.add_assoc]

theorem ledger_of_ends {call : Call} {answer : Outcome CachedQuote} {made : Bool}
    {step : Tally → Tally} (ends : Cache.Ends call.fetched answer made step) :
    ledger [⟨call, .done answer made⟩] = step .zero := by
  cases ends with
  | hit status => simp [ledger, Task.answeredAs, Task.fetchRaised, Task.fetched, status, Tally.hit, Tally.zero]
  | live outcome status =>
    simp [ledger, Task.answeredAs, Task.fetchRaised, outcome, status, Except.isOk, Except.toBool,
      Tally.fetched, Tally.zero]
  | stale outcome status =>
    simp [ledger, Task.answeredAs, Task.fetchRaised, Task.fetched, outcome, status, Except.isOk,
      Except.toBool, Tally.fellBack, Tally.failed, Tally.zero]
  | failed outcome =>
    simp [ledger, Task.answeredAs, Task.fetchRaised, Task.fetched, outcome, Except.isOk, Except.toBool,
      Tally.failed, Tally.zero]

theorem endedKeys_of_not_done {before after : List Task} {t : Task} (running : t.isDone = false) :
    endedKeys (before ++ t :: after) = endedKeys before ++ endedKeys after := by
  simp [endedKeys, running]

theorem endedKeys_of_done {before after : List Task} {t : Task} (done : t.isDone = true) :
    endedKeys (before ++ t :: after) = endedKeys before ++ t.call.key :: endedKeys after := by
  simp [endedKeys, done]

/-- Each of the four ways is counted once among the fetches, the failures and the lookups. -/
theorem ledger_identities {ts : List Task} (sound : ∀ t ∈ ts, t.Sound) :
    ts.countP Task.fetched = (ledger ts).live + (ledger ts).failures ∧
      (ledger ts).stale + ts.countP Task.raised = (ledger ts).failures ∧
      (ledger ts).hits + (ledger ts).live + (ledger ts).failures = ts.countP Task.isDone := by
  induction ts with
  | nil => exact ⟨rfl, rfl, rfl⟩
  | cons t ts ih =>
    obtain ⟨first, rest⟩ := List.forall_mem_cons.mp sound
    obtain ⟨fetches, failures, lookups⟩ := ih rest
    rw [ledger_cons]
    simp only [List.countP_cons, fetches, ← failures, ← lookups]
    cases done : t.isDone with
    | false =>
      obtain ⟨_, raised, fetched⟩ := Task.not_counted_of_not_done done
      rw [ledger_of_not_done done, Tally.zero_add, raised, fetched]
      simp only [Bool.false_eq_true, ↓reduceIte]
      omega
    | true =>
      obtain ⟨call, phase⟩ := t
      cases phase with
      | waiting | fetching | cancelled => cases done
      | done answer made =>
        obtain ⟨step, ends⟩ := first answer made rfl
        rw [ledger_of_ends ends]
        cases ends with
        | hit | live | stale | failed =>
          simp only [Tally.add, Tally.hit, Tally.fetched, Tally.failed, Tally.fellBack, Tally.zero,
            Function.comp, Task.fetched, Task.raised, Bool.false_eq_true, ↓reduceIte]
          omega

/-! Runs -/

/-- The counts are those of the lookups that ended, and no stored quote lacks a time. -/
structure Balanced (c : Crew Memory) : Prop where
  dated : ∀ key e, c.cache.store.get? key = some e → e.Dated
  begun : ∀ t ∈ c.tasks, ∀ since entry due, t.phase = .fetching since entry due →
    since.Aware ∧ ∀ e, entry = some e → e.Dated
  ended : ∀ t ∈ c.tasks, t.Sound
  total : c.cache.total = ledger c.tasks
  distinct : (c.cache.tallies.map (·.1)).Nodup
  keys : ∀ key, key ∈ c.cache.tallies.map (·.1) ↔ key ∈ endedKeys c.tasks

section Steps

variable {c : Crew Memory} {before after : List Task} {call : Call} {phase phase' : Phase}

theorem mem_replace {t t' u : Task} (member : u ∈ before ++ t' :: after) :
    u = t' ∨ u ∈ before ++ t :: after := by
  simp only [List.mem_append, List.mem_cons] at member ⊢
  rcases member with first | same | second
  · exact .inr (.inl first)
  · exact .inl same
  · exact .inr (.inr (.inr second))

/-- A lookup starts its fetch or is given up. -/
theorem balanced_kept (balanced : Balanced c) (tasks : c.tasks = before ++ ⟨call, phase⟩ :: after)
    (isOpen : phase.isOpen = true) (running : (⟨call, phase'⟩ : Task).isDone = false)
    (begun' : ∀ since entry due, phase' = .fetching since entry due →
      since.Aware ∧ ∀ e, entry = some e → e.Dated) :
    Balanced ⟨c.cache, before ++ ⟨call, phase'⟩ :: after⟩ := by
  obtain ⟨dated, begun, ended, total, distinct, keys⟩ := balanced
  rw [tasks] at begun ended total keys
  have idle : (⟨call, phase⟩ : Task).isDone = false := Task.not_isDone_of_isOpen isOpen
  refine ⟨dated, ?_, ?_, ?_, distinct, ?_⟩
  · intro t member since entry due fetching
    rcases mem_replace (t := ⟨call, phase⟩) member with rfl | old
    · exact begun' since entry due fetching
    · exact begun t old since entry due fetching
  · intro t member answer made done
    rcases mem_replace (t := ⟨call, phase⟩) member with rfl | old
    · subst done
      cases running
    · exact ended t old answer made done
  · dsimp only
    rw [total, ledger_replace idle ⟨call, phase'⟩, ledger_of_not_done running, Tally.add_comm,
      Tally.zero_add]
  · intro key
    rw [keys, endedKeys_of_not_done idle, endedKeys_of_not_done running]

/-- A lookup ends and is counted. -/
theorem balanced_done (balanced : Balanced c) (tasks : c.tasks = before ++ ⟨call, phase⟩ :: after)
    (isOpen : phase.isOpen = true) {answer : Outcome CachedQuote} {made : Bool}
    {step : Tally → Tally} (ends : Cache.Ends call.fetched answer made step) {store : Memory}
    (dated' : ∀ key e, store.get? key = some e → e.Dated) :
    Balanced ⟨⟨store, (c.cache.count call.key step).tallies⟩,
      before ++ ⟨call, .done answer made⟩ :: after⟩ := by
  obtain ⟨dated, begun, ended, total, distinct, keys⟩ := balanced
  rw [tasks] at begun ended total keys
  have idle : (⟨call, phase⟩ : Task).isDone = false := Task.not_isDone_of_isOpen isOpen
  refine ⟨dated', ?_, ?_, ?_, Table.nodup_map_fst_set distinct _ _, ?_⟩
  · intro t member since entry due fetching
    rcases mem_replace (t := ⟨call, phase⟩) member with rfl | old
    · cases fetching
    · exact begun t old since entry due fetching
  · intro t member answer' made' done
    rcases mem_replace (t := ⟨call, phase⟩) member with rfl | old
    · cases done
      exact ⟨step, ends⟩
    · exact ended t old answer' made' done
  · have counted := Cache.total_count c.cache call.key ends.adds
    rw [ledger_replace idle, ledger_of_ends ends, ← total]
    exact counted
  · intro key
    have done : (⟨call, .done answer made⟩ : Task).isDone = true := rfl
    simp only [Cache.count, Table.mem_map_fst_set, keys, endedKeys_of_not_done idle,
      endedKeys_of_done done, List.mem_append, List.mem_cons]
    exact or_left_comm

theorem balanced_start : Balanced ⟨Cache.ofStore Memory.empty, []⟩ := by
  refine ⟨?_, ?_, ?_, rfl, List.nodup_nil, fun key => Iff.rfl⟩
  · intro key e absurd
    cases absurd
  · intro t absurd
    cases absurd
  · intro t absurd
    cases absurd

theorem balanced_arrive (balanced : Balanced c) (call : Call) :
    Balanced ⟨c.cache, c.tasks ++ [⟨call, .waiting⟩]⟩ := by
  obtain ⟨dated, begun, ended, total, distinct, keys⟩ := balanced
  have idle : (⟨call, .waiting⟩ : Task).isDone = false := rfl
  refine ⟨dated, ?_, ?_, ?_, distinct, ?_⟩
  · intro t member since entry due fetching
    rcases List.mem_append.mp member with old | new
    · exact begun t old since entry due fetching
    · cases List.mem_singleton.mp new
      cases fetching
  · intro t member answer made done
    rcases List.mem_append.mp member with old | new
    · exact ended t old answer made done
    · cases List.mem_singleton.mp new
      cases done
  · dsimp only
    rw [total, ledger_append, ledger_of_not_done idle, Tally.add_comm, Tally.zero_add]
  · intro key
    rw [keys, endedKeys_of_not_done idle]
    simp [endedKeys]

theorem balanced_enter (balanced : Balanced c) {now : Moment} (clock : now.Aware) (tick i : Nat) :
    Balanced (c.enter now tick i) := by
  unfold enter
  split
  · rename_i call here
    obtain ⟨before, after, tasks, rfl⟩ := split_of_getElem? here
    obtain ⟨_, replaced⟩ := at_split tasks
    rcases Cache.look_ends call.key call.ttl clock (balanced.dated call.key) with
      ⟨a, status, look⟩ | look
    · rw [look]
      dsimp only
      rw [replaced]
      exact balanced_done balanced tasks rfl (.hit status) balanced.dated
    · rw [look]
      dsimp only
      rw [replaced]
      refine balanced_kept balanced tasks rfl rfl ?_
      intro since entry due same
      cases same
      exact ⟨clock, balanced.dated call.key⟩
  · exact balanced

theorem balanced_finish (balanced : Balanced c) (sound : ∀ call ∈ c.tasks.map (·.call), call.Sound)
    (i : Nat) : Balanced (c.finish i) := by
  unfold finish
  split
  · rename_i call since entry due here
    obtain ⟨before, after, tasks, rfl⟩ := split_of_getElem? here
    obtain ⟨_, replaced⟩ := at_split tasks
    have member := List.mem_of_getElem? here
    obtain ⟨clock, dated⟩ := balanced.begun _ member since entry due rfl
    obtain ⟨answer, step, e, ends, named, new, settled⟩ := Cache.settle_ends c.cache call.key
      call.ttl clock dated (sound call (List.mem_map_of_mem member))
    rw [settled]
    dsimp only
    rw [replaced]
    refine balanced_done balanced tasks rfl ends ?_
    intro key e' stored
    by_cases same : key = e.key
    · subst same
      rw [Memory.get?_put_self] at stored
      cases stored
      exact new
    · rw [Memory.get?_put_of_ne _ _ same] at stored
      exact balanced.dated key e' stored
  · exact balanced

theorem balanced_cancel (balanced : Balanced c) (i : Nat) : Balanced (c.cancel i) := by
  unfold cancel
  split
  · rename_i t here
    split
    · rename_i isOpen
      obtain ⟨before, after, tasks, rfl⟩ := split_of_getElem? here
      obtain ⟨_, replaced⟩ := at_split tasks
      rw [replaced]
      refine balanced_kept balanced tasks isOpen rfl ?_
      intro since entry due absurd
      cases absurd
    · exact balanced
  · exact balanced

/-! Calls stay as they came. -/

theorem calls_set {ts : List Task} {i : Nat} {t : Task} (here : ts[i]? = some t) (phase' : Phase) :
    (ts.set i ⟨t.call, phase'⟩).map (·.call) = ts.map (·.call) := by
  obtain ⟨before, after, tasks, rfl⟩ := split_of_getElem? here
  obtain ⟨_, replaced⟩ := at_split tasks
  rw [replaced, tasks]
  simp

theorem calls_enter (c : Crew Memory) (now : Moment) (tick i : Nat) :
    (c.enter now tick i).tasks.map (·.call) = c.tasks.map (·.call) := by
  unfold enter
  split
  · rename_i here
    split
    · exact calls_set here _
    · exact calls_set here _
    · exact calls_set here _
  · rfl

theorem calls_finish (c : Crew Memory) (i : Nat) :
    (c.finish i).tasks.map (·.call) = c.tasks.map (·.call) := by
  unfold finish
  split
  · rename_i here
    exact calls_set here _
  · rfl

theorem calls_cancel (c : Crew Memory) (i : Nat) :
    (c.cancel i).tasks.map (·.call) = c.tasks.map (·.call) := by
  unfold cancel
  split
  · rename_i here
    split
    · exact calls_set here _
    · rfl
  · rfl

end Steps

theorem balanced_of_reached {clock : Nat → Moment} (aware : ∀ i, (clock i).Aware) {c : Crew Memory}
    (reached : Reached clock (Cache.ofStore Memory.empty) c)
    (sound : ∀ call ∈ c.tasks.map (·.call), call.Sound) : Balanced c := by
  induction reached with
  | start => exact balanced_start
  | arrive call _ ih =>
    refine balanced_arrive (ih fun call' member => sound call' ?_) call
    rw [List.map_append]
    exact List.mem_append_left _ member
  | enter tick i _ _ ih =>
    rw [calls_enter] at sound
    exact balanced_enter (ih sound) (aware i) tick i
  | finish i _ ih =>
    rw [calls_finish] at sound
    exact balanced_finish (ih sound) sound i
  | cancel i _ ih =>
    rw [calls_cancel] at sound
    exact balanced_cancel (ih sound) i

end Crew

/-! The share of hits -/

theorem Tally.hitRate_nearest (t : Tally) :
    t.hitRate.Nearest (t.hits / ((t.hits + t.live + t.stale : Nat) : ℚ)) ∧
      (t.hits + t.live + t.stale = 0 → t.hitRate.value = 0) := by
  have order : t.live + t.hits + t.stale = t.hits + t.live + t.stale := by omega
  unfold hitRate
  dsimp only
  rw [order]
  split
  · rename_i none
    have nothing : (⟨false, 0, Binary64.lowestExponent⟩ : Binary64).value = 0 := by simp [Binary64.value]
    have nearest := Binary64.nearest_of_eq_some (n := 0) (d := 1) Nat.one_pos rfl
    rw [none, Nat.cast_zero, div_zero]
    rw [Nat.cast_zero, zero_div] at nearest
    exact ⟨nearest, fun _ => nothing⟩
  · rename_i some
    obtain ⟨x, found⟩ :=
      Binary64.exists_nearest_of_le (n := t.hits) (Nat.pos_of_ne_zero some) (by omega)
    rw [found, Option.getD_some]
    exact ⟨Binary64.nearest_of_eq_some (Nat.pos_of_ne_zero some) found, fun none => absurd none some⟩

namespace Crew

/-- The statistics agree with the lookups that ended. -/
structure Accounted (c : Crew Memory) : Prop where
  hits : c.cache.total.hits = c.tasks.countP (Task.answeredAs .fresh)
  live : c.cache.total.live = c.tasks.countP (Task.answeredAs .live)
  stale : c.cache.total.stale = c.tasks.countP (Task.answeredAs .stale)
  failures : c.cache.total.failures = c.tasks.countP Task.fetchRaised
  fetches : c.tasks.countP Task.fetched = c.cache.total.live + c.cache.total.failures
  fallbacks : c.cache.total.stale ≤ c.cache.total.failures
  raised : c.cache.total.failures - c.cache.total.stale = c.tasks.countP Task.raised
  lookups : c.cache.total.hits + c.cache.total.live + c.cache.total.failures =
    c.tasks.countP Task.isDone
  keys : c.cache.tallies.length = (endedKeys c.tasks).dedup.length
  closed : (∀ t ∈ c.tasks, t.isDone = true) →
    c.cache.total.hits + c.cache.total.live + c.cache.total.failures = c.tasks.length ∧
      c.cache.tallies.length = (c.tasks.map (·.call.key)).dedup.length
  rate : c.cache.total.hitRate.Nearest (c.cache.total.hits /
    ((c.cache.total.hits + c.cache.total.live + c.cache.total.stale : Nat) : ℚ))
  unrated : c.cache.total.hits + c.cache.total.live + c.cache.total.stale = 0 →
    c.cache.total.hitRate.value = 0
  bounded : 0 ≤ c.cache.total.hitRate.value ∧ c.cache.total.hitRate.value ≤ 1

/-- Over any lookups on a cache in memory that was empty at first, side by side or in a row, with
any times and with fetches that give a dated quote or a fault: the totals are the numbers of hits,
of fetched quotes, of older quotes served and of fetches that failed, every lookup that ended is
counted once among the hits, the fetched quotes and the failures, and the keys are theirs. Once all
have ended these are all the lookups. -/
theorem statistics_account {clock : Nat → Moment} (aware : ∀ i, (clock i).Aware) {c : Crew Memory}
    (reached : Reached clock (Cache.ofStore Memory.empty) c)
    (sound : ∀ call ∈ c.tasks.map (·.call), call.Sound) : Accounted c := by
  have balanced := balanced_of_reached aware reached sound
  obtain ⟨fetches, failures, lookups⟩ := ledger_identities balanced.ended
  obtain ⟨rate, unrated⟩ := c.cache.total.hitRate_nearest
  have total := balanced.total
  rw [← total] at fetches failures lookups
  have keys : c.cache.tallies.length = (endedKeys c.tasks).dedup.length := by
    have same : (c.cache.tallies.map (·.1)).Perm (endedKeys c.tasks).dedup := by
      rw [List.perm_ext_iff_of_nodup balanced.distinct (List.nodup_dedup _)]
      intro key
      rw [List.mem_dedup]
      exact balanced.keys key
    rw [← same.length_eq, List.length_map]
  refine ⟨by rw [total]; rfl, by rw [total]; rfl, by rw [total]; rfl, by rw [total]; rfl, fetches, ?_,
    ?_, lookups, keys, ?_, rate, unrated, ?_⟩
  · omega
  · omega
  · intro all
    rw [lookups, keys, endedKeys, List.filter_eq_self.mpr all]
    exact ⟨List.countP_eq_length.mpr all, rfl⟩
  · refine rate.mem_unit (by positivity) ?_
    apply div_le_one_of_le₀
    · exact_mod_cast (show c.cache.total.hits ≤ _ by omega)
    · positivity

/-! Four lookups: one fetches, one is a hit, one falls back and one fails. -/

/-- From lookup to lookup the clock moves on by two hundred seconds. -/
def strides (i : Nat) : Moment := ⟨200 * i * Moment.ticksPerSecond, some 0⟩

def parity : Outcome Quote := .ok ⟨"EUR", "USD", .ofNat 1, "frankfurter", strides 0⟩

def refusal : Outcome Quote := .error (.fault (.input (.other "refused")))

/-- One more lookup comes and ends before the next. -/
def lookedUp (c : Crew Memory) (key : String) (fetched : Outcome Quote) : Crew Memory :=
  let i := c.tasks.length
  (enter ⟨c.cache, c.tasks ++ [⟨⟨key, 300, fetched, 0⟩, .waiting⟩]⟩ (strides i) i i).finish i

def fourLookups : Crew Memory :=
  (((lookedUp ⟨Cache.ofStore .empty, []⟩ "fx-eur-usd" parity).lookedUp "fx-eur-usd" refusal).lookedUp
    "fx-eur-usd" refusal).lookedUp "fx-usd-chf" refusal

theorem reached_lookedUp {start : Cache Memory} {c : Crew Memory} (reached : Reached strides start c)
    (closed : ∀ t ∈ c.tasks, t.phase.isOpen = false) (key : String) (fetched : Outcome Quote) :
    Reached strides start (c.lookedUp key fetched) := by
  apply Reached.finish
  apply Reached.enter _ _ (reached.arrive _)
  exact ⟨c.tasks, _, [], rfl, rfl, fun t member _ => closed t member⟩

theorem four_lookups_accounted :
    (∀ i, (strides i).Aware) ∧ Reached strides (Cache.ofStore Memory.empty) fourLookups ∧
      (∀ call ∈ fourLookups.tasks.map (·.call), call.Sound) ∧
      fourLookups.cache.total = ⟨1, 1, 1, 2⟩ ∧ Accounted fourLookups := by
  have aware : ∀ i, (strides i).Aware := fun i => rfl
  have reached : Reached strides (Cache.ofStore Memory.empty) fourLookups := by
    iterate 4 refine reached_lookedUp ?_ (by decide +kernel) _ _
    exact .start
  have sound : ∀ call ∈ fourLookups.tasks.map (·.call), call.Sound := by
    have calls : fourLookups.tasks.map (·.call) =
        ⟨"fx-eur-usd", 300, parity, 0⟩ :: ["fx-eur-usd", "fx-eur-usd", "fx-usd-chf"].map fun key =>
          ⟨key, 300, refusal, 0⟩ := rfl
    rw [calls, List.forall_mem_cons, List.forall_mem_map]
    exact ⟨.inl ⟨_, rfl, rfl⟩, fun key _ => .inr ⟨_, rfl⟩⟩
  exact ⟨aware, reached, sound, rfl, statistics_account aware reached sound⟩

end Crew
end QuoteDesk
