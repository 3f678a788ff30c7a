import QuoteDesk.Cache.Crew
import QuoteDesk.Proofs.Cache.Serial

/-
Lookups side by side on a cache in memory, in any order that their turns allow: whoever
may enter need not enter at once, fetches end in any order, and any lookup may be given
up at any time. What they come to is what the lookups of each key come to one after the
other, in the order in which they came.
-/
namespace QuoteDesk

namespace Phase

def isFetching : Phase → Bool
  | .fetching _ _ _ => true
  | _ => false

/-- Whether the lookup has had its turn. -/
def hasBegun : Phase → Bool
  | .fetching _ _ _ | .done _ _ => true
  | _ => false

theorem isFetching_eq (p : Phase) : p.isFetching = (p.isOpen && p.hasBegun) := by
  cases p <;> rfl

end Phase

namespace Task

/-- A finished lookup of a key as one that starts at `now`, with its answer. -/
def account (t : Task) (key : String) (now : Moment) : List (Visit × Outcome CachedQuote × Bool) :=
  match t.phase with
  | .done answer fetched =>
    if t.call.key = key then [(⟨key, t.call.ttl, now, t.call.fetched⟩, answer, fetched)] else []
  | _ => []

/-- The second had no turn while the first one, of the same key, was open. -/
def Precedes (t u : Task) : Prop :=
  t.call.key = u.call.key → u.phase.hasBegun = true → t.phase.isOpen = false

theorem account_of_isOpen {t : Task} (isOpen : t.phase.isOpen = true) (key : String) (now : Moment) :
    t.account key now = [] := by
  obtain ⟨call, phase⟩ := t
  cases phase with
  | waiting | fetching => rfl
  | done | cancelled => cases isOpen

theorem account_of_other {t : Task} {key : String} (other : t.call.key ≠ key) (now : Moment) :
    t.account key now = [] := by
  obtain ⟨call, phase⟩ := t
  cases phase with
  | done => exact if_neg other
  | waiting | fetching | cancelled => rfl

theorem account_of_not_begun {t : Task} (idle : t.phase.hasBegun = false) (key : String)
    (now : Moment) : t.account key now = [] := by
  obtain ⟨call, phase⟩ := t
  cases phase with
  | fetching | done => cases idle
  | waiting | cancelled => rfl

end Task

namespace Crew

/-- It is the turn of lookup `i`: it waits, and no earlier one of its key is open. -/
def Turn (ts : List Task) (i : Nat) : Prop :=
  ∃ before call after, ts = before ++ ⟨call, .waiting⟩ :: after ∧ before.length = i ∧
    ∀ t ∈ before, t.call.key = call.key → t.phase.isOpen = false

/-- What can become of a cache on which lookups arrive, enter in their turns, end and are
given up in any order. The clock shows `clock i` when the lookup `i` enters. -/
inductive Reached (clock : Nat → Moment) (start : Cache Memory) : Crew Memory → Prop where
  | start : Reached clock start ⟨start, []⟩
  | arrive {c : Crew Memory} (call : Call) (before : Reached clock start c) :
      Reached clock start ⟨c.cache, c.tasks ++ [⟨call, .waiting⟩]⟩
  | enter {c : Crew Memory} (tick i : Nat) (before : Reached clock start c)
      (turn : Turn c.tasks i) : Reached clock start (c.enter (clock i) tick i)
  | finish {c : Crew Memory} (i : Nat) (before : Reached clock start c) :
      Reached clock start (c.finish i)
  | cancel {c : Crew Memory} (i : Nat) (before : Reached clock start c) :
      Reached clock start (c.cancel i)

/-- The finished lookups of a key in the order in which they came, the first task having
the number `i`. -/
def accounts (clock : Nat → Moment) (key : String) : (i : Nat) → List Task →
    List (Visit × Outcome CachedQuote × Bool)
  | _, [] => []
  | i, t :: ts => t.account key (clock i) ++ accounts clock key (i + 1) ts

/-- Lookups one after the other have these answers and leave the same of their key. -/
structure Serial (start cache : Cache Memory) (key : String)
    (done : List (Visit × Outcome CachedQuote × Bool)) : Prop where
  answers : (start.serve (done.map (·.1))).1 = done.map (·.2)
  left : Cache.Alike key (start.serve (done.map (·.1))).2 cache

section Accounts

variable {clock : Nat → Moment} {key : String}

theorem accounts_append (i : Nat) (ts us : List Task) :
    accounts clock key i (ts ++ us) =
      accounts clock key i ts ++ accounts clock key (i + ts.length) us := by
  induction ts generalizing i with
  | nil => rfl
  | cons t ts ih =>
    simp only [List.cons_append, accounts, ih, List.append_assoc, List.length_cons,
      Nat.add_assoc, Nat.add_comm 1]

theorem accounts_eq_nil {ts : List Task} (none : ∀ t ∈ ts, ∀ now, t.account key now = []) (i : Nat) :
    accounts clock key i ts = [] := by
  induction ts generalizing i with
  | nil => rfl
  | cons t ts ih =>
    rw [accounts, none t (by simp), List.nil_append]
    exact ih (fun u member => none u (List.mem_cons_of_mem t member)) (i + 1)

theorem key_of_mem_accounts {ts : List Task} {i : Nat} {p : Visit × Outcome CachedQuote × Bool}
    (member : p ∈ accounts clock key i ts) : ∃ t ∈ ts, ∃ j, p ∈ t.account key (clock j) := by
  induction ts generalizing i with
  | nil => cases member
  | cons t ts ih =>
    rcases List.mem_append.mp member with here | later
    · exact ⟨t, by simp, i, here⟩
    · obtain ⟨u, inside, j, here⟩ := ih later
      exact ⟨u, List.mem_cons_of_mem t inside, j, here⟩

theorem mem_accounts {ts : List Task} {call : Call} {answer : Outcome CachedQuote} {made : Bool}
    (member : ⟨call, .done answer made⟩ ∈ ts) (i : Nat) :
    ∃ j, (⟨call.key, call.ttl, clock j, call.fetched⟩, answer, made) ∈
      accounts clock call.key i ts := by
  induction ts generalizing i with
  | nil => cases member
  | cons t ts ih =>
    rcases List.mem_cons.mp member with rfl | later
    · exact ⟨i, List.mem_append_left _ (by simp [Task.account])⟩
    · obtain ⟨j, inside⟩ := ih later (i + 1)
      exact ⟨j, List.mem_append_right _ inside⟩

theorem Serial.snoc {start cache cache' : Cache Memory} {v : Visit} {answer : Outcome CachedQuote}
    {made : Bool} {done : List (Visit × Outcome CachedQuote × Bool)}
    (serial : Serial start cache v.key done) (attended : cache.attend v = ((answer, made), cache')) :
    Serial start cache' v.key (done ++ [(v, answer, made)]) := by
  obtain ⟨same, left⟩ := Cache.attend_alike serial.left
  rw [attended] at same left
  constructor
  · rw [List.map_append, List.map_append, List.map_singleton, List.map_singleton, Cache.serve_snoc,
      serial.answers, same]
  · rw [List.map_append, List.map_singleton, Cache.serve_snoc]
    exact left

end Accounts

/-! Turns -/

/-- Turns are kept: begun lookups have no open one of their key before them, a fetch runs on
what the cache still holds, and the finished lookups of each key went one after the other. -/
structure Orderly (clock : Nat → Moment) (start : Cache Memory) (c : Crew Memory) : Prop where
  ordered : c.tasks.Pairwise Task.Precedes
  current : ∀ i call since entry due, c.tasks[i]? = some ⟨call, .fetching since entry due⟩ →
    since = clock i ∧ (c.cache.look since call.key call.ttl).1 = .ok (.missing entry)
  serial : ∀ key, Serial start c.cache key (accounts clock key 0 c.tasks)

section Steps

variable {clock : Nat → Moment} {start : Cache Memory} {c : Crew Memory}

theorem split_of_getElem? {ts : List Task} {i : Nat} {t : Task} (here : ts[i]? = some t) :
    ∃ before after, ts = before ++ t :: after ∧ before.length = i := by
  obtain ⟨inside, rfl⟩ := List.getElem?_eq_some_iff.mp here
  obtain ⟨before, after, split, length, _⟩ := @List.exists_of_set _ i ts[i] ts inside
  exact ⟨before, after, split, length⟩

theorem at_split {ts before after : List Task} {t : Task} (split : ts = before ++ t :: after) :
    ts[before.length]? = some t ∧ ∀ t', ts.set before.length t' = before ++ t' :: after := by
  subst split
  simp

theorem getElem?_replace {before after : List Task} {t t' u : Task} {i : Nat}
    (here : (before ++ t' :: after)[i]? = some u) :
    u = t' ∧ i = before.length ∨
      u ∈ before ++ after ∧ (before ++ t :: after)[i]? = some u := by
  rcases Nat.lt_trichotomy i before.length with first | rfl | second
  · rw [List.getElem?_append_left first] at here ⊢
    exact .inr ⟨List.mem_append_left _ (List.mem_of_getElem? here), here⟩
  · rw [List.getElem?_append_right (Nat.le_refl _), Nat.sub_self] at here
    exact .inl ⟨(Option.some.inj here).symm, rfl⟩
  · obtain ⟨k, rfl⟩ := Nat.exists_eq_add_of_lt second
    have later : before.length ≤ before.length + k + 1 := by omega
    have behind : before.length + k + 1 - before.length = k + 1 := by omega
    rw [List.getElem?_append_right later, behind, List.getElem?_cons_succ] at here ⊢
    exact .inr ⟨List.mem_append_right _ (List.mem_of_getElem? here), here⟩

theorem ordered_replace {before after : List Task} {t t' : Task}
    (ordered : (before ++ t :: after).Pairwise Task.Precedes) (same : t'.call = t.call)
    (isOpen : t.phase.isOpen = true)
    (leads : t'.phase.hasBegun = true →
      ∀ s ∈ before, s.call.key = t.call.key → s.phase.isOpen = false) :
    (before ++ t' :: after).Pairwise Task.Precedes := by
  rw [List.pairwise_append, List.pairwise_cons] at ordered ⊢
  obtain ⟨early, ⟨late, rest⟩, across⟩ := ordered
  refine ⟨early, ⟨?_, rest⟩, ?_⟩
  · intro u member key begun
    rw [same] at key
    rw [late u member key begun] at isOpen
    cases isOpen
  · intro s first u second
    rcases List.mem_cons.mp second with rfl | second
    · intro key begun
      rw [same] at key
      exact leads begun s first key
    · exact across s first u (List.mem_cons_of_mem t second)

/-- An open lookup that leads its key: no other of the key is fetching, and no later one
has been finished. -/
theorem alone {before after : List Task} {t : Task}
    (ordered : (before ++ t :: after).Pairwise Task.Precedes) (isOpen : t.phase.isOpen = true)
    (leads : ∀ s ∈ before, s.call.key = t.call.key → s.phase.isOpen = false) :
    (∀ u ∈ before ++ after, u.call.key = t.call.key → u.phase.isFetching = false) ∧
    ∀ u ∈ after, u.call.key = t.call.key → u.phase.hasBegun = false := by
  rw [List.pairwise_append, List.pairwise_cons] at ordered
  obtain ⟨_, ⟨late, _⟩, _⟩ := ordered
  have idle : ∀ u ∈ after, u.call.key = t.call.key → u.phase.hasBegun = false := by
    intro u member key
    cases begun : u.phase.hasBegun with
    | false => rfl
    | true =>
      rw [late u member key.symm begun] at isOpen
      cases isOpen
  refine ⟨?_, idle⟩
  intro u member key
  rw [Phase.isFetching_eq]
  rcases List.mem_append.mp member with first | second
  · rw [leads u first key, Bool.false_and]
  · rw [idle u second key, Bool.and_false]

theorem leads_of_begun {before after : List Task} {t : Task}
    (ordered : (before ++ t :: after).Pairwise Task.Precedes) (begun : t.phase.hasBegun = true) :
    ∀ s ∈ before, s.call.key = t.call.key → s.phase.isOpen = false := by
  intro s member key
  rw [List.pairwise_append] at ordered
  obtain ⟨_, _, across⟩ := ordered
  exact across s member t (by simp) key begun

theorem accounts_replace {before after : List Task} {t t' : Task} {key : String}
    (isOpen : t.phase.isOpen = true) (none : ∀ now, t'.account key now = []) :
    accounts clock key 0 (before ++ t' :: after) = accounts clock key 0 (before ++ t :: after) := by
  simp only [accounts_append, accounts, none, Task.account_of_isOpen isOpen]

/-- A lookup that leads its key is finished: it comes after all of its key that were. -/
theorem orderly_done {before after : List Task} {call : Call} {phase : Phase}
    (orderly : Orderly clock start c) (tasks : c.tasks = before ++ ⟨call, phase⟩ :: after)
    (isOpen : phase.isOpen = true)
    (leads : ∀ s ∈ before, s.call.key = call.key → s.phase.isOpen = false)
    {answer : Outcome CachedQuote} {made : Bool} {cache : Cache Memory}
    (attended : c.cache.attend ⟨call.key, call.ttl, clock before.length, call.fetched⟩ =
      ((answer, made), cache))
    (others : ∀ key ≠ call.key, Cache.Alike key cache c.cache) :
    Orderly clock start ⟨cache, before ++ ⟨call, .done answer made⟩ :: after⟩ := by
  obtain ⟨ordered, current, serial⟩ := orderly
  rw [tasks] at ordered
  obtain ⟨unshared, idle⟩ := alone ordered isOpen leads
  refine ⟨ordered_replace ordered rfl isOpen fun _ => leads, ?_, ?_⟩
  · intro i call' since entry due here
    -- a running fetch is one of another key, whose entry is untouched
    rcases getElem?_replace (t := ⟨call, phase⟩) here with ⟨absurd, _⟩ | ⟨member, here⟩
    · cases absurd
    · have apart : call'.key ≠ call.key := by
        intro key
        have idle := unshared _ member key
        cases idle
      obtain ⟨dated, missing⟩ := current i call' since entry due (tasks ▸ here)
      exact ⟨dated, (Cache.look_alike (others call'.key apart) since call'.ttl).1.trans missing⟩
  · intro key
    by_cases same : call.key = key
    · subst same
      -- no later lookup of the key has ended, so this account comes last
      have behind : ∀ i, accounts clock call.key i after = [] := by
        apply accounts_eq_nil
        intro u member now
        by_cases key : u.call.key = call.key
        · exact Task.account_of_not_begun (idle u member key) _ now
        · exact Task.account_of_other key now
      have earlier : accounts clock call.key 0 c.tasks = accounts clock call.key 0 before := by
        rw [tasks, accounts_append, accounts, Task.account_of_isOpen isOpen, behind,
          List.nil_append, List.append_nil]
      have added : accounts clock call.key 0 (before ++ ⟨call, .done answer made⟩ :: after) =
          accounts clock call.key 0 before ++
            [(⟨call.key, call.ttl, clock before.length, call.fetched⟩, answer, made)] := by
        rw [accounts_append, accounts, behind, List.append_nil, Nat.zero_add]
        simp [Task.account]
      have old := serial call.key
      rw [earlier] at old
      rw [added]
      exact old.snoc attended
    · have kept : accounts clock key 0 (before ++ ⟨call, .done answer made⟩ :: after) =
          accounts clock key 0 (before ++ ⟨call, phase⟩ :: after) :=
        accounts_replace isOpen fun now => Task.account_of_other same now
      have old := serial key
      rw [tasks] at old
      rw [kept]
      exact ⟨old.answers, old.left.trans (others key (Ne.symm same)).symm⟩

/-- A lookup stays open or is given up, and the cache stays as it is. -/
theorem orderly_kept {before after : List Task} {call : Call} {phase phase' : Phase}
    (orderly : Orderly clock start c) (tasks : c.tasks = before ++ ⟨call, phase⟩ :: after)
    (isOpen : phase.isOpen = true)
    (leads : phase'.hasBegun = true →
      ∀ s ∈ before, s.call.key = call.key → s.phase.isOpen = false)
    (unfinished : ∀ answer made, phase' ≠ .done answer made)
    (current' : ∀ since entry due, phase' = .fetching since entry due →
      since = clock before.length ∧
        (c.cache.look since call.key call.ttl).1 = .ok (.missing entry)) :
    Orderly clock start ⟨c.cache, before ++ ⟨call, phase'⟩ :: after⟩ := by
  obtain ⟨ordered, current, serial⟩ := orderly
  rw [tasks] at ordered
  refine ⟨ordered_replace ordered rfl isOpen leads, ?_, ?_⟩
  · intro i call' since entry due here
    rcases getElem?_replace (t := ⟨call, phase⟩) here with ⟨same, rfl⟩ | ⟨_, here⟩
    · cases same
      exact current' since entry due rfl
    · exact current i call' since entry due (tasks ▸ here)
  · intro key
    have none : ∀ now, Task.account ⟨call, phase'⟩ key now = [] := by
      intro now
      cases phase' with
      | done answer made => exact absurd rfl (unfinished answer made)
      | waiting | fetching | cancelled => rfl
    have old := serial key
    rw [tasks] at old
    rw [accounts_replace (t := ⟨call, phase⟩) isOpen none]
    exact old

theorem orderly_start : Orderly clock start ⟨start, []⟩ := by
  refine ⟨List.Pairwise.nil, ?_, fun key => ⟨rfl, .refl key start⟩⟩
  intro i call since entry due here
  cases here

theorem orderly_arrive (orderly : Orderly clock start c) (call : Call) :
    Orderly clock start ⟨c.cache, c.tasks ++ [⟨call, .waiting⟩]⟩ := by
  obtain ⟨ordered, current, serial⟩ := orderly
  refine ⟨?_, ?_, ?_⟩
  · rw [List.pairwise_append]
    refine ⟨ordered, List.pairwise_singleton _ _, ?_⟩
    intro t _ u new _ begun
    obtain rfl := List.mem_singleton.mp new
    cases begun
  · intro i call' since entry due here
    apply current i call' since entry due
    rw [List.getElem?_append] at here
    split at here
    · exact here
    · have new := List.mem_of_getElem? here
      cases List.mem_singleton.mp new
  · intro key
    have none : accounts clock key (0 + c.tasks.length) [⟨call, .waiting⟩] = [] := rfl
    rw [accounts_append, none, List.append_nil]
    exact serial key

theorem orderly_enter (orderly : Orderly clock start c) (tick : Nat) {i : Nat}
    (turn : Turn c.tasks i) : Orderly clock start (c.enter (clock i) tick i) := by
  obtain ⟨before, call, after, tasks, rfl, leads⟩ := turn
  obtain ⟨here, replaced⟩ := at_split tasks
  have others : ∀ key ≠ call.key,
      Cache.Alike key (c.cache.look (clock before.length) call.key call.ttl).2 c.cache :=
    fun key apart => Cache.look_other c.cache _ _ apart
  obtain ⟨failed, answered, _⟩ := Cache.attend_of_look (c := c.cache)
    (v := ⟨call.key, call.ttl, clock before.length, call.fetched⟩)
  unfold enter
  rw [here]
  dsimp only
  generalize look : c.cache.look (clock before.length) call.key call.ttl = first
    at others failed answered
  obtain ⟨found, cache⟩ := first
  cases found with
  | error f =>
    dsimp only
    rw [replaced]
    exact orderly_done orderly tasks rfl leads (failed f rfl) others
  | ok l =>
    cases l with
    | answered a =>
      dsimp only
      rw [replaced]
      exact orderly_done orderly tasks rfl leads (answered a rfl) others
    | missing entry =>
      have missing : (c.cache.look (clock before.length) call.key call.ttl).1 = .ok (.missing entry) := by
        rw [look]
      -- a miss is not counted
      have still : cache = c.cache := by
        have kept := Cache.look_missing missing
        rw [look] at kept
        exact kept
      subst still
      dsimp only
      rw [replaced]
      refine orderly_kept orderly tasks rfl (fun _ => leads) (fun _ _ absurd => by cases absurd) ?_
      rintro since entry' due ⟨⟩
      exact ⟨rfl, missing⟩

theorem orderly_finish (orderly : Orderly clock start c) (i : Nat) :
    Orderly clock start (c.finish i) := by
  unfold finish
  split
  · rename_i call since entry due here
    obtain ⟨before, after, tasks, rfl⟩ := split_of_getElem? here
    obtain ⟨_, replaced⟩ := at_split tasks
    -- a look at the time of entering would miss now as well, so look and settling are one visit
    obtain ⟨rfl, missing⟩ := orderly.current _ call since entry due here
    have leads := leads_of_begun (tasks ▸ orderly.ordered) rfl
    obtain ⟨_, _, settled⟩ := Cache.attend_of_look (c := c.cache)
      (v := ⟨call.key, call.ttl, clock before.length, call.fetched⟩)
    dsimp only
    rw [replaced]
    exact orderly_done orderly tasks rfl leads (settled entry missing)
      fun key apart => Cache.settle_other c.cache _ _ _ _ apart
  · exact orderly

theorem orderly_cancel (orderly : Orderly clock start c) (i : Nat) :
    Orderly clock start (c.cancel i) := by
  unfold cancel
  split
  · rename_i t here
    split
    · rename_i isOpen
      obtain ⟨before, after, tasks, rfl⟩ := split_of_getElem? here
      obtain ⟨_, replaced⟩ := at_split tasks
      rw [replaced]
      refine orderly_kept orderly tasks isOpen (fun absurd => by cases absurd)
        (fun _ _ absurd => by cases absurd) (fun _ _ _ absurd => by cases absurd)
    · exact orderly
  · exact orderly

theorem orderly_of_reached (reached : Reached clock start c) : Orderly clock start c := by
  induction reached with
  | start => exact orderly_start
  | arrive call _ ih => exact orderly_arrive ih call
  | enter tick i _ turn ih => exact orderly_enter ih tick turn
  | finish i _ ih => exact orderly_finish ih i
  | cancel i _ ih => exact orderly_cancel ih i

end Steps

end Crew
end QuoteDesk
