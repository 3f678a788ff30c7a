import Mathlib.Data.List.Basic
import QuoteDesk.Expression.Gathering
import QuoteDesk.Proofs.Steps

/-
Lookups that run side by side, seen from their delays. At any time those lookups are done whose
delay has passed, and the others wait in the order of their start; so the answers are the same
whatever the delays are, and of several failures the earliest is told, which ends the waiting.
-/
namespace QuoteDesk

def Outcome.failure? {α : Type} : Outcome α → Option Failure
  | .ok _ => none
  | .error f => some f

namespace Gathering

variable {α : Type}

namespace Course

/-- How long the lookup takes; one that is refused takes no time. -/
def delay : Course α → Nat
  | .refused _ => 0
  | .ends d _ => d

def outcome : Course α → Outcome α
  | .refused f => .error f
  | .ends _ o => o

/-- It gets under way, and so it is told when it is done. -/
def runs : Course α → Bool
  | .refused _ => false
  | .ends _ _ => true

end Course

theorem runs_of_delay {c : Course α} (takes : 0 < c.delay) : c.runs = true := by
  cases c with
  | refused f => cases takes
  | ends d o => rfl

namespace Event

def started? : Event → Option (String × String)
  | .started s target => some (s, target)
  | .done _ => none

def done? : Event → Option String
  | .started _ _ => none
  | .done s => some s

end Event

section Shares

variable (course : String → Course α) (time : Nat)

/-- The answer that comes at a time. -/
def answerAt (s : String) : Option α :=
  if (course s).delay = time then (course s).outcome.toOption else none

/-- The failure that comes at a time. -/
def failureAt (s : String) : Option Failure :=
  if (course s).delay = time then (course s).outcome.failure? else none

def doneAt (s : String) : Option String :=
  if (course s).delay = time ∧ (course s).runs then some s else none

theorem mem_doneAt {symbols : List String} {s : String} :
    s ∈ symbols.filterMap (doneAt course time) ↔
      s ∈ symbols ∧ (course s).runs = true ∧ (course s).delay = time := by
  simp only [List.mem_filterMap, doneAt, Option.ite_none_right_eq_some, Option.some.injEq]
  constructor
  · rintro ⟨_, member, ⟨now, runs⟩, rfl⟩
    exact ⟨member, runs, now⟩
  · rintro ⟨member, runs, now⟩
    exact ⟨s, member, ⟨now, runs⟩, rfl⟩

/-- The lookup, if it ends at a time. -/
def readyAt (s : String) : Option (Waiting α) :=
  if (course s).delay = time then some ⟨s, (course s).delay, (course s).outcome⟩ else none

/-- The lookup, if it ends later. -/
def waitingAfter (s : String) : Option (Waiting α) :=
  if time < (course s).delay then some ⟨s, (course s).delay, (course s).outcome⟩ else none

end Shares

namespace Progress

/-- What a group of lookups adds as it ends. -/
theorem foldl_finish (ws : List (Waiting α)) (p : Progress α) :
    ws.foldl (fun p w => p.finish w.symbol w.outcome) p =
      ⟨p.events ++ ws.map fun w => .done w.symbol,
        p.answers ++ ws.filterMap fun w => w.outcome.toOption.map (w.symbol, ·),
        p.failure.or (ws.findSome? fun w => w.outcome.failure?), p.waiting⟩ := by
  induction ws generalizing p with
  | nil => simp
  | cons w ws ih =>
    obtain ⟨symbol, delay, f | a⟩ := w
    · rw [List.foldl_cons, ih]
      simp [finish, fail, Outcome.failure?, Except.toOption]
    · rw [List.foldl_cons, ih]
      simp [finish, Outcome.failure?, Except.toOption]

/-- What a lookup adds as it starts. -/
theorem start_eq (p : Progress α) (course : String → Course α) (s target : String) :
    p.start s target (course s) =
      ⟨p.events ++ .started s target :: (doneAt course 0 s).toList.map .done,
        p.answers ++ ((answerAt course 0 s).map (s, ·)).toList, p.failure.or (failureAt course 0 s),
        p.waiting ++ (waitingAfter course 0 s).toList⟩ := by
  rcases same : course s with f | ⟨d | d, f | a⟩
  all_goals
    simp [start, finish, fail, same, doneAt, answerAt, failureAt, waitingAfter, Course.delay,
      Course.outcome, Course.runs, Outcome.failure?, Except.toOption]

/-- What all lookups together add as they start. -/
theorem foldl_start (symbols : List String) (target : String) (course : String → Course α)
    (p : Progress α) :
    symbols.foldl (fun p s => p.start s target (course s)) p =
      ⟨p.events ++ symbols.flatMap fun s =>
          .started s target :: (doneAt course 0 s).toList.map .done,
        p.answers ++ symbols.filterMap fun s => (answerAt course 0 s).map (s, ·),
        p.failure.or (symbols.findSome? (failureAt course 0)),
        p.waiting ++ symbols.filterMap (waitingAfter course 0)⟩ := by
  induction symbols generalizing p with
  | nil => simp
  | cons s symbols ih =>
    rw [List.foldl_cons, ih, start_eq]
    simp only [List.flatMap_cons, List.append_assoc, Option.or_assoc, List.filterMap_cons,
      List.findSome?_cons, mk.injEq, List.cons_append]
    refine ⟨trivial, ?_, ?_, ?_⟩
    · cases answerAt course 0 s <;> rfl
    · cases failureAt course 0 s <;> simp
    · cases waitingAfter course 0 s <;> rfl

theorem nextDelay_le {p : Progress α} {w : Waiting α} (member : w ∈ p.waiting) :
    p.nextDelay ≤ w.delay := by
  have least : ∀ (ws : List (Waiting α)) (d : Nat), ws.foldl (fun d w => min d w.delay) d ≤ d ∧
      ∀ w ∈ ws, ws.foldl (fun d w => min d w.delay) d ≤ w.delay := by
    intro ws
    induction ws with
    | nil => simp
    | cons v ws ih =>
      intro d
      obtain ⟨below, all⟩ := ih (min d v.delay)
      exact ⟨Nat.le_trans below (Nat.min_le_left _ _),
        List.forall_mem_cons.mpr ⟨Nat.le_trans below (Nat.min_le_right _ _), all⟩⟩
  cases waits : p.waiting with
  | nil =>
    rw [waits] at member
    cases member
  | cons v ws =>
    rw [waits] at member
    simp only [nextDelay, waits]
    rcases List.mem_cons.mp member with rfl | member
    · exact (least ws _).1
    · exact (least ws _).2 w member

theorem exists_nextDelay {p : Progress α} (some : p.waiting ≠ []) :
    ∃ w ∈ p.waiting, w.delay = p.nextDelay := by
  have reached : ∀ (ws : List (Waiting α)) (v : Waiting α),
      ∃ w ∈ v :: ws, w.delay = ws.foldl (fun d w => min d w.delay) v.delay := by
    intro ws
    induction ws with
    | nil => exact fun v => ⟨v, by simp, rfl⟩
    | cons u ws ih =>
      intro v
      rw [List.foldl_cons]
      rcases Nat.le_total v.delay u.delay with below | above
      · obtain ⟨w, member, same⟩ := ih v
        rw [Nat.min_eq_left below]
        refine ⟨w, ?_, same⟩
        rcases List.mem_cons.mp member with rfl | member
        · simp
        · simp [member]
      · obtain ⟨w, member, same⟩ := ih u
        rw [Nat.min_eq_right above]
        exact ⟨w, List.mem_cons_of_mem v member, same⟩
  obtain ⟨v, ws, waits⟩ := List.exists_cons_of_ne_nil some
  simp only [nextDelay, waits]
  exact reached ws v

end Progress

/-! Where the lookups stand at a time -/

section By

variable {symbols : List String} {target : String} {course : String → Course α} {time next : Nat} {p : Progress α}

/-- Of the failing lookups none ends before it, and none that was started earlier ends with it. -/
structure Earliest (symbols : List String) (course : String → Course α) (s : String) (f : Failure) :
    Prop where
  fails : (course s).outcome = .error f
  least : ∀ t ∈ symbols, ∀ g, (course t).outcome = .error g → (course s).delay ≤ (course t).delay
  first : ∃ before after, symbols = before ++ s :: after ∧
    ∀ t ∈ before, ∀ g, (course t).outcome = .error g → (course s).delay < (course t).delay

/-- What has happened by a time to lookups that have all started. -/
structure By (symbols : List String) (target : String) (course : String → Course α) (time : Nat)
    (p : Progress α) : Prop where
  started : p.events.filterMap Event.started? = symbols.map (·, target)
  done : ∀ s, s ∈ p.events.filterMap Event.done? ↔
    s ∈ symbols ∧ (course s).runs = true ∧ (course s).delay ≤ time
  answers : ∀ s ∈ symbols, p.answers.lookup s =
    if (course s).delay ≤ time then (course s).outcome.toOption else none
  waiting : p.waiting = symbols.filterMap (waitingAfter course time)
  failure : (p.failure = none ∧ ∀ s ∈ symbols, ∀ f, (course s).outcome = .error f →
      time < (course s).delay) ∨
    ∃ s f, p.failure = some f ∧ Earliest symbols course s f ∧ (course s).delay = time

theorem lookup_filterMap (g : String → Option α) (l : List String) (s : String) :
    (l.filterMap fun s => (g s).map (s, ·)).lookup s = if s ∈ l then g s else none := by
  induction l with
  | nil => rfl
  | cons t l ih =>
    by_cases same : s = t
    · subst same
      cases here : g s with
      | none => simp [here, ih]
      | some a => simp [here]
    · cases here : g t with
      | none => simp [here, ih, same]
      | some a =>
        have apart : (s == t) = false := by simpa using same
        simp [here, ih, same, List.lookup_cons, apart]

/-- If no lookup has failed before a time, the first to fail at that time is the earliest of all. -/
theorem failure_cases (before : ∀ s ∈ symbols, ∀ f, (course s).outcome = .error f →
      time ≤ (course s).delay) :
    (symbols.findSome? (failureAt course time) = none ∧
      ∀ s ∈ symbols, ∀ f, (course s).outcome = .error f → time < (course s).delay) ∨
    ∃ s f, symbols.findSome? (failureAt course time) = some f ∧ Earliest symbols course s f ∧
      (course s).delay = time := by
  have apart : ∀ s ∈ symbols, failureAt course time s = none →
      ∀ f, (course s).outcome = .error f → time < (course s).delay := by
    intro s member other f fails
    have late := before s member f fails
    simp only [failureAt, fails, Outcome.failure?, ite_eq_right_iff, reduceCtorEq, imp_false] at other
    omega
  cases found : symbols.findSome? (failureAt course time) with
  | none =>
    rw [List.findSome?_eq_none_iff] at found
    exact .inl ⟨rfl, fun s member => apart s member (found s member)⟩
  | some f =>
    obtain ⟨earlier, s, later, split, here, others⟩ := List.findSome?_eq_some_iff.mp found
    unfold failureAt at here
    split at here
    · rename_i now
      rcases fails : (course s).outcome with g | a
      · rw [fails] at here
        cases here
        refine .inr ⟨s, f, rfl, ⟨fails, ?_, earlier, later, split, ?_⟩, now⟩
        · rw [now]
          exact before
        · intro t member
          rw [now]
          exact apart t (by simp [split, member]) (others t member)
      · rw [fails] at here
        cases here
    · cases here

theorem by_start (symbols : List String) (target : String) (course : String → Course α) :
    By symbols target course 0
      (symbols.foldl (fun p s => p.start s target (course s)) Progress.empty) := by
  have told : (symbols.flatMap fun s =>
        Event.started s target :: (doneAt course 0 s).toList.map .done).filterMap Event.started? =
        symbols.map (·, target) ∧
      (symbols.flatMap fun s =>
        Event.started s target :: (doneAt course 0 s).toList.map .done).filterMap Event.done? =
        symbols.filterMap (doneAt course 0) := by
    induction symbols with
    | nil => exact ⟨rfl, rfl⟩
    | cons s symbols ih =>
      obtain ⟨started, done⟩ := ih
      rw [List.flatMap_cons, List.filterMap_append, List.filterMap_append, started, done]
      cases here : doneAt course 0 s with
      | none =>
        rw [List.filterMap_cons_none here]
        exact ⟨rfl, rfl⟩
      | some t =>
        rw [List.filterMap_cons_some here]
        exact ⟨rfl, rfl⟩
  rw [Progress.foldl_start]
  simp only [Progress.empty, List.nil_append, Option.none_or]
  constructor
  · exact told.1
  · intro s
    rw [told.2, mem_doneAt, Nat.le_zero_eq]
  · intro s member
    simp only [lookup_filterMap, member, answerAt, ↓reduceIte, Nat.le_zero_eq]
  · rfl
  · exact failure_cases fun _ _ _ _ => Nat.zero_le _

/-- Of the lookups that wait, those that end next and those that end later. -/
theorem partition_waiting (late : ∀ s ∈ symbols, time < (course s).delay → next ≤ (course s).delay)
    (after : time < next) :
    (symbols.filterMap (waitingAfter course time)).partition (·.delay == next) =
      (symbols.filterMap (readyAt course next), symbols.filterMap (waitingAfter course next)) := by
  rw [List.partition_eq_filter_filter, List.filter_filterMap, List.filter_filterMap, Prod.mk.injEq]
  constructor
  · refine List.filterMap_congr fun s member => ?_
    by_cases waits : time < (course s).delay
    · by_cases now : (course s).delay = next <;> simp [waitingAfter, readyAt, waits, now]
      omega
    · have other : (course s).delay ≠ next := by omega
      simp [waitingAfter, readyAt, waits, other]
  · refine List.filterMap_congr fun s member => ?_
    by_cases waits : time < (course s).delay
    · have later := late s member waits
      by_cases now : (course s).delay = next
      · simp [waitingAfter, after, now]
      · have last : next < (course s).delay := by omega
        simp [waitingAfter, waits, now, last]
    · have early : ¬next < (course s).delay := by omega
      simp [waitingAfter, waits, early]

/-- What the lookups add that end next. -/
theorem pass_eq (waits : p.waiting = symbols.filterMap (waitingAfter course time))
    (late : ∀ s ∈ symbols, time < (course s).delay → p.nextDelay ≤ (course s).delay)
    (after : time < p.nextDelay) :
    p.pass = ⟨p.events ++ symbols.filterMap fun s => (doneAt course p.nextDelay s).map .done,
      p.answers ++ symbols.filterMap fun s => (answerAt course p.nextDelay s).map (s, ·),
      p.failure.or (symbols.findSome? (failureAt course p.nextDelay)),
      symbols.filterMap (waitingAfter course p.nextDelay)⟩ := by
  have parts := partition_waiting late after
  rw [← waits] at parts
  simp only [Progress.pass, parts]
  rw [Progress.foldl_finish, Progress.mk.injEq]
  refine ⟨?_, ?_, ?_, rfl⟩
  · rw [List.map_filterMap]
    congr 1
    refine List.filterMap_congr fun s _ => ?_
    by_cases now : (course s).delay = p.nextDelay
    · have runs : (course s).runs = true := runs_of_delay (by omega)
      simp [readyAt, doneAt, now, runs]
    · simp [readyAt, doneAt, now]
  · rw [List.filterMap_filterMap]
    congr 1
    refine List.filterMap_congr fun s _ => ?_
    by_cases now : (course s).delay = p.nextDelay <;> simp [readyAt, answerAt, now]
  · rw [← List.head?_filterMap, List.filterMap_filterMap, ← List.head?_filterMap]
    congr 2
    refine List.filterMap_congr fun s _ => ?_
    by_cases now : (course s).delay = p.nextDelay <;> simp [readyAt, failureAt, now]

/-- As time passes, the next lookups end. -/
theorem By.pass (sofar : By symbols target course time p) (unfailed : p.failure = none)
    (some : p.waiting ≠ []) :
    By symbols target course p.nextDelay p.pass ∧ p.pass.waiting.length < p.waiting.length := by
  have among : ∀ w, w ∈ p.waiting ↔ ∃ s ∈ symbols, time < (course s).delay ∧
      ⟨s, (course s).delay, (course s).outcome⟩ = w := by
    simp [sofar.waiting, waitingAfter]
  obtain ⟨w, waits, least⟩ := Progress.exists_nextDelay some
  obtain ⟨t, member, goes, rfl⟩ := (among w).mp waits
  have after : time < p.nextDelay := least ▸ goes
  have late : ∀ s ∈ symbols, time < (course s).delay → p.nextDelay ≤ (course s).delay :=
    fun s member after => Progress.nextDelay_le ((among _).mpr ⟨s, member, after, rfl⟩)
  have reached : ∀ s ∈ symbols, (course s).delay ≤ p.nextDelay ↔
      (course s).delay ≤ time ∨ (course s).delay = p.nextDelay := by
    intro s member
    have early := late s member
    omega
  rw [pass_eq sofar.waiting late after]
  refine ⟨⟨?_, ?_, ?_, rfl, ?_⟩, ?_⟩
  · rw [List.filterMap_append, sofar.started, List.filterMap_filterMap]
    simp [Event.started?, Option.bind_map]
  · intro s
    have told : (fun t => ((doneAt course p.nextDelay t).map Event.done).bind Event.done?) =
        doneAt course p.nextDelay := by
      funext t
      cases doneAt course p.nextDelay t <;> rfl
    rw [List.filterMap_append, List.mem_append, sofar.done, List.filterMap_filterMap, told,
      mem_doneAt]
    constructor
    · rintro (⟨member, runs, past⟩ | ⟨member, runs, now⟩)
      · exact ⟨member, runs, (reached s member).mpr (.inl past)⟩
      · exact ⟨member, runs, (reached s member).mpr (.inr now)⟩
    · rintro ⟨member, runs, upto⟩
      rcases (reached s member).mp upto with past | now
      · exact .inl ⟨member, runs, past⟩
      · exact .inr ⟨member, runs, now⟩
  · intro s member
    rw [List.lookup_append, sofar.answers s member, lookup_filterMap]
    simp only [member, reached s member, answerAt, ↓reduceIte]
    by_cases already : (course s).delay ≤ time
    · have apart : (course s).delay ≠ p.nextDelay := by omega
      simp [already, apart]
    · simp [already]
  · rcases sofar.failure with ⟨_, none⟩ | ⟨s, f, failed, _⟩
    · rw [unfailed, Option.none_or]
      exact failure_cases fun s member f fails => late s member (none s member f fails)
    · rw [unfailed] at failed
      cases failed
  · have parts := partition_waiting late after
    rw [← sofar.waiting, List.partition_eq_filter_filter] at parts
    obtain ⟨-, later⟩ := Prod.mk.inj parts
    rw [← later, List.length_filter_lt_length_iff_exists]
    exact ⟨_, waits, by simpa using least⟩

theorem By.settle {fuel : Nat} (sofar : By symbols target course time p) (enough : p.waiting.length ≤ fuel) :
    ∃ time', By symbols target course time' (p.settle fuel) ∧
      ((p.settle fuel).failure.isSome = true ∨ (p.settle fuel).waiting = []) := by
  induction fuel generalizing p time with
  | zero => exact ⟨time, sofar, .inr (List.eq_nil_of_length_eq_zero (Nat.le_zero.mp enough))⟩
  | succ fuel ih =>
    rw [Progress.settle]
    split
    · rename_i ended
      rw [Bool.or_eq_true, List.isEmpty_iff] at ended
      exact ⟨time, sofar, ended⟩
    · rename_i goes
      rw [Bool.or_eq_true, List.isEmpty_iff, not_or, Bool.not_eq_true, Option.isSome_eq_false_iff,
        Option.isNone_iff_eq_none] at goes
      obtain ⟨later, fewer⟩ := sofar.pass goes.1 goes.2
      exact ih later (by omega)

/-- At the end either a lookup has failed or none waits. -/
theorem by_run (symbols : List String) (target : String)
    (course : (symbol target : String) → Course α) :
    ∃ time, By symbols target (course · target) time (run symbols target course) ∧
      ((run symbols target course).failure.isSome = true ∨
        (run symbols target course).waiting = []) :=
  (by_start symbols target (course · target)).settle (Nat.le_refl _)

end By
end Gathering
end QuoteDesk
