import QuoteDesk.Proofs.Expression.Timing

/-
An evaluation whose prices are looked up side by side. Each symbol is looked up once, in the order
of first mention; the evaluation does not depend on the delays when all prices come, and when some
do not it ends with the earliest failure, with all longer lookups cancelled.
-/
namespace QuoteDesk
namespace Gathering

variable {α : Type} {symbols : List String} {target : String}
  {course : (symbol target : String) → Course α}

theorem Earliest.mem {course : String → Course α} {s : String} {f : Failure}
    (earliest : Earliest symbols course s f) : s ∈ symbols := by
  obtain ⟨before, after, split, _⟩ := earliest.first
  simp [split]

theorem mem_filterMap_done {events : List Event} {s : String} :
    s ∈ events.filterMap Event.done? ↔ Event.done s ∈ events := by
  rw [List.mem_filterMap]
  constructor
  · rintro ⟨_ | t, member, told⟩
    · cases told
    · cases told
      exact member
  · exact fun member => ⟨_, member, rfl⟩

/-- Without a failure all lookups are waited for, and the answers are in the order of the symbols. -/
theorem run_answers_all {price : String → α}
    (answered : ∀ s ∈ symbols, (course s target).outcome = .ok (price s)) :
    (run symbols target course).result symbols = .ok (symbols.map price) ∧
      (run symbols target course).cancelled = [] := by
  obtain ⟨time, sofar, ended⟩ := by_run symbols target course
  generalize run symbols target course = p at sofar ended
  rcases sofar.failure with ⟨none, _⟩ | ⟨s, f, _, earliest, _⟩
  · have idle : p.waiting = [] := by simpa [none] using ended
    have past : ∀ s ∈ symbols, (course s target).delay ≤ time := by
      have waits := sofar.waiting
      rw [idle, eq_comm, List.filterMap_eq_nil_iff] at waits
      intro s member
      simpa [waitingAfter] using waits s member
    refine ⟨?_, by simp [Progress.cancelled, idle]⟩
    simp only [Progress.result, none]
    rw [← List.filterMap_eq_map]
    congr 1
    refine List.filterMap_congr fun s member => ?_
    rw [sofar.answers s member, if_pos (past s member), answered s member]
    rfl
  · have fails := earliest.fails
    rw [answered s earliest.mem] at fails
    cases fails

/-- The earliest failure is told; by then those lookups are done that do not take longer, and the
others are cancelled. -/
theorem run_fails_early {t : String} {g : Failure} (member : t ∈ symbols)
    (failing : (course t target).outcome = .error g) :
    ∃ s f, Earliest symbols (course · target) s f ∧
      (run symbols target course).result symbols = .error f ∧
      (run symbols target course).cancelled =
        symbols.filter (fun u => (course s target).delay < (course u target).delay) ∧
      ∀ u ∈ symbols, Event.done u ∈ (run symbols target course).events ↔
        (course u target).runs = true ∧ (course u target).delay ≤ (course s target).delay := by
  obtain ⟨time, sofar, ended⟩ := by_run symbols target course
  generalize run symbols target course = p at sofar ended
  rcases sofar.failure with ⟨none, unfailed⟩ | ⟨s, f, failed, earliest, now⟩
  · -- the failing lookup would still wait
    have idle : p.waiting = [] := by simpa [none] using ended
    have waits := sofar.waiting
    rw [idle, eq_comm, List.filterMap_eq_nil_iff] at waits
    have late := unfailed t member g failing
    simpa [waitingAfter, late] using waits t member
  · subst now
    refine ⟨s, f, earliest, by simp [Progress.result, failed], ?_, ?_⟩
    · rw [Progress.cancelled, sofar.waiting, List.map_filterMap, ← List.filterMap_eq_filter]
      refine List.filterMap_congr fun u _ => ?_
      by_cases late : (course s target).delay < (course u target).delay <;>
        simp [waitingAfter, late, Option.guard]
    · intro u member
      rw [← mem_filterMap_done, sofar.done]
      exact and_iff_right member

end Gathering

namespace Expression

open Gathering

/-- The names, each once and in the order of first mention. -/
structure FirstSeen (symbols names : List String) : Prop where
  once : symbols.Nodup
  all : ∀ s, s ∈ symbols ↔ s ∈ names
  order : symbols.Pairwise fun s t => names.idxOf s < names.idxOf t

theorem firstSeen_distinct (names : List String) : FirstSeen (distinct names) names := by
  refine ⟨nodup_distinct names, fun s => mem_distinct s names, ?_⟩
  induction names with
  | nil => exact List.Pairwise.nil
  | cons a names ih =>
    have later : ∀ s, s ≠ a → (a :: names).idxOf s = names.idxOf s + 1 := by
      intro s apart
      rw [List.idxOf_cons_ne _ (Ne.symm apart)]
    rw [distinct, List.pairwise_cons]
    constructor
    · intro t member
      have apart : t ≠ a := by simpa using (List.mem_filter.mp member).2
      rw [later t apart, List.idxOf_cons_self]
      exact Nat.succ_pos _
    · refine (ih.filter _).imp_of_mem fun {s t} first second before => ?_
      have apart : s ≠ a := by simpa using (List.mem_filter.mp first).2
      have apart' : t ≠ a := by simpa using (List.mem_filter.mp second).2
      rw [later s apart, later t apart']
      exact Nat.succ_lt_succ before

variable {e : Expression} {course : (symbol target : String) → Course CachedQuote}

theorem gather_portfolio (portfolio : e.mode = .ok .asset) :
    e.gather course =
      ((run e.symbols e.target course).result e.symbols >>= e.withPrices,
        run e.symbols e.target course) := by
  simp only [gather, plan, portfolio]

/-- An expression that is no portfolio is evaluated, or refused, without any price. -/
theorem gather_bare (bare : e.mode ≠ .ok .asset) :
    (e.gather course).2 = .empty ∧ ∀ other, e.gather other = e.gather course := by
  cases mode : e.mode with
  | error fault => simp [gather, plan, mode]
  | ok m =>
    cases m with
    | asset => exact absurd mode bare
    | numeric =>
      cases total : numericTotal (e.terms.map (·.value)) e.operators <;>
        simp [gather, plan, mode, total, bind, Except.bind, pure, Except.pure]

theorem withPrices_map (e : Expression) (price : String → CachedQuote) :
    e.withPrices (e.symbols.map price) =
      (assetTotal e.terms e.operators (e.symbols.map fun s => (s, price s))).map fun total =>
        ⟨.asset, total, e.target, e.terms, e.operators, e.symbols.map fun s => (s, price s)⟩ := by
  have paired : e.symbols.zip (e.symbols.map price) = e.symbols.map fun s => (s, price s) := by
    have both : (e.symbols.map id).zip (e.symbols.map price) = _ := List.zip_map'
    rwa [List.map_id] at both
  simp only [withPrices, paired]
  cases assetTotal e.terms e.operators (e.symbols.map fun s => (s, price s)) <;> rfl

theorem evaluate_portfolio (portfolio : e.mode = .ok .asset) (price : String → CachedQuote) :
    e.evaluate (fun symbols => .ok (symbols.map price)) =
      (assetTotal e.terms e.operators (e.symbols.map fun s => (s, price s))).map fun total =>
        ⟨.asset, total, e.target, e.terms, e.operators, e.symbols.map fun s => (s, price s)⟩ := by
  rw [← withPrices_map]
  simp only [evaluate, plan, portfolio]
  rfl

/-- The course of an evaluation of amounts of assets, whatever the lookups give and however long
they take; without such amounts no lookup is made. -/
theorem evaluation_ignores_timing (e : Expression)
    (course : (symbol target : String) → Course CachedQuote) :
    (e.mode = .ok .asset →
      (FirstSeen e.symbols (e.terms.filterMap (·.symbol?)) ∧
        (e.gather course).2.events.filterMap Event.started? = e.symbols.map (·, e.target)) ∧
      (∀ price : String → CachedQuote,
        (∀ s ∈ e.symbols, (course s e.target).outcome = .ok (price s)) →
        (e.gather course).1 =
            (assetTotal e.terms e.operators (e.symbols.map fun s => (s, price s))).map (fun total =>
              ⟨.asset, total, e.target, e.terms, e.operators,
                e.symbols.map fun s => (s, price s)⟩) ∧
          (e.gather course).2.cancelled = []) ∧
      (∀ t ∈ e.symbols, ∀ g, (course t e.target).outcome = .error g →
        ∃ s f, Earliest e.symbols (course · e.target) s f ∧ (e.gather course).1 = .error f ∧
          (e.gather course).2.cancelled = e.symbols.filter (fun u =>
            (course s e.target).delay < (course u e.target).delay) ∧
          ∀ u ∈ e.symbols, Event.done u ∈ (e.gather course).2.events ↔
            (course u e.target).runs = true ∧
              (course u e.target).delay ≤ (course s e.target).delay)) ∧
    (e.mode ≠ .ok .asset →
      (e.gather course).2 = .empty ∧ ∀ other, e.gather other = e.gather course) := by
  refine ⟨fun portfolio => ?_, gather_bare⟩
  rw [gather_portfolio portfolio]
  refine ⟨⟨firstSeen_distinct _, ?_⟩, ?_, ?_⟩
  · obtain ⟨time, sofar, _⟩ := by_run e.symbols e.target course
    exact sofar.started
  · intro price answered
    obtain ⟨answers, none⟩ := run_answers_all answered
    refine ⟨?_, none⟩
    simp only [answers]
    exact withPrices_map e price
  · intro t member g failing
    obtain ⟨s, f, earliest, told, cancelled, done⟩ := run_fails_early member failing
    refine ⟨s, f, earliest, ?_, cancelled, done⟩
    simp only [told]
    rfl

/-- Three amounts of two assets. -/
def threeAmounts : Expression :=
  ⟨[.asset (.ofNat 1) "BTC", .asset (.ofNat 2) "ETH", .asset (.ofNat 3) "BTC"], [.plus, .minus], "USD", false⟩

/-- The first lookup fails while the second still waits. -/
def failingFirst (symbol _target : String) : Course CachedQuote :=
  if symbol = "BTC" then .ends 5 (.error (.fault (.evaluation "no price"))) else
    .ends 9 (.error (.fault (.evaluation "no answer")))

theorem slower_lookup_cancelled :
    threeAmounts.mode = .ok .asset ∧ "BTC" ∈ threeAmounts.symbols ∧
      (failingFirst "BTC" "USD").outcome = .error (.fault (.evaluation "no price")) ∧
      (threeAmounts.gather failingFirst).1 = .error (.fault (.evaluation "no price")) ∧
      (threeAmounts.gather failingFirst).2.cancelled = ["ETH"] := by
  have portfolio : threeAmounts.mode = .ok .asset := rfl
  have symbols : threeAmounts.symbols = ["BTC", "ETH"] := by decide
  have member : "BTC" ∈ threeAmounts.symbols := by simp [symbols]
  have fails : (failingFirst "BTC" "USD").outcome = .error (.fault (.evaluation "no price")) := rfl
  obtain ⟨s, f, earliest, told, cancelled, _⟩ :=
    ((evaluation_ignores_timing threeAmounts failingFirst).1 portfolio).2.2 "BTC" member _ fails
  have first : s = "BTC" := by
    have among := earliest.mem
    rw [symbols] at among
    have least := earliest.least "BTC" member _ fails
    rcases List.mem_pair.mp among with same | same
    · exact same
    · subst same
      exact absurd least (by decide)
  subst first
  have same : f = .fault (.evaluation "no price") := by
    have fails := earliest.fails
    cases fails
    rfl
  subst same
  refine ⟨portfolio, member, fails, told, ?_⟩
  rw [cancelled, symbols]
  decide

end Expression
end QuoteDesk
