import QuoteDesk.Proofs.Provider.Ranked

/-
What asking providers comes to, by what their attempts come to. A property of every attempt is
one of the last attempt, and a property of what each provider gives, and of having none left, is
one of the whole search.
-/
namespace QuoteDesk

namespace Retry

variable {σ α : Type} {attempt : σ → Outcome α × σ}

/-- What relates the state before an attempt to its outcome and the state after it, and is passed on
from one attempt to the next, relates the state before all attempts to the last outcome. -/
theorem attempts_related {R : σ → Outcome α → σ → Prop} (first : Binary64)
    (once : ∀ s, R s (attempt s).1 (attempt s).2)
    (again : ∀ {s f s' o s''}, R s (.error f) s' → R s' o s'' → R s o s'') (left i : Nat) (s : σ) :
    R s (attempts first attempt left i s).1 (attempts first attempt left i s).2.2 := by
  induction left generalizing i s with
  | zero => exact once s
  | succ left ih =>
    have here := once s
    unfold attempts
    split
    · rename_i f s' failed
      rw [failed] at here
      split
      · exact again here (ih (i + 1) s')
      · exact here
    · rename_i o s' other ended
      rw [ended] at here
      exact here

/-- What holds of every attempt, and of the failure without any, holds of the outcome under a
policy. -/
theorem run_related {R : σ → Outcome α → σ → Prop} (p : RetryPolicy)
    (once : ∀ s, R s (attempt s).1 (attempt s).2)
    (again : ∀ {s f s' o s''}, R s (.error f) s' → R s' o s'' → R s o s'')
    (unheld : ∀ s, p.firstWait? = none → R s (.error (.defect .outOfRange)) s) (s : σ) :
    R s (run p attempt s).1 (run p attempt s).2.2 := by
  cases held : p.firstWait? with
  | some first =>
    rw [run_of_some held]
    exact attempts_related first once again _ 0 s
  | none =>
    rw [run_of_none held]
    exact unheld s held

theorem outcome_run {P : Outcome α → Prop} (p : RetryPolicy) (each : ∀ s, P (attempt s).1)
    (unheld : p.firstWait? = none → P (.error (.defect .outOfRange))) (s : σ) :
    P (run p attempt s).1 :=
  run_related (R := fun _ o _ => P o) p each (fun _ last => last) (fun _ => unheld) s

end Retry

theorem Chain.outcome_searchFrom {ω : Type} {P : Outcome Quote → Prop} (policy : RetryPolicy)
    (now : Moment) (pair : Pair) (none : ∀ trace, P (.error (exhausted pair trace)))
    {providers : List (Provider ω)}
    (each : ∀ p ∈ providers, ∀ w, P (p.fetchQuote policy now pair.base pair.quote w).1)
    (trace : List String) (w : ω) : P (searchFrom policy now pair trace providers w).outcome := by
  induction providers generalizing trace w with
  | nil => exact none trace
  | cons p ps ih =>
    have here := each p (by simp) w
    unfold searchFrom
    generalize p.fetchQuote policy now pair.base pair.quote w = r at here
    obtain ⟨o, waits, p', w'⟩ := r
    dsimp only
    split
    · exact ih (fun q member => each q (List.mem_cons_of_mem p member)) _ _
    · exact here

/-! Sources that give prices and faults of their own, and nothing else -/

/-- A value of which `good` holds, or a fault of a source. -/
inductive Outcome.Ordinary {α : Type} (good : α → Prop) : Outcome α → Prop where
  | value {a : α} (holds : good a) : Ordinary good (.ok a)
  | fault (f : ProviderFault) : Ordinary good (.error (.fault (.provider f)))

variable {ω : Type}

namespace Provider

def Ordinary (p : Provider ω) : Prop :=
  ∀ base quote w,
    Outcome.Ordinary (fun price => ∃ d, price = .finite d) (p.attempt base quote w).1.outcome

theorem ordinary_fetchQuote {p : Provider ω} (ordinary : p.Ordinary) {policy : RetryPolicy}
    (held : policy.firstWait? ≠ none) (now : Moment) (base quote : String) (w : ω) :
    Outcome.Ordinary (fun q => q.fetchedAt = now) (p.fetchQuote policy now base quote w).1 := by
  have tried : Outcome.Ordinary (fun price => ∃ d, price = .finite d)
      (Retry.run policy (p.attemptCounted base quote) (p.counters, w)).1 :=
    Retry.outcome_run policy (fun s => ordinary base quote s.2) (fun lost => absurd lost held) _
  unfold fetchQuote
  generalize Retry.run policy (p.attemptCounted base quote) (p.counters, w) = r at tried
  obtain ⟨o, waits, c, w'⟩ := r
  cases tried with
  | value finite =>
    obtain ⟨d, rfl⟩ := finite
    exact .value rfl
  | fault f => exact .fault (f.tagged p.name)

end Provider

namespace Market

/-- Its policy has a first wait, and its providers give prices and faults of their own. -/
structure Ordinary (m : Market ω) : Prop where
  held : m.policy.firstWait? ≠ none
  each : ∀ kind, ∀ p ∈ m.chain kind, p.Ordinary

/-- A fetch then gives a quote of its time, or fails with a fault of the sources. -/
theorem ordinary_outcome {m : Market ω} (ordinary : m.Ordinary) (pair : Pair) :
    Outcome.Ordinary (fun q => q.fetchedAt = m.now) (m.fetch pair).1 := by
  apply Chain.outcome_searchFrom
  · intro trace
    exact .fault _
  · intro p member l
    exact Provider.ordinary_fetchQuote (ordinary.each pair.kind p member) ordinary.held _ _ _ l

/-- Asking leaves of the sources what they give. -/
theorem ordinary_fetch {m : Market ω} (ordinary : m.Ordinary) (pair : Pair) :
    (m.fetch pair).2.Ordinary := by
  refine ⟨by rw [policy_fetch]; exact ordinary.held, ?_⟩
  intro kind p member
  have listed : p.unused ∈ ((m.fetch pair).2.chain kind).map Provider.unused :=
    List.mem_map_of_mem member
  rw [unused_fetch, List.mem_map] at listed
  obtain ⟨p', here, same⟩ := listed
  have attempt : p'.attempt = p.attempt := (congrArg Provider.attempt same :)
  intro base quote l
  rw [← attempt]
  exact ordinary.each kind p' here base quote l

end Market
end QuoteDesk
