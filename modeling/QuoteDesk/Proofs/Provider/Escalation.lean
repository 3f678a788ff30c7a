import QuoteDesk.Provider.Chain

/-
What a search through a chain makes of the attempts of its providers. A provider that is asked
tries again as its policy allows; the first one that has a price ends the search, and so does a
failure that is no provider's. The providers write their attempts down, so that it can be seen who
was asked how often, and who was not asked at all.
-/
namespace QuoteDesk

/-- An attempt that was made: the rank of its provider, counted from the best, and what came of it. -/
structure Try where
  rank : Nat
  outcome : Outcome Numeral

/-- The attempts of one provider: failures after which it tried again, and the last attempt. -/
structure Tries where
  passing : List Failure
  last : Outcome Numeral

namespace Tries

def outcomes (t : Tries) : List (Outcome Numeral) := t.passing.map .error ++ [t.last]

/-- Only failures that may pass were followed by another attempt, and all of them were as long as
the policy allowed one. -/
structure Follow (policy : RetryPolicy) (t : Tries) : Prop where
  retried : ∀ f ∈ t.passing, f.retryable = true
  allowed : t.passing.length < policy.maxAttempts
  final : ∀ f, t.last = .error f → f.retryable = true → t.passing.length + 1 = policy.maxAttempts

/-- What providers have written down, the first of them having rank `k`. -/
def log (k : Nat) (ts : List Tries) : List Try :=
  (ts.zipIdx k).flatMap fun (t, rank) => t.outcomes.map (Try.mk rank)

theorem log_nil (k : Nat) : log k [] = [] := rfl

theorem log_cons (k : Nat) (t : Tries) (ts : List Tries) :
    log k (t :: ts) = t.outcomes.map (Try.mk k) ++ log (k + 1) ts := rfl

/-- What comes of the last attempt. -/
def answer (t : Tries) (provider base quote : String) (now : Moment) : Outcome Quote :=
  match t.last with
  | .ok price => Provider.quoteOf provider base quote now price
  | .error f => .error (f.tagged provider)

end Tries

variable {ω : Type}

namespace Provider

/-- The provider, writing down each of its attempts. -/
def noting (p : Provider ω) (rank : Nat) : Provider (ω × List Try) :=
  ⟨p.name, p.kind, fun base quote (w, tries) =>
    let (a, w) := p.attempt base quote w
    (a, w, tries ++ [⟨rank, a.outcome⟩]), p.counters⟩

theorem attemptCounted_noting (p : Provider ω) (rank : Nat) (base quote : String) (c : Counters)
    (w : ω) (tries : List Try) :
    ∃ o c' w', p.attemptCounted base quote (c, w) = (o, c', w') ∧
      (p.noting rank).attemptCounted base quote (c, w, tries) = (o, c', w', tries ++ [⟨rank, o⟩]) :=
  ⟨_, _, _, rfl, rfl⟩

/-- The attempts of a provider, as it writes them down, with `left` more of them allowed. -/
theorem attempts_noting (p : Provider ω) (rank : Nat) (first : Binary64) (base quote : String)
    (left i : Nat) (c : Counters) (w : ω) (tries : List Try) :
    ∃ (t : Tries) (waits : List Binary64) (c' : Counters) (w' : ω),
      (∀ f ∈ t.passing, f.retryable = true) ∧ t.passing.length ≤ left ∧
      (∀ f, t.last = .error f → f.retryable = true → t.passing.length = left) ∧
      Retry.attempts first (p.attemptCounted base quote) left i (c, w) = (t.last, waits, c', w') ∧
      Retry.attempts first ((p.noting rank).attemptCounted base quote) left i (c, w, tries) =
        (t.last, waits, c', w', tries ++ t.outcomes.map (Try.mk rank)) := by
  induction left generalizing i c w tries with
  | zero =>
    obtain ⟨o, c', w', plain, noted⟩ := p.attemptCounted_noting rank base quote c w tries
    refine ⟨⟨[], o⟩, [], c', w', by simp, Nat.le_refl 0, fun _ _ _ => rfl, ?_, ?_⟩
    · rw [Retry.attempts, plain]
    · rw [Retry.attempts, noted]
      rfl
  | succ left ih =>
    obtain ⟨o, c', w', plain, noted⟩ := p.attemptCounted_noting rank base quote c w tries
    rw [Retry.attempts, Retry.attempts, plain, noted]
    rcases o with f | price
    · cases again : f.retryable with
      | true =>
        obtain ⟨t, waits, c'', w'', retried, allowed, final, plain', noted'⟩ :=
          ih (i + 1) c' w' (tries ++ [⟨rank, .error f⟩])
        refine ⟨⟨f :: t.passing, t.last⟩, Retry.wait first i :: waits, c'', w'', ?_, ?_, ?_, ?_, ?_⟩
        · exact List.forall_mem_cons.mpr ⟨again, retried⟩
        · exact Nat.succ_le_succ allowed
        · exact fun g last passing => congrArg (· + 1) (final g last passing)
        · simp only [again, ↓reduceIte, plain']
        · simp only [again, ↓reduceIte, noted', Tries.outcomes, List.map_cons, List.cons_append,
            List.append_assoc, List.nil_append]
      | false =>
        refine ⟨⟨[], .error f⟩, [], c', w', by simp, Nat.zero_le _, ?_, ?_, ?_⟩
        · rintro _ ⟨⟩ passing
          rw [again] at passing
          cases passing
        · simp only [again, Bool.false_eq_true, ↓reduceIte]
        · simp only [again, Bool.false_eq_true, ↓reduceIte]
          rfl
    · exact ⟨⟨[], .ok price⟩, [], c', w', by simp, Nat.zero_le _, by simp, rfl, rfl⟩

/-- What a provider answers comes of its last attempt. -/
theorem fetchQuote_noting (p : Provider ω) (rank : Nat) {policy : RetryPolicy} {first : Binary64}
    (held : policy.firstWait? = some first) (now : Moment) (base quote : String) (w : ω)
    (tries : List Try) :
    ∃ (t : Tries) (waits : List Binary64) (c : Counters) (w' : ω), t.Follow policy ∧
      p.fetchQuote policy now base quote w =
        (t.answer p.name base quote now, waits, { p with counters := c }, w') ∧
      (p.noting rank).fetchQuote policy now base quote (w, tries) =
        (t.answer p.name base quote now, waits, { p with counters := c }.noting rank,
          w', tries ++ t.outcomes.map (Try.mk rank)) := by
  obtain ⟨t, waits, c, w', retried, allowed, final, plain, noted⟩ :=
    p.attempts_noting rank first base quote (policy.maxAttempts - 1) 0 p.counters w tries
  have positive := policy.positive
  have follow : t.Follow policy :=
    ⟨retried, by omega, fun f last passing => by rw [final f last passing]; omega⟩
  have counters : (p.noting rank).counters = p.counters := rfl
  unfold fetchQuote
  rw [Retry.run_of_some held, Retry.run_of_some held, plain, counters, noted]
  cases last : t.last with
  | ok price =>
    refine ⟨t, waits, { c with quotes := c.quotes + 1, lastUpdate := some now }, w', follow, ?_, ?_⟩
    · simp only [Tries.answer, last]
    · simp only [Tries.answer, last]
      rfl
  | error f =>
    refine ⟨t, waits, c, w', follow, ?_, ?_⟩
    · simp only [Tries.answer, last]
    · simp only [Tries.answer, last]
      rfl

end Provider

namespace Chain

/-- The chain with every provider writing down its attempts under its rank, counted from `k`. -/
def noting (k : Nat) (ps : List (Provider ω)) : List (Provider (ω × List Try)) :=
  (ps.zipIdx k).map fun (p, rank) => p.noting rank

/-- A provider that failed for good, with the failures after which it tried again. -/
structure Refusal (ω : Type) where
  provider : Provider ω
  passing : List Failure
  fault : ProviderFault

namespace Refusal

def tries (x : Refusal ω) : Tries := ⟨x.passing, .error (.fault (.provider x.fault))⟩

/-- How the failure is told in a trace. -/
def line (x : Refusal ω) : String := x.provider.name ++ ": " ++ x.fault.text

end Refusal

/-- What the attempts of the provider that ends a search come to: a quote, a price that is no
number, or a failure that is no provider's. -/
inductive Ends (now : Moment) (pair : Pair) (p : Provider ω) : Outcome Numeral → Outcome Quote → Prop where
  | quoted (d : Decimal) : Ends now pair p (.ok (.finite d)) (.ok ⟨pair.base, pair.quote, d, p.name, now⟩)
  | priceless {price : Numeral} (none : price.finite? = none) :
      Ends now pair p (.ok price) (.error (.defect .invalidRecord))
  | broken {f : Failure} (other : ∀ x, f ≠ .fault (.provider x)) : Ends now pair p (.error f) (.error f)

/-- Writing the attempts down changes neither the result nor the world. -/
theorem searchFrom_noting (policy : RetryPolicy) (now : Moment) (pair : Pair) (trace : List String)
    (ps : List (Provider ω)) (w : ω) (k : Nat) (tries : List Try) :
    (searchFrom policy now pair trace (noting k ps) (w, tries)).outcome =
        (searchFrom policy now pair trace ps w).outcome ∧
      (searchFrom policy now pair trace (noting k ps) (w, tries)).outside.1 =
        (searchFrom policy now pair trace ps w).outside := by
  induction ps generalizing trace w k tries with
  | nil => exact ⟨rfl, rfl⟩
  | cons p ps ih =>
    have ranks : noting k (p :: ps) = p.noting k :: noting (k + 1) ps := rfl
    rw [ranks, searchFrom, searchFrom]
    cases held : policy.firstWait? with
    | some first =>
      obtain ⟨t, waits, c, w', _, plain, noted⟩ :=
        p.fetchQuote_noting k held now pair.base pair.quote w tries
      rw [plain, noted]
      dsimp only
      split
      · exact ih _ w' (k + 1) _
      · exact ⟨rfl, rfl⟩
    | none =>
      rw [Provider.fetchQuote_of_none held, Provider.fetchQuote_of_none held]
      exact ⟨rfl, rfl⟩

/-- A provider refuses, or ends the search. -/
theorem answer_cases (now : Moment) (pair : Pair) (p : Provider ω) (t : Tries) :
    (∃ x : Refusal ω, x.provider = p ∧ x.tries = t ∧
      t.answer p.name pair.base pair.quote now = .error (.fault (.provider (x.fault.tagged p.name)))) ∨
    ((∀ x, t.answer p.name pair.base pair.quote now ≠ .error (.fault (.provider x))) ∧
      Ends now pair p t.last (t.answer p.name pair.base pair.quote now)) := by
  obtain ⟨passing, last⟩ := t
  unfold Tries.answer
  rcases last with (fault | d) | price
  · cases fault with
    | provider x => exact .inl ⟨⟨p, passing, x⟩, rfl, rfl, rfl⟩
    | general | input | expression | evaluation | mixedModes | divisionByZero | store =>
      exact .inr ⟨by rintro x ⟨⟩, .broken (by rintro x ⟨⟩)⟩
  · exact .inr ⟨by rintro x ⟨⟩, .broken (by rintro x ⟨⟩)⟩
  · cases price with
    | finite d => exact .inr ⟨by rintro x ⟨⟩, .quoted d⟩
    | infinite | nan => exact .inr ⟨by rintro x ⟨⟩, .priceless rfl⟩

/-- A search from some provider on: those that refuse, and then nobody or the one that ends it. -/
theorem searchFrom_cases {policy : RetryPolicy} {first : Binary64}
    (held : policy.firstWait? = some first) (now : Moment) (pair : Pair) (trace : List String)
    (ps : List (Provider ω)) (w : ω) (k : Nat) (tries : List Try) :
    ∃ failed : List (Refusal ω), (∀ x ∈ failed, x.tries.Follow policy) ∧
      ((failed.map (·.provider) = ps ∧
          (searchFrom policy now pair trace ps w).outcome =
            .error (exhausted pair (trace ++ failed.map (·.line))) ∧
          (searchFrom policy now pair trace (noting k ps) (w, tries)).outside.2 =
            tries ++ Tries.log k (failed.map (·.tries))) ∨
        ∃ p after t, ps = failed.map (·.provider) ++ p :: after ∧ t.Follow policy ∧
          Ends now pair p t.last (searchFrom policy now pair trace ps w).outcome ∧
          (searchFrom policy now pair trace (noting k ps) (w, tries)).outside.2 =
            tries ++ Tries.log k (failed.map (·.tries) ++ [t])) := by
  induction ps generalizing trace w k tries with
  | nil =>
    refine ⟨[], by simp, .inl ⟨rfl, ?_, ?_⟩⟩
    · rw [List.map_nil, List.append_nil]
      rfl
    · rw [List.map_nil, Tries.log_nil, List.append_nil]
      rfl
  | cons p ps ih =>
    obtain ⟨t, waits, c, w', follow, plain, noted⟩ :=
      p.fetchQuote_noting k held now pair.base pair.quote w tries
    have ranks : noting k (p :: ps) = p.noting k :: noting (k + 1) ps := rfl
    rw [ranks, searchFrom, searchFrom, plain, noted]
    rcases answer_cases now pair p t with ⟨x, rfl, rfl, answer⟩ | ⟨other, ends⟩
    · simp only [answer]
      obtain ⟨failed, followed, rest⟩ := ih (trace ++ [x.line]) w' (k + 1)
        (tries ++ x.tries.outcomes.map (Try.mk k))
      refine ⟨x :: failed, List.forall_mem_cons.mpr ⟨follow, followed⟩, ?_⟩
      rcases rest with ⟨all, outcome, log⟩ | ⟨q, after, u, split, follow', ended, log⟩
      · left
        refine ⟨by rw [List.map_cons, all], ?_, ?_⟩
        · rw [List.append_assoc] at outcome
          exact outcome
        · rw [List.append_assoc] at log
          exact log
      · refine .inr ⟨q, after, u, by rw [split]; rfl, follow', ended, ?_⟩
        rw [List.append_assoc] at log
        exact log
    · generalize t.answer p.name pair.base pair.quote now = o at other ends
      refine ⟨[], by simp, .inr ⟨p, ps, t, rfl, follow, ?_, ?_⟩⟩
      · dsimp only
        split
        · exact absurd rfl (other _)
        · exact ends
      · dsimp only
        split
        · exact absurd rfl (other _)
        · simp only [List.map_nil, List.nil_append, Tries.log_cons, Tries.log_nil, List.append_nil]

/-- That nobody is left to ask is told with the trace, if there is one. -/
theorem exhausted_tells (pair : Pair) (trace : List String) :
    ∃ cause : ProviderCause, exhausted pair trace = .fault (.provider ⟨cause, none⟩) ∧
      cause.trace = trace ∧
      cause.message = "failed to fetch " ++ pair.kind.name ++ " price for " ++
        (pair.base ++ "/" ++ pair.quote) ++
        if cause.trace = [] then ""
        else " (provider trace: " ++ " | ".intercalate cause.trace ++ ")" := by
  refine ⟨_, rfl, rfl, ?_⟩
  cases trace with
  | nil => simp [ProviderCause.message, ProviderCause.trace, Pair.text]
  | cons line more =>
    simp [ProviderCause.message, ProviderCause.trace, Pair.text, String.append_assoc]

/-- A search asks the providers in their order, each until its last attempt. If all of them fail
with errors of providers, the result tells so, with a line for the last error of each; otherwise the
first one that does not fail so ends the search, by its quote or by its failure, and no provider
after it is asked. Under a policy without a first wait the first provider fails before its first
attempt, and with that the search. -/
theorem search_falls_back_by_rank (policy : RetryPolicy) (now : Moment) (pair : Pair)
    (ps : List (Provider ω)) (w : ω) :
    (search policy now pair (noting 0 ps) (w, [])).outcome = (search policy now pair ps w).outcome ∧
    ((∃ failed : List (Refusal ω), (∀ x ∈ failed, x.tries.Follow policy) ∧
      ((failed.map (·.provider) = ps ∧
          (search policy now pair (noting 0 ps) (w, [])).outside.2 =
            Tries.log 0 (failed.map (·.tries)) ∧
          ∃ cause : ProviderCause,
            (search policy now pair ps w).outcome = .error (.fault (.provider ⟨cause, none⟩)) ∧
            cause.trace = failed.map (·.line) ∧
            cause.message = "failed to fetch " ++ pair.kind.name ++ " price for " ++
              (pair.base ++ "/" ++ pair.quote) ++
              if cause.trace = [] then ""
              else " (provider trace: " ++ " | ".intercalate cause.trace ++ ")") ∨
        ∃ p after t, ps = failed.map (·.provider) ++ p :: after ∧ t.Follow policy ∧
          (search policy now pair (noting 0 ps) (w, [])).outside.2 =
            Tries.log 0 (failed.map (·.tries) ++ [t]) ∧
          Ends now pair p t.last (search policy now pair ps w).outcome)) ∨
      policy.firstWait? = none ∧ ps ≠ [] ∧
        (search policy now pair (noting 0 ps) (w, [])).outside.2 = [] ∧
        (search policy now pair ps w).outcome = .error (.defect .outOfRange)) := by
  refine ⟨(searchFrom_noting policy now pair [] ps w 0 []).1, ?_⟩
  cases held : policy.firstWait? with
  | some first =>
    left
    obtain ⟨failed, follow, ⟨all, outcome, log⟩ | ⟨p, after, t, split, follow', ends, log⟩⟩ :=
      searchFrom_cases held now pair [] ps w 0 []
    · refine ⟨failed, follow, .inl ⟨all, log, ?_⟩⟩
      obtain ⟨cause, same, trace, message⟩ := exhausted_tells pair (failed.map (·.line))
      exact ⟨cause, outcome.trans (congrArg _ same), trace, message⟩
    · exact ⟨failed, follow, .inr ⟨p, after, t, split, follow', log, ends⟩⟩
  | none =>
    cases ps with
    | nil =>
      obtain ⟨cause, same, trace, message⟩ := exhausted_tells pair []
      exact .inl ⟨[], List.forall_mem_nil _, .inl ⟨rfl, rfl, cause, congrArg _ same, trace, message⟩⟩
    | cons p after =>
      have ranks : noting 0 (p :: after) = p.noting 0 :: noting 1 after := rfl
      refine .inr ⟨rfl, List.cons_ne_nil p after, ?_, ?_⟩
      · rw [search, ranks, searchFrom, Provider.fetchQuote_of_none held]
      · rw [search, searchFrom, Provider.fetchQuote_of_none held]

end Chain
end QuoteDesk
