import Mathlib.Order.Bounds.Basic
import QuoteDesk.Proofs.Binary64
import QuoteDesk.Provider.Chain

/-
Which attempts are made under a retry policy. Attempts follow one another until one has an outcome
that is no passing failure of a provider, or as many were made as are allowed. In between there are
the waits of the policy. The first is rounded to a binary number and the others are it doubled,
without a further rounding, up to the longest one; only a first wait of nothing does not stay nothing
for ever. A policy whose milliseconds are past all binary numbers has no first wait, and no attempt
is made under it.
-/
namespace QuoteDesk

/-! The waits -/

namespace RetryPolicy

variable {p : RetryPolicy} {first : Binary64}

theorem firstWait?_parts (held : p.firstWait? = some first) :
    ∃ milliseconds : Binary64, milliseconds.Nearest p.backoff ∧ first.negative = false ∧
      first.Nearest (milliseconds.value / 1000) := by
  obtain ⟨milliseconds, whole, divided⟩ := Option.bind_eq_some_iff.mp held
  have near := Binary64.nearest_of_eq_some Nat.one_pos whole
  have plain := Binary64.negative_of_nearest whole
  obtain ⟨plain', near'⟩ := Binary64.nearest_of_times plain (by decide) divided
  rw [Nat.cast_one, div_one] at near
  rw [Nat.cast_one, Nat.cast_ofNat, mul_one_div] at near'
  exact ⟨milliseconds, near, plain', near'⟩

/-- There is no first wait just if the milliseconds are past the largest number; dividing by a
thousand never leads there. -/
theorem firstWait?_eq_none_iff (p : RetryPolicy) :
    p.firstWait? = none ↔ Binary64.overflow ≤ p.backoff := by
  have past : Binary64.nearest false p.backoff 1 = none ↔ Binary64.overflow ≤ p.backoff / (1 : ℕ) :=
    Binary64.nearest_eq_none_iff Nat.one_pos
  rw [Nat.cast_one, div_one] at past
  rw [← past, firstWait?]
  cases whole : Binary64.nearest false p.backoff 1 with
  | none => exact iff_of_true rfl rfl
  | some milliseconds =>
    refine iff_of_false ?_ (Option.some_ne_none _)
    have plain := Binary64.negative_of_nearest whole
    have fits := (Binary64.nearest_of_eq_some Nat.one_pos whole).fits
    have most := Binary64.value_le fits
    have power := Binary64.two_zpow_mono fits.highest
    have unit := Binary64.two_zpow_pos Binary64.highestExponent
    change milliseconds.times 1 1000 ≠ none
    rw [ne_eq, Binary64.times_eq_none_iff plain (by decide), not_le, Binary64.overflow_eq]
    push_cast
    linarith

end RetryPolicy

namespace Retry

variable {first : Binary64} {i : ℕ}

theorem value_longestWait : longestWait.value = 2 ^ 62 := by
  rw [Binary64.value, longestWait]
  norm_num

theorem fits_longestWait : longestWait.Fits := ⟨by decide, by decide, by decide⟩

/-- Doubled up to the longest wait a number is one still. -/
theorem exists_doubled (plain : first.negative = false) (fits : first.Fits)
    (short : first.value * 2 ^ i ≤ 2 ^ 62) :
    ∃ y : Binary64, y.Fits ∧ y.value = first.value * 2 ^ i := by
  obtain ⟨negative, mantissa, exponent⟩ := first
  subst plain
  have lowest := fits.lowest
  rcases Nat.eq_zero_or_pos mantissa with zero | some
  · subst zero
    obtain ⟨y, whole, nothing⟩ := Binary64.exists_whole (n := 0) (by decide)
    refine ⟨y, whole, ?_⟩
    rw [nothing]
    simp [Binary64.value]
  · refine ⟨⟨false, mantissa, exponent + i⟩, ⟨fits.mantissa, ?_, ?_⟩, Binary64.value_shift _ _ _ _⟩
    · dsimp only at lowest ⊢
      omega
    · -- with an exponent above the highest it would be longer
      by_contra high
      rw [Binary64.highestExponent] at high
      dsimp only at high
      have least := Binary64.unit_le_value some (exponent + i)
      have far : (2 : ℚ) ^ (63 : ℤ) ≤ 2 ^ (exponent + (i : ℤ)) := Binary64.two_zpow_mono (by omega)
      rw [Binary64.value_shift] at least
      norm_num at far short
      linarith

theorem nearest_of_doubled (plain : first.negative = false) {doubled : Binary64}
    (found : first.times (2 ^ i) 1 = some doubled) :
    doubled.negative = false ∧ doubled.Nearest (first.value * 2 ^ i) := by
  have near := Binary64.nearest_of_times plain Nat.one_pos found
  rwa [Nat.cast_pow, Nat.cast_ofNat, Nat.cast_one, div_one] at near

theorem times_ne_none_of_short (plain : first.negative = false)
    (short : first.value * 2 ^ i ≤ 2 ^ 62) : first.times (2 ^ i) 1 ≠ none := by
  rw [ne_eq, Binary64.times_eq_none_iff plain Nat.one_pos, not_le, Binary64.overflow_eq,
    Nat.cast_pow, Nat.cast_ofNat, Nat.cast_one, div_one]
  have far : (2 : ℚ) ^ (62 : ℤ) ≤ 2 ^ Binary64.highestExponent := Binary64.two_zpow_mono (by decide)
  norm_num at far short
  linarith

/-- As long as the power is a number the waits double, up to the longest one. -/
theorem value_wait (plain : first.negative = false) (fits : first.Fits) (early : i < 1024) :
    (wait first i).value = min (first.value * 2 ^ i) (2 ^ 62) := by
  rw [wait, if_pos early]
  rcases le_or_gt (first.value * 2 ^ i) (2 ^ 62) with short | long
  · obtain ⟨doubled, found⟩ := Option.ne_none_iff_exists'.mp (times_ne_none_of_short plain short)
    obtain ⟨plain', near⟩ := nearest_of_doubled plain found
    obtain ⟨y, fits', same⟩ := exists_doubled plain fits short
    have kept := near.value_eq fits' same
    have under : doubled.exceeds longestWait = false := by
      rw [← Bool.not_eq_true, Binary64.exceeds_iff plain' rfl, value_longestWait, kept, not_lt]
      exact short
    rw [min_eq_left short]
    simp only [found, under, Bool.false_eq_true, ↓reduceIte, kept]
  · rw [min_eq_right long.le]
    cases found : first.times (2 ^ i) 1 with
    | none => exact value_longestWait
    | some doubled =>
      obtain ⟨plain', near⟩ := nearest_of_doubled plain found
      have least := near.le_of_ge fits_longestWait (by rw [value_longestWait]; exact long.le)
      dsimp only
      split
      · exact value_longestWait
      · rename_i under
        rw [Binary64.exceeds_iff plain' rfl, not_lt] at under
        rw [← value_longestWait]
        exact le_antisymm under least

theorem wait_of_late (late : 1024 ≤ i) : wait first i = longestWait := if_neg (not_lt.mpr late)

end Retry

namespace RetryPolicy

variable {p : RetryPolicy} {first : Binary64}

theorem value_firstWait_of_zero (held : p.firstWait? = some first) (none : p.backoff = 0) :
    first.value = 0 := by
  obtain ⟨milliseconds, near, _, near'⟩ := firstWait?_parts held
  obtain ⟨_, zero, nothing⟩ := Binary64.exists_whole (n := 0) (by decide)
  rw [Nat.cast_zero] at nothing
  rw [none, Nat.cast_zero] at near
  rw [near.value_eq zero nothing, zero_div] at near'
  exact near'.value_eq zero nothing

/-- However it is rounded, a millisecond is no less than this. -/
theorem le_value_firstWait (held : p.firstWait? = some first) (some : 0 < p.backoff) :
    1 / 1024 ≤ first.value := by
  obtain ⟨milliseconds, near, _, near'⟩ := firstWait?_parts held
  obtain ⟨_, one, same⟩ := Binary64.exists_whole (n := 1) (by decide)
  have least := near.le_of_ge one (by rw [same]; exact_mod_cast some)
  rw [same, Nat.cast_one] at least
  have small : (⟨false, 1, -10⟩ : Binary64).value = 1 / 1024 := by
    simp [Binary64.value]
    norm_num
  rw [← small]
  exact near'.le_of_ge ⟨by decide, by decide, by decide⟩ (by rw [small]; linarith)

/-- The waits double up to the longest one, unless the doubling is given up with no wait to be
doubled: then it is the longest one as well. -/
theorem value_wait_iff (held : p.firstWait? = some first) (i : ℕ) :
    (Retry.wait first i).value = min (first.value * 2 ^ i) (2 ^ 62) ↔ 0 < p.backoff ∨ i < 1024 := by
  rcases lt_or_ge i 1024 with early | late
  · obtain ⟨_, _, plain, near⟩ := firstWait?_parts held
    exact iff_of_true (Retry.value_wait plain near.fits early) (.inr early)
  rw [Retry.wait_of_late late, Retry.value_longestWait]
  rcases Nat.eq_zero_or_pos p.backoff with none | some
  · rw [value_firstWait_of_zero held none, zero_mul]
    refine iff_of_false ?_ (by omega)
    norm_num
  · have least := le_value_firstWait held some
    have power : (2 : ℚ) ^ 72 ≤ 2 ^ i := pow_le_pow_right₀ (by norm_num) (by omega)
    have long : (2 : ℚ) ^ 62 ≤ first.value * 2 ^ i := by
      calc (2 : ℚ) ^ 62 = 1 / 1024 * 2 ^ 72 := by norm_num
        _ ≤ first.value * 2 ^ i := by gcongr
    rw [min_eq_right long]
    exact iff_of_true rfl (.inl some)

end RetryPolicy

theorem Failure.retryable_iff (f : Failure) :
    f.retryable = true ↔ ∃ p : ProviderFault, f = .fault (.provider p) ∧ p.retryable = true := by
  constructor
  · intro again
    cases f with
    | defect d => cases again
    | fault f =>
      cases f with
      | provider p => exact ⟨p, rfl, again⟩
      | _ => cases again
  · rintro ⟨p, rfl, again⟩
    exact again

namespace Retry

variable {σ α : Type}

/-- A failure of a provider that may pass. -/
def Passing (o : Outcome α) : Prop :=
  ∃ p : ProviderFault, o = .error (.fault (.provider p)) ∧ p.retryable = true

theorem passing_error_iff (f : Failure) :
    Passing (.error f : Outcome α) ↔ f.retryable = true := by
  rw [Failure.retryable_iff]
  simp only [Passing, Except.error.injEq]

/-- How often an operation may have been tried when there is no further attempt: as often as is
allowed, or up to an outcome that is no passing failure. -/
def stops (limit : ℕ) (outcome : ℕ → Outcome α) : Set ℕ :=
  {k | k = limit ∨ ∃ j, k = j + 1 ∧ ¬ Passing (outcome j)}

/-- No attempt follows the last one. -/
theorem isLeast_one {limit : ℕ} (positive : 0 < limit) {outcome : ℕ → Outcome α}
    (ends : limit = 1 ∨ ¬ Passing (outcome 0)) : IsLeast (stops limit outcome) 1 := by
  constructor
  · rcases ends with one | final
    · exact .inl one.symm
    · exact .inr ⟨0, rfl, final⟩
  · rintro k (rfl | ⟨j, rfl, _⟩)
    · exact positive
    · exact Nat.succ_pos j

/-- After a passing failure the attempts go on as if they began with the next one. -/
theorem isLeast_succ {limit last : ℕ} {outcome : ℕ → Outcome α} (again : Passing (outcome 0))
    (rest : IsLeast (stops limit fun k => outcome (k + 1)) (last + 1)) :
    IsLeast (stops (limit + 1) outcome) (last + 2) := by
  obtain ⟨stop, least⟩ := rest
  constructor
  · rcases stop with all | ⟨j, same, final⟩
    · exact .inl (congrArg (· + 1) all)
    · exact .inr ⟨j + 1, congrArg (· + 1) same, final⟩
  · rintro k (rfl | ⟨j, rfl, final⟩)
    · exact Nat.succ_le_succ (least (.inl rfl))
    · cases j with
      | zero => exact absurd again final
      | succ j => exact Nat.succ_le_succ (least (.inr ⟨j, rfl, final⟩))

section Attempts

variable (attempt : σ → Outcome α × σ)

/-- The state that so many attempts leave behind. -/
def stateAfter (s : σ) (k : ℕ) : σ := (fun s => (attempt s).2)^[k] s

/-- The outcome of the attempt that follows so many others. -/
def outcomeAt (s : σ) (k : ℕ) : Outcome α := (attempt (stateAfter attempt s k)).1

theorem stateAfter_succ (s : σ) (k : ℕ) :
    stateAfter attempt s (k + 1) = stateAfter attempt (attempt s).2 k := rfl

theorem outcomeAt_succ (s : σ) (k : ℕ) :
    outcomeAt attempt s (k + 1) = outcomeAt attempt (attempt s).2 k := rfl

theorem attempts_of_final (first : Binary64) (left i : ℕ) {s : σ}
    (final : ¬ Passing (attempt s).1) :
    attempts first attempt left i s = ((attempt s).1, [], (attempt s).2) := by
  cases left with
  | zero => rfl
  | succ left =>
    rw [attempts]
    generalize attempt s = tried at final ⊢
    rcases tried with ⟨f | a, s'⟩
    · rw [passing_error_iff] at final
      simp only [if_neg final]
    · rfl

theorem attempts_of_passing (first : Binary64) (left i : ℕ) {s : σ}
    (again : Passing (attempt s).1) :
    attempts first attempt (left + 1) i s =
      ((attempts first attempt left (i + 1) (attempt s).2).1,
        wait first i :: (attempts first attempt left (i + 1) (attempt s).2).2.1,
        (attempts first attempt left (i + 1) (attempt s).2).2.2) := by
  rw [attempts]
  generalize attempt s = tried at again ⊢
  rcases tried with ⟨f | a, s'⟩
  · rw [passing_error_iff] at again
    simp only [if_pos again]
  · obtain ⟨_, passing, _⟩ := again
    cases passing

/-- The last attempt is the first after which there need not be another, and each one before it is
followed by its wait. -/
theorem attempts_eq (first : Binary64) (left i : ℕ) (s : σ) :
    ∃ last, IsLeast (stops (left + 1) (outcomeAt attempt s)) (last + 1) ∧
      attempts first attempt left i s =
        (outcomeAt attempt s last, (List.range' i last).map (wait first),
          stateAfter attempt s (last + 1)) := by
  induction left generalizing i s with
  | zero => exact ⟨0, isLeast_one (by decide) (.inl rfl), rfl⟩
  | succ left ih =>
    by_cases again : Passing (attempt s).1
    · obtain ⟨last, least, rest⟩ := ih (i + 1) (attempt s).2
      refine ⟨last + 1, isLeast_succ again least, ?_⟩
      rw [attempts_of_passing attempt first left i again, rest, outcomeAt_succ, stateAfter_succ]
      rfl
    · exact ⟨0, isLeast_one (Nat.succ_pos _) (.inr again), attempts_of_final attempt first _ i again⟩

theorem run_eq {p : RetryPolicy} {first : Binary64} (held : p.firstWait? = some first) (s : σ) :
    ∃ last, IsLeast (stops p.maxAttempts (outcomeAt attempt s)) (last + 1) ∧
      run p attempt s = (outcomeAt attempt s last, (List.range last).map (wait first),
        stateAfter attempt s (last + 1)) := by
  obtain ⟨last, least, done⟩ := attempts_eq attempt first (p.maxAttempts - 1) 0 s
  rw [Nat.sub_add_cancel p.positive] at least
  rw [← List.range_eq_range', ← run_of_some held] at done
  exact ⟨last, least, done⟩

end Attempts
end Retry

namespace Provider

variable {ω : Type} (p : Provider ω) (base quote : String) (w : ω)

/-- The world that so many attempts of a provider leave behind. -/
def worldAfter (k : ℕ) : ω := (fun w => (p.attempt base quote w).2)^[k] w

/-- What comes of the attempt of a provider that follows so many others. -/
def resultAt (k : ℕ) : Outcome Numeral :=
  (p.attempt base quote (p.worldAfter base quote w k)).1.outcome

/-- Keeping count of the attempts makes no difference to the world. -/
theorem stateAfter_counted (c : Counters) (k : ℕ) :
    (Retry.stateAfter (p.attemptCounted base quote) (c, w) k).2 = p.worldAfter base quote w k := by
  induction k generalizing c w with
  | zero => rfl
  | succ k ih => exact ih _ _

theorem outcomeAt_counted (c : Counters) (k : ℕ) :
    Retry.outcomeAt (p.attemptCounted base quote) (c, w) k = p.resultAt base quote w k := by
  rw [resultAt, ← p.stateAfter_counted base quote w c k]
  rfl

/-- What is made of the outcome of the last attempt: a price becomes a quote, a failure of a provider
is put down to this one, and any other failure stays what it is. -/
def handedOn (name base quote : String) (now : Moment) : Outcome Numeral → Outcome Quote
  | .ok price => quoteOf name base quote now price
  | .error (.fault (.provider f)) => .error (.fault (.provider { f with provider := some name }))
  | .error f => .error f

theorem handedOn_error (name base quote : String) (now : Moment) (f : Failure) :
    handedOn name base quote now (.error f) = .error (f.tagged name) := by
  unfold handedOn Failure.tagged
  split
  · rename_i same
    cases same
  · rename_i same
    cases same
    rfl
  · rename_i other same
    cases same
    split
    · exact absurd rfl (other _)
    · rfl

/-- A provider that is asked for a price tries as often as the least of what its policy allows and
the position of its first outcome that is no passing failure. The last outcome is its own answer,
and each attempt before it was followed by its wait. The first wait is the milliseconds of the policy
over a thousand, both rounded; the waits double, up to the longest one, and only of nothing to be
doubled the longest one comes in the end. A policy with more milliseconds than a number can hold
fails as it is, and no attempt is made. -/
theorem fetchQuote_backs_off (policy : RetryPolicy) (now : Moment) :
    (∀ first, policy.firstWait? = some first →
      (∃ last, IsLeast (Retry.stops policy.maxAttempts (p.resultAt base quote w)) (last + 1) ∧
        (p.fetchQuote policy now base quote w).1 =
          handedOn p.name base quote now (p.resultAt base quote w last) ∧
        (p.fetchQuote policy now base quote w).2.1 = (List.range last).map (Retry.wait first) ∧
        (p.fetchQuote policy now base quote w).2.2.2 = p.worldAfter base quote w (last + 1)) ∧
      (∃ milliseconds : Binary64, milliseconds.Nearest policy.backoff ∧
        (policy.backoff < 2 ^ 53 → milliseconds.value = policy.backoff) ∧
        first.Nearest (milliseconds.value / 1000)) ∧
      ∀ i, ((Retry.wait first i).value = min (first.value * 2 ^ i) (2 ^ 62) ↔
          0 < policy.backoff ∨ i < 1024) ∧
        (1024 ≤ i → Retry.wait first i = Retry.longestWait)) ∧
    (policy.firstWait? = none ↔ (2 ^ 1024 - 2 ^ 970 : ℚ) ≤ policy.backoff) ∧
    (policy.firstWait? = none →
      p.fetchQuote policy now base quote w = (.error (.defect .outOfRange), [], p, w)) := by
  refine ⟨?_, policy.firstWait?_eq_none_iff, fun lost => fetchQuote_of_none lost p now base quote w⟩
  intro first held
  refine ⟨?_, ?_, fun i => ⟨RetryPolicy.value_wait_iff held i, Retry.wait_of_late⟩⟩
  · obtain ⟨last, least, done⟩ :=
      Retry.run_eq (p.attemptCounted base quote) held (p.counters, w)
    have outcomes : Retry.outcomeAt (p.attemptCounted base quote) (p.counters, w) =
        p.resultAt base quote w := funext fun k => p.outcomeAt_counted base quote w p.counters k
    have world := p.stateAfter_counted base quote w p.counters (last + 1)
    rw [outcomes] at least done
    refine ⟨last, least, ?_⟩
    unfold fetchQuote
    rw [done, ← world]
    rcases p.resultAt base quote w last with f | price
    · exact ⟨(handedOn_error _ _ _ _ f).symm, rfl, rfl⟩
    · exact ⟨rfl, rfl, rfl⟩
  · obtain ⟨milliseconds, near, _, near'⟩ := RetryPolicy.firstWait?_parts held
    refine ⟨milliseconds, near, ?_, near'⟩
    intro small
    obtain ⟨_, fits, same⟩ := Binary64.exists_whole small
    exact near.value_eq fits same

/-- A provider that cannot be reached. -/
def unreachable : Provider Unit :=
  ⟨"a", .crypto, fun _ _ w =>
    (⟨.error (.fault (.provider ⟨.transport "x", none⟩)), true, true⟩, w), .zero⟩

/-- Waits of nothing, of which the 1025th is the longest one, and a wait that is past all numbers. -/
theorem no_backoff_and_too_much :
    (unreachable.fetchQuote ⟨1026, 0, by decide⟩ ⟨0, some 0⟩ "BTC" "USD" ()).2.1.getLast? =
        some Retry.longestWait ∧
      unreachable.fetchQuote ⟨3, 2 ^ 1024, by decide⟩ ⟨0, some 0⟩ "BTC" "USD" () =
        (.error (.defect .outOfRange), [], unreachable, ()) := by
  constructor
  · obtain ⟨tried, _⟩ :=
      unreachable.fetchQuote_backs_off "BTC" "USD" () ⟨1026, 0, by decide⟩ ⟨0, some 0⟩
    obtain ⟨⟨last, ⟨stop, _⟩, _, waits, _⟩, _, wait⟩ := tried ⟨false, 0, -1074⟩ rfl
    have all : last = 1025 := by
      rcases stop with all | ⟨j, _, final⟩
      · exact Nat.succ.inj all
      · exact absurd ⟨_, rfl, rfl⟩ final
    rw [waits, all, List.range_succ, List.map_append, List.map_singleton, List.getLast?_concat]
    exact congrArg some ((wait 1024).2 le_rfl)
  · obtain ⟨_, past, failed⟩ :=
      unreachable.fetchQuote_backs_off "BTC" "USD" () ⟨3, 2 ^ 1024, by decide⟩ ⟨0, some 0⟩
    simp only [Nat.cast_pow, Nat.cast_ofNat] at past
    exact failed (past.mpr (sub_le_self _ (by positivity)))

end Provider
end QuoteDesk
