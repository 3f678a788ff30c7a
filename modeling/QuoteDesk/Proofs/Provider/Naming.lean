import QuoteDesk.Proofs.Symbol
import QuoteDesk.Provider.Source

/-
Pairs by their name at the ticker. Both symbols stand side by side with nothing between them, so
the name does not tell where the base ends. Pairs that only differ in this are one request, and
the price in its reply is recorded for either of them; other pairs have names of their own.
-/
namespace QuoteDesk

/-- Two ways to cut one text in two. -/
inductive SameJoined (b q b' q' : String) : Prop where
  | same (base : b = b') (quote : q = q')
  | longer (part : String) (some : part ≠ "") (base : b' = b ++ part) (quote : q = part ++ q')
  | shorter (part : String) (some : part ≠ "") (base : b = b' ++ part) (quote : q' = part ++ q)

theorem sameJoined_iff {b q b' q' : String} : SameJoined b q b' q' ↔ b ++ q = b' ++ q' := by
  symm
  constructor
  · intro joined
    have chars := congrArg String.toList joined
    rw [String.toList_append, String.toList_append] at chars
    rcases List.append_eq_append_iff.mp chars with ⟨part, base, quote⟩ | ⟨part, base, quote⟩
    · have base : b' = b ++ String.ofList part := String.toList_inj.mp (by simpa using base)
      have quote : q = String.ofList part ++ q' := String.toList_inj.mp (by simpa using quote)
      by_cases none : String.ofList part = ""
      · rw [none, String.append_empty] at base
        rw [none, String.empty_append] at quote
        exact .same base.symm quote
      · exact .longer _ none base quote
    · have base : b = b' ++ String.ofList part := String.toList_inj.mp (by simpa using base)
      have quote : q' = String.ofList part ++ q := String.toList_inj.mp (by simpa using quote)
      by_cases none : String.ofList part = ""
      · rw [none, String.append_empty] at base
        rw [none, String.empty_append] at quote
        exact .same base quote.symm
      · exact .shorter _ none base quote
  · intro cut
    cases cut with
    | same base quote => rw [base, quote]
    | longer part some base quote => rw [base, quote, String.append_assoc]
    | shorter part some base quote => rw [base, quote, String.append_assoc]

/-- Where one of the two parts is as long as its counterpart, there is one way only. -/
theorem SameJoined.eq_of_length {b q b' q' : String} (cut : SameJoined b q b' q')
    (lengths : b.length = b'.length ∨ q.length = q'.length) : b = b' ∧ q = q' := by
  have long : ∀ part : String, part ≠ "" → 0 < part.length := fun part some =>
    Nat.pos_of_ne_zero fun none => some (String.length_eq_zero_iff.mp none)
  cases cut with
  | same base quote => exact ⟨base, quote⟩
  | longer part some base quote =>
    have more := long part some
    rw [base, quote, String.length_append, String.length_append] at lengths
    omega
  | shorter part some base quote =>
    have more := long part some
    rw [base, quote, String.length_append, String.length_append] at lengths
    omega

/-- One request under two names: the quote differs in nothing but the symbols written on it. -/
theorem Provider.fetchQuote_of_attempt {ω : Type} {p : Provider ω} {b q b' q' : String}
    (same : p.attempt b q = p.attempt b' q') (policy : RetryPolicy) (now : Moment) (w : ω) :
    (p.fetchQuote policy now b' q' w).1 =
      (p.fetchQuote policy now b q w).1.map fun quoted =>
        { quoted with base := b', quote := q' } := by
  have counted : p.attemptCounted b q = p.attemptCounted b' q' := by
    funext s
    rw [Provider.attemptCounted, Provider.attemptCounted, same]
  unfold Provider.fetchQuote
  rw [counted]
  generalize Retry.run policy (p.attemptCounted b' q') (p.counters, w) = r
  obtain ⟨failure | price, waits, counters, w'⟩ := r
  · rfl
  · cases price <;> rfl

namespace Source

theorem length_tickerSymbol (s : String) : (tickerSymbol s).length = s.length := by
  unfold tickerSymbol
  split
  · rename_i bitcoin
    rw [bitcoin]
    decide
  · rfl

/-- Every pair of symbols in the form in which they are kept has a name. -/
theorem tickerPair_of_settled {b q : String} (base : Symbol.Settled b) (quote : Symbol.Settled q) :
    tickerPair b q = .ok (tickerSymbol b ++ tickerSymbol q) := by
  rw [tickerPair, Symbol.isAsset_of_settled base, Symbol.isAsset_of_settled quote]
  rfl

variable {ω : Type} [Wire ω] {b q b' q' : String}

/-- A reply is read without a look at the pair, so one name is one price. -/
theorem attempt_of_tickerPair (same : tickerPair b q = tickerPair b' q') :
    kraken.attempt (ω := ω) b q = kraken.attempt b' q' := by
  funext l
  have addresses : kraken.address b q = kraken.address b' q' := by rw [address, address, same]
  have read : kraken.attemptOf q = kraken.attemptOf q' := by
    funext reply
    cases reply <;> rfl
  rw [attempt, attempt, addresses, read]

theorem name_of_attempt {l : Line ω} (connected : l.connected = true) {name name' : String}
    (here : tickerPair b q = .ok name) (there : tickerPair b' q' = .ok name')
    (same : kraken.attempt b q l = kraken.attempt b' q' l) : name = name' := by
  have asked := congrArg (fun r => r.2.requests) same
  simp only [attempt, address, here, there, connected, Except.map, ↓reduceIte] at asked
  have urls := List.singleton_inj.mp (List.append_cancel_left asked)
  exact (String.append_right_inj _).mp urls

/-- Two pairs are one request to the ticker exactly if their names are one text, be it cut in two
ways; then the price in its reply is recorded for each of them. With bases or with quotes of one
length this means that they are the same, but for the name of bitcoin. -/
theorem one_request_iff (base : Symbol.Settled b) (quote : Symbol.Settled q)
    (base' : Symbol.Settled b') (quote' : Symbol.Settled q') {l : Line ω}
    (connected : l.connected = true) :
    (tickerPair b q = tickerPair b' q' ↔
        SameJoined (tickerSymbol b) (tickerSymbol q) (tickerSymbol b') (tickerSymbol q')) ∧
      (kraken.attempt b q l = kraken.attempt b' q' l ↔ tickerPair b q = tickerPair b' q') ∧
      (tickerPair b q = tickerPair b' q' →
        ∀ (p : Provider (Line ω)) (policy : RetryPolicy) (now : Moment),
          p.attempt = kraken.attempt → (p.fetchQuote policy now b' q' l).1 =
            (p.fetchQuote policy now b q l).1.map fun quoted =>
              { quoted with base := b', quote := q' }) ∧
      (b.length = b'.length ∨ q.length = q'.length → tickerPair b q = tickerPair b' q' →
        tickerSymbol b = tickerSymbol b' ∧ tickerSymbol q = tickerSymbol q') := by
  have here := tickerPair_of_settled base quote
  have there := tickerPair_of_settled base' quote'
  have cut : tickerPair b q = tickerPair b' q' ↔
      SameJoined (tickerSymbol b) (tickerSymbol q) (tickerSymbol b') (tickerSymbol q') := by
    rw [here, there, Except.ok.injEq]
    exact sameJoined_iff.symm
  refine ⟨cut, ⟨fun same => ?_, fun same => ?_⟩, fun same p policy now known => ?_,
    fun lengths same => ?_⟩
  · rw [here, there, name_of_attempt connected here there same]
  · rw [attempt_of_tickerPair same]
  · apply Provider.fetchQuote_of_attempt
    rw [known]
    exact attempt_of_tickerPair same
  · rw [← length_tickerSymbol b, ← length_tickerSymbol b', ← length_tickerSymbol q,
      ← length_tickerSymbol q'] at lengths
    exact (cut.mp same).eq_of_length lengths

/-- A line on which the ticker tells the price of bitcoin in dollars. -/
def bitcoinLine : Line Playback :=
  ⟨⟨[("https://api.kraken.com/0/public/Ticker?pair=XBTUSD", [.response 200
    "\x7b\"result\":\x7b\"XXBTZUSD\":\x7b\"c\":[\"67321.1\",\"0.1\"]\x7d\x7d\x7d"])]⟩, true, []⟩

/-- Whoever asks for `XBTU` in `SD` is told the price of bitcoin in dollars. -/
theorem bitcoin_under_other_name :
    Symbol.Settled "BTC" ∧ Symbol.Settled "USD" ∧ Symbol.Settled "XBTU" ∧ Symbol.Settled "SD" ∧
      kraken.attempt "BTC" "USD" bitcoinLine = kraken.attempt "XBTU" "SD" bitcoinLine ∧
      (kraken.provider.fetchQuote ⟨3, 200, by decide⟩ ⟨0, some 0⟩ "XBTU" "SD" bitcoinLine).1 =
        .ok ⟨"XBTU", "SD", ⟨false, 673211, -1⟩, "kraken", ⟨0, some 0⟩⟩ := by
  have base : Symbol.Settled "BTC" := ⟨by decide, by decide, List.all_eq_true.mp rfl⟩
  have quote : Symbol.Settled "USD" := ⟨by decide, by decide, List.all_eq_true.mp rfl⟩
  have base' : Symbol.Settled "XBTU" := ⟨by decide, by decide, List.all_eq_true.mp rfl⟩
  have quote' : Symbol.Settled "SD" := ⟨by decide, by decide, List.all_eq_true.mp rfl⟩
  obtain ⟨names, attempts, fetched, _⟩ :=
    one_request_iff base quote base' quote' (l := bitcoinLine) rfl
  have same := names.mpr (.longer "U" (by decide) (by decide) (by decide))
  refine ⟨base, quote, base', quote', attempts.mpr same, ?_⟩
  rw [fetched same kraken.provider ⟨3, 200, by decide⟩ ⟨0, some 0⟩ rfl]
  decide +kernel

end Source
end QuoteDesk
