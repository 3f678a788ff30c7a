import Mathlib.Logic.Function.Basic
import QuoteDesk.Proofs.Provider.Course
import QuoteDesk.Proofs.Provider.Outcome

/-
What the counters of a source tell of the calls it has had. Requests and errors are counted inside the
attempts and quotes behind them, but a call that gives a quote ends with a request that did not break
off; so quotes and errors together are never more than requests, whatever the other calls came to.
-/
namespace QuoteDesk

/-- No response came, or none in time. -/
def Reply.isBroken : Reply → Bool
  | .disconnected _ | .timedOut => true
  | .response _ _ | .refused => false

/-- How many of the exchanges broke off. -/
def brokenIn (exchanges : List (String × Reply)) : Nat := exchanges.countP (·.2.isBroken)

theorem brokenIn_append (xs ys : List (String × Reply)) :
    brokenIn (xs ++ ys) = brokenIn xs + brokenIn ys := List.countP_append

theorem brokenIn_singleton (x : String × Reply) : brokenIn [x] = x.2.isBroken.toNat := by
  obtain ⟨address, r⟩ := x
  cases r <;> rfl

theorem brokenIn_le (exchanges : List (String × Reply)) : brokenIn exchanges ≤ exchanges.length :=
  List.countP_le_length

/-- A source is asked for the price of a pair: with or without a connection, under a policy, and at a
time that is looked up when the price is there. -/
structure Inquiry where
  source : Source
  connected : Bool
  policy : RetryPolicy
  now : Moment
  base : String
  quote : String

/-- An inquiry with the requests that were sent for it, their replies, and what came of it. -/
structure PriceCall where
  inquiry : Inquiry
  exchanges : List (String × Reply)
  outcome : Outcome Quote

/-- The exchanges of all calls. -/
def exchangesOf (calls : List PriceCall) : List (String × Reply) := calls.flatMap (·.exchanges)

/-- The calls that gave a quote. -/
def returned (calls : List PriceCall) : List PriceCall := calls.filter (·.outcome.isOk)

/-- The counters are those of the calls. -/
structure Counters.Account (c : Counters) (calls : List PriceCall) : Prop where
  requests : c.requests = (exchangesOf calls).length
  quotes : c.quotes = (returned calls).length
  errors : c.errors = brokenIn (exchangesOf calls)
  within : c.quotes + c.errors ≤ c.requests
  unknown : c.lastUpdate = none ↔ c.quotes = 0
  latest : c.lastUpdate = (returned calls).getLast?.map (·.inquiry.now)
  times : ∀ call ∈ calls, ∀ q, call.outcome = .ok q → q.fetchedAt = call.inquiry.now

/-- None of the numbers is less than before. -/
structure Counters.Grows (c c' : Counters) : Prop where
  requests : c.requests ≤ c'.requests
  quotes : c.quotes ≤ c'.quotes
  errors : c.errors ≤ c'.errors

/-- The sources on one line, with the calls they have had. -/
structure Bureau (ω : Type) where
  providers : Source → Provider (Line ω)
  line : Line ω
  calls : List PriceCall

namespace Line

variable {ω : Type} [Wire ω] {l l' l'' : Line ω} {xs ys : List (String × Reply)}

/-- The line with its connection up or down. -/
def switched (l : Line ω) (connected : Bool) : Line ω := { l with connected := connected }

/-- What was asked between two states of a line, and what its wire replied. -/
def heard (before after : Line ω) : List (String × Reply) :=
  Wire.replies before.wire (after.requests.drop before.requests.length)

/-- The exchanges that lead from one state of a line to another. -/
inductive Hears : Line ω → List (String × Reply) → Line ω → Prop where
  | nothing (l : Line ω) : Hears l [] l
  | reply {l l' : Line ω} {more : List (String × Reply)} (address : String)
    (later : Hears ⟨(Wire.request l.wire address).2, l.connected, l.requests ++ [address]⟩ more l') :
    Hears l ((address, (Wire.request l.wire address).1) :: more) l'

theorem Hears.trans (first : Hears l xs l') (second : Hears l' ys l'') : Hears l (xs ++ ys) l'' := by
  induction first with
  | nothing l => exact second
  | reply address later ih => exact .reply address (ih second)

theorem Hears.connected_eq (hears : Hears l xs l') : l'.connected = l.connected := by
  induction hears with
  | nothing l => rfl
  | reply address later ih => exact ih

theorem Hears.requests_eq (hears : Hears l xs l') : l'.requests = l.requests ++ xs.map Prod.fst := by
  induction hears with
  | nothing l => rw [List.map_nil, List.append_nil]
  | reply address later ih => rw [ih, List.append_assoc, List.map_cons, List.singleton_append]

theorem Hears.replies_eq (hears : Hears l xs l') : Wire.replies l.wire (xs.map Prod.fst) = xs := by
  induction hears with
  | nothing l => rfl
  | reply address later ih =>
    rw [List.map_cons, Wire.replies]
    exact congrArg _ ih

theorem Hears.heard_eq (hears : Hears l xs l') : l.heard l' = xs := by
  rw [heard, hears.requests_eq, List.drop_left, hears.replies_eq]

end Line

/-! The attempts of a call -/

/-- The counters after some exchanges. -/
def Counters.charged (c : Counters) (exchanges : List (String × Reply)) : Counters :=
  { c with
    requests := c.requests + exchanges.length
    errors := c.errors + brokenIn exchanges }

theorem Counters.charged_append (c : Counters) (xs ys : List (String × Reply)) :
    (c.charged xs).charged ys = c.charged (xs ++ ys) := by
  simp only [charged, brokenIn_append, List.length_append, Nat.add_assoc]

variable {ω : Type} [Wire ω]

namespace Source

/-- Attempts at a source: what was exchanged is charged, and each request was one for the pair on a
line that was up. If they end with a price, it is a number, and some request did not break off. -/
structure Tries (s : Source) (base quote : String) (exchanges : List (String × Reply))
    (before : Counters × Line ω) (o : Outcome Numeral) (after : Counters × Line ω) : Prop where
  hears : Line.Hears before.2 exchanges after.2
  charged : after.1 = before.1.charged exchanges
  asked : ∀ x ∈ exchanges, before.2.connected = true ∧ s.address base quote = .ok x.1
  priced : ∀ price, o = .ok price →
    (∃ d, price = .finite d) ∧ brokenIn exchanges < exchanges.length

variable {s : Source} {base quote : String} {st st' st'' : Counters × Line ω}
  {xs ys : List (String × Reply)}

theorem Tries.again {f : Failure} {o : Outcome Numeral}
    (first : s.Tries base quote xs st (.error f) st') (more : s.Tries base quote ys st' o st'') :
    s.Tries base quote (xs ++ ys) st o st'' := by
  constructor
  · exact first.hears.trans more.hears
  · rw [more.charged, first.charged, Counters.charged_append]
  · intro x member
    rcases List.mem_append.mp member with before | later
    · exact first.asked x before
    · rw [← first.hears.connected_eq]
      exact more.asked x later
  · intro price ended
    obtain ⟨finite, unbroken⟩ := more.priced price ended
    have broken := brokenIn_le xs
    rw [brokenIn_append, List.length_append]
    exact ⟨finite, by omega⟩

/-- An attempt that failed before anything was sent. -/
theorem tries_nothing (s : Source) (base quote : String) (st : Counters × Line ω) (f : Failure) :
    s.Tries base quote [] st (.error f) st := by
  constructor
  · exact .nothing st.2
  · rfl
  · intro x absurd
    cases absurd
  · intro price absurd
    cases absurd

/-- A price is read from a response only, and is a number. -/
theorem attemptOf_cases (s : Source) (quote : String) (r : Reply) :
    (s.attemptOf quote r).sent = true ∧ (s.attemptOf quote r).broken = r.isBroken ∧
      ∀ price, (s.attemptOf quote r).outcome = .ok price →
        (∃ d, price = .finite d) ∧ r.isBroken = false := by
  cases r with
  | response status body =>
    refine ⟨rfl, rfl, ?_⟩
    intro price read
    obtain ⟨d, _, same⟩ := ok_of_map read
    exact ⟨⟨d, same.symm⟩, rfl⟩
  | disconnected | timedOut | refused =>
    refine ⟨rfl, rfl, ?_⟩
    intro price absurd
    cases absurd

/-- Either nothing is sent, or the one address of the pair is asked. -/
theorem attempt_cases (s : Source) (base quote : String) (l : Line ω) :
    (∃ f, s.attempt base quote l = (⟨.error f, false, false⟩, l)) ∨
      ∃ url, s.address base quote = .ok url ∧ l.connected = true ∧ s.attempt base quote l =
        (s.attemptOf quote (Wire.request l.wire url).1,
          ⟨(Wire.request l.wire url).2, l.connected, l.requests ++ [url]⟩) := by
  unfold attempt
  cases s.address base quote with
  | error cause => exact .inl ⟨_, rfl⟩
  | ok url =>
    dsimp only
    split
    · rename_i up
      exact .inr ⟨url, rfl, up, rfl⟩
    · exact .inl ⟨_, rfl⟩

variable {p : Provider (Line ω)}

theorem tries_once (same : p.attempt = s.attempt) (base quote : String) (st : Counters × Line ω) :
    ∃ exchanges, s.Tries base quote exchanges st (p.attemptCounted base quote st).1
      (p.attemptCounted base quote st).2 := by
  obtain ⟨c, l⟩ := st
  rw [Provider.attemptCounted, same]
  rcases s.attempt_cases base quote l with ⟨f, quiet⟩ | ⟨url, address, up, asked⟩
  · rw [quiet]
    exact ⟨[], s.tries_nothing base quote (c, l) f⟩
  · obtain ⟨sent, broken, priced⟩ := s.attemptOf_cases quote (Wire.request l.wire url).1
    rw [asked]
    refine ⟨[(url, (Wire.request l.wire url).1)], .reply url (.nothing _), ?_, ?_, ?_⟩
    · dsimp only
      rw [sent, broken, Counters.charged, brokenIn_singleton]
      rfl
    · intro x member
      rw [List.mem_singleton.mp member]
      exact ⟨up, address⟩
    · intro price read
      obtain ⟨finite, unbroken⟩ := priced price read
      refine ⟨finite, ?_⟩
      rw [brokenIn_singleton, unbroken]
      exact Nat.one_pos

theorem tries_run (same : p.attempt = s.attempt) (policy : RetryPolicy) (base quote : String)
    (st : Counters × Line ω) :
    ∃ exchanges, s.Tries base quote exchanges st
      (Retry.run policy (p.attemptCounted base quote) st).1
      (Retry.run policy (p.attemptCounted base quote) st).2.2 := by
  apply Retry.run_related
    (R := fun st o st' => ∃ exchanges, s.Tries base quote exchanges st o st')
  · exact fun st => tries_once same base quote st
  · rintro st f st' o st'' ⟨xs, first⟩ ⟨ys, more⟩
    exact ⟨xs ++ ys, first.again more⟩
  · exact fun st _ => ⟨[], s.tries_nothing base quote st _⟩

end Source

/-! One call -/

namespace PriceCall

/-- Each request was one for the pair on a line that was up; and behind a quote, which has the time of
its call, there is a request that did not break off. -/
structure Sound (call : PriceCall) : Prop where
  asked : ∀ x ∈ call.exchanges, call.inquiry.connected = true ∧
    call.inquiry.source.address call.inquiry.base call.inquiry.quote = .ok x.1
  timed : ∀ q, call.outcome = .ok q → q.fetchedAt = call.inquiry.now
  answered : call.outcome.isOk = true → brokenIn call.exchanges < call.exchanges.length

/-- Without a connection, or without an address for the pair, nothing is sent. -/
def Barred (call : PriceCall) : Prop :=
  call.inquiry.connected = false ∨ call.inquiry.source = .kraken ∧
    ¬ (Symbol.isAsset call.inquiry.base.toList = true ∧
      Symbol.isAsset call.inquiry.quote.toList = true)

theorem Sound.silent {call : PriceCall} (sound : call.Sound) (barred : call.Barred) :
    call.exchanges = [] := by
  rw [List.eq_nil_iff_forall_not_mem]
  intro x member
  obtain ⟨up, address⟩ := sound.asked x member
  rcases barred with down | ⟨kraken, unknown⟩
  · rw [up] at down
    cases down
  · rw [kraken, Source.address] at address
    obtain ⟨name, named, _⟩ := ok_of_map address
    unfold Source.tickerPair at named
    split at named
    · rename_i known
      rw [Bool.and_eq_true] at known
      exact unknown known
    · cases named

end PriceCall

namespace Counters

/-- The counters after a call. -/
def booked (c : Counters) (call : PriceCall) : Counters :=
  match call.outcome with
  | .ok _ => { c.charged call.exchanges with
      quotes := c.quotes + 1
      lastUpdate := some call.inquiry.now }
  | .error _ => c.charged call.exchanges

theorem grows_booked (c : Counters) (call : PriceCall) : c.Grows (c.booked call) := by
  unfold booked
  split
  · exact ⟨Nat.le_add_right _ _, Nat.le_add_right _ _, Nat.le_add_right _ _⟩
  · exact ⟨Nat.le_add_right _ _, Nat.le_refl _, Nat.le_add_right _ _⟩

theorem Grows.refl (c : Counters) : c.Grows c := ⟨Nat.le_refl _, Nat.le_refl _, Nat.le_refl _⟩

theorem Grows.trans {c c' c'' : Counters} (first : c.Grows c') (second : c'.Grows c'') :
    c.Grows c'' := by
  constructor
  · exact Nat.le_trans first.requests second.requests
  · exact Nat.le_trans first.quotes second.quotes
  · exact Nat.le_trans first.errors second.errors

theorem account_zero : Counters.zero.Account [] := by
  constructor
  · rfl
  · rfl
  · rfl
  · exact Nat.le_refl 0
  · exact iff_of_true rfl rfl
  · rfl
  · intro call absurd
    cases absurd

theorem exchangesOf_snoc (calls : List PriceCall) (call : PriceCall) :
    exchangesOf (calls ++ [call]) = exchangesOf calls ++ call.exchanges := by
  rw [exchangesOf, List.flatMap_append, List.flatMap_singleton]
  rfl

/-- One more call, and the counters are those of all calls again. -/
theorem Account.booked {c : Counters} {calls : List PriceCall} (account : c.Account calls) {call : PriceCall}
    (sound : call.Sound) : (c.booked call).Account (calls ++ [call]) := by
  have broken := brokenIn_le call.exchanges
  have within := account.within
  have times : ∀ earlier ∈ calls ++ [call], ∀ q, earlier.outcome = .ok q →
      q.fetchedAt = earlier.inquiry.now := by
    intro earlier member
    rcases List.mem_append.mp member with before | last
    · exact account.times earlier before
    · rw [List.mem_singleton.mp last]
      exact sound.timed
  unfold Counters.booked
  cases ended : call.outcome with
  | ok q =>
    have unbroken := sound.answered (by rw [ended]; rfl)
    have one : returned (calls ++ [call]) = returned calls ++ [call] := by
      rw [returned, List.filter_append, List.filter_cons_of_pos (by rw [ended]; rfl)]
      rfl
    refine ⟨?_, ?_, ?_, ?_, ?_, ?_, times⟩
    · rw [exchangesOf_snoc, List.length_append, ← account.requests]
      rfl
    · rw [one, List.length_append, ← account.quotes]
      rfl
    · rw [exchangesOf_snoc, brokenIn_append, ← account.errors]
      rfl
    · simp only [charged]
      omega
    · exact iff_of_false (Option.some_ne_none _) (Nat.succ_ne_zero c.quotes)
    · rw [one, List.getLast?_concat]
      rfl
  | error f =>
    have none : returned (calls ++ [call]) = returned calls := by
      rw [returned, List.filter_append,
        List.filter_cons_of_neg (by rw [ended]; exact Bool.false_ne_true)]
      exact List.append_nil _
    refine ⟨?_, ?_, ?_, ?_, ?_, ?_, times⟩
    · rw [exchangesOf_snoc, List.length_append, ← account.requests]
      rfl
    · rw [none, ← account.quotes]
      rfl
    · rw [exchangesOf_snoc, brokenIn_append, ← account.errors]
      rfl
    · simp only [charged]
      omega
    · exact account.unknown
    · rw [none, ← account.latest]
      rfl

end Counters

/-- What comes of an inquiry that is put to a provider, and what it leaves behind. -/
def Inquiry.put (i : Inquiry) (p : Provider (Line ω)) (l : Line ω) :
    PriceCall × Provider (Line ω) × Line ω :=
  let (outcome, _, p, l') := p.fetchQuote i.policy i.now i.base i.quote (l.switched i.connected)
  (⟨i, (l.switched i.connected).heard l', outcome⟩, p, l')

/-- The call is sound, and nothing but the counters of the provider changes. -/
theorem Inquiry.put_booked (i : Inquiry) {p : Provider (Line ω)} (same : p.attempt = i.source.attempt)
    (l : Line ω) : (i.put p l).1.inquiry = i ∧ (i.put p l).1.Sound ∧
      (i.put p l).2.1 = { p with counters := p.counters.booked (i.put p l).1 } := by
  obtain ⟨exchanges, hears, charged, asked, priced⟩ :=
    Source.tries_run same i.policy i.base i.quote (p.counters, l.switched i.connected)
  unfold put Provider.fetchQuote
  generalize Retry.run i.policy (p.attemptCounted i.base i.quote)
    (p.counters, l.switched i.connected) = r at hears charged priced ⊢
  obtain ⟨o, waits, c, l'⟩ := r
  dsimp only at hears charged asked priced ⊢
  cases o with
  | error f =>
    rw [hears.heard_eq, charged]
    refine ⟨rfl, ⟨asked, ?_, ?_⟩, rfl⟩
    · intro q absurd
      cases absurd
    · intro absurd
      cases absurd
  | ok price =>
    obtain ⟨⟨d, rfl⟩, unbroken⟩ := priced price rfl
    rw [hears.heard_eq, charged]
    refine ⟨rfl, ⟨asked, ?_, fun _ => unbroken⟩, rfl⟩
    rintro q ⟨⟩
    rfl

/-! All calls -/

namespace Bureau

/-- Nobody has been asked yet. -/
def opened (wire : ω) : Bureau ω := ⟨Source.provider, ⟨wire, false, []⟩, []⟩

/-- The bureau after an inquiry. -/
def ask (b : Bureau ω) (i : Inquiry) : Bureau ω :=
  let (call, provider, line) := i.put (b.providers i.source) b.line
  ⟨Function.update b.providers i.source provider, line, b.calls ++ [call]⟩

/-- The bureau after a run of inquiries. -/
def run (b : Bureau ω) (inquiries : List Inquiry) : Bureau ω := inquiries.foldl ask b

/-- What a source has counted. -/
def counters (b : Bureau ω) (s : Source) : Counters := (b.providers s).counters

/-- The calls that a source has had. -/
def callsOf (b : Bureau ω) (s : Source) : List PriceCall := b.calls.filter (·.inquiry.source = s)

/-- The sources ask as they always do, each call has been sound, and the counters are those of the
calls. -/
structure Kept (b : Bureau ω) : Prop where
  attempt : ∀ s, (b.providers s).attempt = s.attempt
  account : ∀ s, (b.counters s).Account (b.callsOf s)
  sound : ∀ call ∈ b.calls, call.Sound

variable {b : Bureau ω}

theorem kept_opened (wire : ω) : (opened wire).Kept := by
  constructor
  · exact fun s => rfl
  · exact fun s => Counters.account_zero
  · intro call absurd
    cases absurd

theorem providers_ask_self (b : Bureau ω) (i : Inquiry) :
    (b.ask i).providers i.source = (i.put (b.providers i.source) b.line).2.1 :=
  Function.update_self ..

theorem providers_ask_of_ne (b : Bureau ω) {i : Inquiry} {s : Source} (other : s ≠ i.source) :
    (b.ask i).providers s = b.providers s := Function.update_of_ne other ..

theorem calls_ask (b : Bureau ω) (i : Inquiry) :
    (b.ask i).calls = b.calls ++ [(i.put (b.providers i.source) b.line).1] := rfl

/-- One source has the call, and its counters are booked with it; for the others nothing changes. -/
theorem Kept.ask_cases (kept : b.Kept) (i : Inquiry) (s : Source) :
    (∃ call : PriceCall, call.Sound ∧ (b.ask i).callsOf s = b.callsOf s ++ [call] ∧
        (b.ask i).counters s = (b.counters s).booked call) ∨
      ((b.ask i).callsOf s = b.callsOf s ∧ (b.ask i).counters s = b.counters s) := by
  obtain ⟨inquiry, sound, booked⟩ := i.put_booked (kept.attempt i.source) b.line
  simp only [callsOf, calls_ask, List.filter_append, counters]
  by_cases same : s = i.source
  · subst same
    refine .inl ⟨_, sound, ?_, ?_⟩
    · rw [List.filter_cons_of_pos (by rw [inquiry]; exact decide_eq_true rfl)]
      rfl
    · rw [providers_ask_self, booked]
  · refine .inr ⟨?_, ?_⟩
    · rw [List.filter_cons_of_neg (by rw [inquiry, decide_eq_true_eq]; exact Ne.symm same)]
      exact List.append_nil _
    · rw [providers_ask_of_ne b same]

theorem Kept.ask (kept : b.Kept) (i : Inquiry) : (b.ask i).Kept := by
  obtain ⟨_, sound, booked⟩ := i.put_booked (kept.attempt i.source) b.line
  constructor
  · intro s
    by_cases same : s = i.source
    · subst same
      rw [providers_ask_self, booked]
      exact kept.attempt i.source
    · rw [providers_ask_of_ne b same]
      exact kept.attempt s
  · intro s
    have account := kept.account s
    rcases kept.ask_cases i s with ⟨call, sound, calls, counters⟩ | ⟨calls, counters⟩
    · rw [calls, counters]
      exact account.booked sound
    · rw [calls, counters]
      exact account
  · intro call member
    rcases List.mem_append.mp member with before | last
    · exact kept.sound call before
    · rw [List.mem_singleton.mp last]
      exact sound

theorem Kept.grows_ask (kept : b.Kept) (i : Inquiry) (s : Source) :
    (b.counters s).Grows ((b.ask i).counters s) := by
  rcases kept.ask_cases i s with ⟨call, _, _, counters⟩ | ⟨_, counters⟩
  · rw [counters]
    exact Counters.grows_booked _ call
  · rw [counters]
    exact .refl _

theorem Kept.run (kept : b.Kept) (inquiries : List Inquiry) :
    (b.run inquiries).Kept ∧ (∀ s, (b.counters s).Grows ((b.run inquiries).counters s)) ∧
      (b.run inquiries).calls.map (·.inquiry) = b.calls.map (·.inquiry) ++ inquiries := by
  induction inquiries generalizing b with
  | nil => exact ⟨kept, fun s => .refl _, (List.append_nil _).symm⟩
  | cons i inquiries ih =>
    obtain ⟨inquiry, _, _⟩ := i.put_booked (kept.attempt i.source) b.line
    obtain ⟨still, grows, calls⟩ := ih (kept.ask i)
    refine ⟨still, ?_, ?_⟩
    · exact fun s => (kept.grows_ask i s).trans (grows s)
    · rw [Bureau.run, List.foldl_cons, ← Bureau.run, calls, calls_ask, List.map_append,
        List.append_assoc, List.map_singleton, inquiry]
      rfl

/-- After every run of inquiries, each with its own policy, pair, connection and time, the counters of
each source are those of its calls: as many requests as were sent, as many quotes as calls returned,
as many errors as requests broke off, and the time of the last call that returned. More calls make no
counter smaller, and calls without a connection or for symbols unknown to the ticker send nothing. -/
theorem run_keeps_account (wire : ω) (inquiries : List Inquiry) :
    ((opened wire).run inquiries).calls.map (·.inquiry) = inquiries ∧
      (∀ s, (((opened wire).run inquiries).counters s).Account
        (((opened wire).run inquiries).callsOf s)) ∧
      (∀ more s, (((opened wire).run inquiries).counters s).Grows
        (((opened wire).run (inquiries ++ more)).counters s)) ∧
      ∀ call ∈ ((opened wire).run inquiries).calls, call.Sound ∧
        (call.Barred → call.exchanges = []) := by
  obtain ⟨kept, _, calls⟩ := (kept_opened wire).run inquiries
  refine ⟨calls, kept.account, ?_, ?_⟩
  · intro more s
    obtain ⟨_, grows, _⟩ := kept.run more
    have both : (opened wire).run (inquiries ++ more) = ((opened wire).run inquiries).run more :=
      List.foldl_append ..
    rw [both]
    exact grows s
  · intro call member
    have sound := kept.sound call member
    exact ⟨sound, sound.silent⟩

/-- A wire that breaks off once before it tells the price of bitcoin. -/
def shakyWire : Playback :=
  ⟨[("https://api.coinbase.com/v2/prices/BTC-USD/spot", [.disconnected "reset",
    .response 200 "\x7b\"data\":\x7b\"amount\":\"67321.1\"\x7d\x7d"])]⟩

/-- A second call, without a connection, comes later but gives no quote. -/
def shakyRun : List Inquiry :=
  [⟨.coinbase, true, .standard, ⟨7, some 0⟩, "BTC", "USD"⟩,
    ⟨.coinbase, false, .standard, ⟨9, some 0⟩, "BTC", "USD"⟩,
    ⟨.kraken, true, .standard, ⟨3, some 0⟩, "B", "USD"⟩]

theorem shaky_run_account :
    ((opened shakyWire).run shakyRun).counters .coinbase = ⟨2, 1, 1, some ⟨7, some 0⟩⟩ ∧
      (((opened shakyWire).run shakyRun).counters .coinbase).Account
        (((opened shakyWire).run shakyRun).callsOf .coinbase) ∧
      ∀ call ∈ ((opened shakyWire).run shakyRun).calls, call.inquiry.connected = false →
        call.exchanges = [] := by
  obtain ⟨_, account, _, calls⟩ := run_keeps_account shakyWire shakyRun
  refine ⟨by decide +kernel, account .coinbase, ?_⟩
  intro call member down
  obtain ⟨_, silent⟩ := calls call member
  exact silent (.inl down)

end Bureau
end QuoteDesk
