import QuoteDesk.Program
import QuoteDesk.Proofs.Desk.Serving

/-
A desk is a session whose lookups come one after the other: each enters, and gets the replies
of the wire right away. So no desk serves a quote for the wrong pair, whatever the wire
replies, and neither does a session in which lookups overtake each other.
-/
namespace QuoteDesk

/-- A request for a pair with its reply. -/
def Exchange.of (pair : Pair) (time : Moment) (x : String × Reply) : Exchange :=
  ⟨pair, x.1, x.2, time⟩

theorem Conversion.told_of_reportAt {c : Conversion} {cached : CachedQuote} {report : ConversionReport}
    (done : c.reportAt cached = .ok report) : report.pair = c.pair ∧ report.cached = cached := by
  obtain ⟨_, _, done⟩ := ok_of_bind done
  obtain ⟨_, _, done⟩ := ok_of_bind done
  obtain ⟨_, _, done⟩ := ok_of_bind done
  obtain ⟨_, _, done⟩ := ok_of_bind done
  obtain ⟨_, _, done⟩ := ok_of_bind done
  split at done
  · cases done
    exact ⟨rfl, rfl⟩
  · cases done

theorem Expression.told_of_plan {e : Expression} {plan : Plan} (planned : e.plan = .ok plan) :
    plan = .priced e.symbols ∨ ∃ result, plan = .finished result ∧ result.assets = [] := by
  unfold Expression.plan at planned
  split at planned
  · cases planned
  · obtain ⟨total, _, planned⟩ := ok_of_bind planned
    cases planned
    exact .inr ⟨_, rfl, rfl⟩
  · cases planned
    exact .inl rfl

theorem Expression.told_of_withPrices {e : Expression} {prices : List CachedQuote}
    {result : Evaluation} (done : e.withPrices prices = .ok result) :
    result.assets = e.symbols.zip prices ∧ result.target = e.target := by
  obtain ⟨_, _, done⟩ := ok_of_bind done
  cases done
  exact ⟨rfl, rfl⟩

namespace Session

variable {σ ω : Type} [Store σ] [Wire ω] {start : σ} {s : Session σ} {i : Nat} {pair : Pair}
  {now : Moment}

omit [Wire ω] in
theorem proceed_set (s : Session σ) (l : PriceLookup) (since : Moment) (entry : Option Entry)
    (course : Course (String × Numeral)) :
    ({ s with lookups := s.lookups.set i l } : Session σ).proceed i pair since entry now course =
      s.proceed i pair since entry now course := by
  cases course with
  | ends o => simp only [proceed, List.set_set]
  | asks address next => simp only [proceed, List.set_set]

omit [Wire ω] in
theorem receive_asking {since : Moment} {entry : Option Entry} {address : String}
    {next : Reply → Course (String × Numeral)} (there : i < s.lookups.length) (r : Reply) :
    (s.proceed i pair since entry now (.asks address next)).receive now i r =
      (s.log [.of pair now (address, r)]).proceed i pair since entry now (next r) := by
  simp only [receive, proceed, List.getElem?_set_self there]
  exact proceed_set (s.log [.of pair now (address, r)]) _ _ _ _

/-- A lookup that gets all its replies from a wire ends as its course does. -/
theorem reached_play {since : Moment} {entry : Option Entry} {course : Course (String × Numeral)}
    (proper : now.Proper) (there : i < s.lookups.length) (line : Line ω)
    (reached : Reached start (s.proceed i pair since entry now course)) :
    ∃ addresses, (course.play line).2.requests = line.requests ++ addresses ∧
      Reached start ((s.log ((Wire.replies line.wire addresses).map (.of pair now))).proceed i pair
        since entry now (.ends (course.play line).1)) := by
  induction course generalizing s line with
  | ends o =>
    refine ⟨[], (List.append_nil _).symm, ?_⟩
    rw [Wire.replies, List.map_nil, log_nil]
    exact reached
  | asks address next ih =>
    have heard := reached.receive proper i (Wire.request line.wire address).1
    rw [receive_asking there] at heard
    obtain ⟨addresses, requests, played⟩ := ih _ (s := s.log _) there
      ⟨(Wire.request line.wire address).2, line.connected, line.requests ++ [address]⟩ heard
    refine ⟨address :: addresses, ?_, ?_⟩
    · rw [Course.play, requests, List.append_assoc]
      rfl
    · rw [log_log] at played
      exact played

end Session

namespace Desk

variable {σ ω : Type} [Store σ] [Wire ω]

/-- What the line of a desk was asked for the price of a pair, with the replies of its wire. -/
def heardFor (d : Desk σ ω) (pair : Pair) : List Exchange :=
  (Wire.replies d.market.line.wire
    ((d.quotePair pair).2.market.line.requests.drop d.market.line.requests.length)).map
      (.of pair d.market.now)

/-- What has happened at a desk since it was opened. -/
structure Record where
  answers : List (Pair × Outcome CachedQuote)
  exchanges : List Exchange

def Record.add (r : Record) (d : Desk σ ω) (pair : Pair) : Record where
  answers := r.answers ++ [(pair, (d.quotePair pair).1)]
  exchanges := r.exchanges ++ d.heardFor pair

/-- What desks that open on a store and a wire can come to, with what has happened there: the
prices of any wanted pairs are asked for, and the clock is set to any time of the calendar. -/
inductive Reached (start : σ) (wire : ω) : Desk σ ω → Record → Prop where
  | opened {now : Moment} (proper : now.Proper) (policy : RetryPolicy) (connected : Bool)
      (defaultFiat : String) :
      Reached start wire ⟨Market.opened now policy wire connected, Cache.ofStore start, defaultFiat⟩
        ⟨[], []⟩
  | clock {d : Desk σ ω} {r : Record} (before : Reached start wire d r) {now : Moment}
      (proper : now.Proper) : Reached start wire { d with market := { d.market with now := now } } r
  | asked {d : Desk σ ω} {r : Record} (before : Reached start wire d r) {pair : Pair}
      (wanted : pair.Wanted) : Reached start wire (d.quotePair pair).2 (r.add d pair)

/-- A desk as a session all of whose lookups are done. -/
def session (d : Desk σ ω) (r : Record) : Session σ :=
  ⟨d.cache, r.exchanges, r.answers.map fun (pair, answer) => ⟨pair, .done answer⟩⟩

variable {start : σ} {wire : ω} {d : Desk σ ω} {r : Record} {pair : Pair}

theorem session_add {answer : Outcome CachedQuote} {d' : Desk σ ω}
    (quoted : d.quotePair pair = (answer, d')) {addresses : List String}
    (requests : d'.market.line.requests = d.market.line.requests ++ addresses) :
    (d.quotePair pair).2.session (r.add d pair) =
      ⟨d'.cache, (d.session r).exchanges ++
          (Wire.replies d.market.line.wire addresses).map (.of pair d.market.now),
        (d.session r).lookups ++ [⟨pair, .done answer⟩]⟩ := by
  simp only [session, Record.add, heardFor, quoted, requests, List.drop_left, List.map_append,
    List.map_cons, List.map_nil]

/-- One more price at the desk is one more lookup of the session, from its start to its end. -/
theorem reached_session_add (reached : Session.Reached start (d.session r)) (ranked : d.market.Ranked)
    (proper : d.market.now.Proper) (wanted : pair.Wanted) :
    Session.Reached start ((d.quotePair pair).2.session (r.add d pair)) := by
  -- the lookup stands last, and every reply of the wire comes before anything else happens
  have entered := (reached.ask wanted).enter d.market.policy d.market.line.connected proper
    (d.session r).lookups.length
  have same : (d.session r).cache = d.cache := rfl
  simp only [Session.enter, List.getElem?_concat_length, same] at entered
  rcases look : d.cache.look d.market.now pair.key pair.kind.freshSeconds with ⟨f | a | entry, c⟩
  · have quoted : d.quotePair pair = (.error f, { d with cache := c }) := by
      simp only [quotePair, Cache.lookup, look]
    rw [session_add quoted (List.append_nil _).symm]
    simpa [look, Wire.replies] using entered
  · have quoted : d.quotePair pair = (.ok a, { d with cache := c }) := by
      simp only [quotePair, Cache.lookup, look]
    rw [session_add quoted (List.append_nil _).symm]
    simpa [look, Wire.replies] using entered
  · obtain ⟨fetched, line⟩ := Market.fetch_eq_play ranked pair
    simp only [look] at entered
    obtain ⟨addresses, requests, played⟩ :=
      Session.reached_play proper (by simp) d.market.line entered
    have quoted : d.quotePair pair =
        ((c.settle d.market.now pair.key pair.kind.freshSeconds entry (d.market.fetch pair).1).1,
          ⟨(d.market.fetch pair).2,
            (c.settle d.market.now pair.key pair.kind.freshSeconds entry (d.market.fetch pair).1).2,
            d.defaultFiat⟩) := by
      simp only [quotePair, Cache.lookup, look]
    rw [← line] at requests
    rw [session_add quoted requests, fetched]
    simpa [Session.proceed, Session.log] using played

theorem session_of_reached (reached : Reached start wire d r) :
    Session.Reached start (d.session r) ∧ d.market.Ranked ∧ d.market.now.Proper := by
  induction reached with
  | @opened now proper policy connected defaultFiat =>
    exact ⟨.start, Market.ranked_opened now policy wire connected, proper⟩
  | clock before proper ih => exact ⟨ih.1, ih.2.1, proper⟩
  | @asked d r before pair wanted ih =>
    obtain ⟨reached, ranked, proper⟩ := ih
    refine ⟨reached_session_add reached ranked proper wanted, ranked_quotePair ranked pair, ?_⟩
    rw [now_quotePair]
    exact proper

/-! Commands -/

/-- More has happened since. -/
structure Record.Grows (r r' : Record) : Prop where
  answers : r.answers <+: r'.answers
  exchanges : r.exchanges <+: r'.exchanges

/-- The price of a symbol in a target was answered, for a pair of either kind. -/
def Record.Tells (r : Record) (target symbol : String) (a : CachedQuote) : Prop :=
  ∃ kind, (⟨kind, symbol, target⟩, .ok a) ∈ r.answers

theorem Record.grows_refl (r : Record) : r.Grows r :=
  ⟨List.prefix_refl _, List.prefix_refl _⟩

theorem Record.Grows.trans {r r' r'' : Record} (first : r.Grows r') (second : r'.Grows r'') :
    r.Grows r'' :=
  ⟨first.answers.trans second.answers, first.exchanges.trans second.exchanges⟩

theorem Record.Tells.grows {r r' : Record} {target symbol : String} {a : CachedQuote}
    (tells : r.Tells target symbol a) (grows : r.Grows r') : r'.Tells target symbol a := by
  obtain ⟨kind, answered⟩ := tells
  exact ⟨kind, grows.answers.subset answered⟩

/-- A step leads the desk on, and what has happened then tells of its result. -/
def Leads {α : Type} (start : σ) (wire : ω) (r : Record) (told : Record → α → Prop)
    (x : Outcome α × Desk σ ω) : Prop :=
  ∃ r', r.Grows r' ∧ Reached start wire x.2 r' ∧ ∀ a, x.1 = .ok a → told r' a

variable {α β : Type} {told : Record → α → Prop}

theorem Reached.leads_error (reached : Reached start wire d r) (f : Failure) :
    Leads start wire r told (.error f, d) :=
  ⟨r, r.grows_refl, reached, fun _ absurd => by cases absurd⟩

theorem Leads.mono {told' : Record → β → Prop} {x : Outcome α × Desk σ ω} {o : Outcome β}
    (leads : Leads start wire r told x)
    (more : ∀ r' b, o = .ok b → (∀ a, x.1 = .ok a → told r' a) → told' r' b) :
    Leads start wire r told' (o, x.2) := by
  obtain ⟨r', grows, reached, tells⟩ := leads
  exact ⟨r', grows, reached, fun b done => more r' b done tells⟩

theorem Reached.leads_quotePair (reached : Reached start wire d r) (wanted : pair.Wanted) :
    Leads start wire r (fun r' a => (pair, .ok a) ∈ r'.answers) (d.quotePair pair) := by
  refine ⟨r.add d pair, ⟨List.prefix_append _ _, List.prefix_append _ _⟩, reached.asked wanted, ?_⟩
  intro a answer
  rw [Record.add, answer]
  exact List.mem_append_right _ (List.mem_singleton_self _)

theorem Reached.leads_convert (reached : Reached start wire d r) (kind : PairKind)
    (base quote amount : String) :
    Leads start wire r (fun r' report => (report.pair, .ok report.cached) ∈ r'.answers)
      (d.convert kind base quote amount) := by
  unfold convert
  cases read : Conversion.read kind base quote amount with
  | error f => exact reached.leads_error f
  | ok c =>
    apply (reached.leads_quotePair (.conversion read)).mono
    intro r' report done tells
    obtain ⟨cached, answer, done⟩ := ok_of_bind done
    obtain ⟨same, own⟩ := Conversion.told_of_reportAt done
    rw [same, own]
    exact tells cached answer

section Expression

variable {text default symbol : String} {e : Expression}
  (read : Expression.read text default = .ok e)

include read

theorem Reached.leads_quoteAsCrypto (reached : Reached start wire d r) (mentioned : symbol ∈ e.symbols)
    (trace : List String) :
    Leads start wire r (fun r' a => r'.Tells e.target symbol a)
      (d.quoteAsCrypto symbol e.target trace) := by
  have named := Symbol.readAsset_of_settled "base" ((Expression.settled_of_read read).1 _ mentioned)
  have quoted := reached.leads_quotePair (.asset read mentioned named)
  unfold quoteAsCrypto
  rw [named]
  dsimp only
  split
  · rename_i f d' failed
    rw [failed] at quoted
    apply quoted.mono
    intro r' a absurd
    cases absurd
  · apply quoted.mono
    intro r' a answer tells
    exact ⟨.crypto, tells a answer⟩

theorem Reached.leads_quoteAsset (reached : Reached start wire d r) (mentioned : symbol ∈ e.symbols) :
    Leads start wire r (fun r' a => r'.Tells e.target symbol a) (d.quoteAsset symbol e.target) := by
  unfold quoteAsset
  split
  · rename_i fiat
    have quoted := reached.leads_quotePair (.currency read mentioned fiat)
    split
    · rename_i f d' failed
      rw [failed] at quoted
      obtain ⟨r', grows, reached', _⟩ := quoted
      -- a currency without a price as one is priced as an asset, at the same desk
      obtain ⟨r'', grows', rest⟩ := reached'.leads_quoteAsCrypto read mentioned ["fx: " ++ f.text]
      exact ⟨r'', grows.trans grows', rest⟩
    · apply quoted.mono
      intro r' a answer tells
      exact ⟨.fx, tells a answer⟩
  · exact reached.leads_quoteAsCrypto read mentioned []

theorem Reached.leads_quoteAssets {symbols : List String} (reached : Reached start wire d r)
    (mentioned : ∀ s ∈ symbols, s ∈ e.symbols) :
    Leads start wire r (fun r' as => ∀ x ∈ symbols.zip as, r'.Tells e.target x.1 x.2)
      (d.quoteAssets e.target symbols) := by
  induction symbols generalizing d r with
  | nil => exact ⟨r, r.grows_refl, reached, fun _ _ x absurd => by cases absurd⟩
  | cons s more ih =>
    obtain ⟨r', grows, reached', first⟩ := reached.leads_quoteAsset read (mentioned s (by simp))
    obtain ⟨r'', grows', reached'', rest⟩ :=
      ih reached' fun s' member => mentioned s' (List.mem_cons_of_mem s member)
    refine ⟨r'', grows.trans grows', reached'', ?_⟩
    intro as done
    obtain ⟨a, answer, done⟩ := ok_of_bind done
    obtain ⟨as, answers, done⟩ := ok_of_bind done
    cases done
    intro x member
    rcases List.mem_cons.mp member with rfl | later
    · exact (first a answer).grows grows'
    · exact rest as answers x later

theorem Reached.leads_evaluate (reached : Reached start wire d r) :
    Leads start wire r (fun r' result => ∀ x ∈ result.assets, r'.Tells result.target x.1 x.2)
      (d.evaluate e) := by
  unfold evaluate
  cases planned : e.plan with
  | error f => exact reached.leads_error f
  | ok plan =>
    rcases Expression.told_of_plan planned with rfl | ⟨result, rfl, none⟩
    · apply (reached.leads_quoteAssets read fun _ member => member).mono
      intro r' result done tells
      obtain ⟨prices, answers, done⟩ := ok_of_bind done
      obtain ⟨assets, target⟩ := Expression.told_of_withPrices done
      rw [assets, target]
      exact tells prices answers
    · refine ⟨r, r.grows_refl, reached, ?_⟩
      rintro _ ⟨⟩ x member
      rw [none] at member
      cases member

end Expression

theorem Reached.leads_query (reached : Reached start wire d r) (text : String)
    (target : Option String) : Leads start wire r (fun _ _ => True) (d.query text target) := by
  unfold query
  cases read : Expression.read text (d.targetOf target) with
  | error f => exact reached.leads_error _
  | ok e =>
    apply (reached.leads_evaluate read).mono
    exact fun _ _ _ _ => trivial

theorem Reached.leads_carryOut (reached : Reached start wire d r) (i : Invocation) :
    Leads start wire r (fun _ _ => True) (d.carryOut i) := by
  unfold carryOut
  cases i.command with
  | convert kind base quote amount =>
    apply (reached.leads_convert kind base quote amount).mono
    exact fun _ _ _ _ => trivial
  | evaluate text target =>
    apply (reached.leads_query text target).mono
    exact fun _ _ _ _ => trivial

/-- No quote is served for the wrong pair. However lookups go on side by side, what one of them
answers is one of its own pair; and so is what a desk over a wire answers, whose replies are the
only ones it has heard. The prices in reports and evaluations are such answers, and commands ask
for prices in no other way. -/
theorem answers_serve [Store.Keeping σ] (empty : Store.Holds (fun _ _ => False) start) (wire : ω) :
    (∀ s : Session σ, Session.Reached start s → ∀ l ∈ s.lookups, ∀ a,
      l.stage = .done (.ok a) → a.Serves s.exchanges l.pair) ∧
    (∀ (d : Desk σ ω) (r : Record), Reached start wire d r →
      (∀ pair a, (pair, .ok a) ∈ r.answers → a.Serves r.exchanges pair) ∧
      (∀ kind base quote amount, Leads start wire r
        (fun r' report => (report.pair, .ok report.cached) ∈ r'.answers)
        (d.convert kind base quote amount)) ∧
      (∀ text default e, Expression.read text default = .ok e → Leads start wire r
        (fun r' result => ∀ x ∈ result.assets, r'.Tells result.target x.1 x.2) (d.evaluate e)) ∧
      ∀ i, Leads start wire r (fun _ _ => True) (d.carryOut i)) := by
  refine ⟨fun s reached l member a done => Session.serves_of_reached empty reached member done, ?_⟩
  intro d r reached
  refine ⟨?_, reached.leads_convert, fun text default e read => reached.leads_evaluate read,
    reached.leads_carryOut⟩
  intro pair a answered
  exact Session.serves_of_reached empty (session_of_reached reached).1
    (List.mem_map_of_mem answered) rfl

/-! Two lookups side by side: the one that entered last gets its reply first. -/

def bitcoin : Pair := ⟨.crypto, "BTC", "USD"⟩

def ether : Pair := ⟨.crypto, "ETH", "USD"⟩

def amountReply (amount : String) : Reply :=
  .response 200 ("\x7b\"data\":\x7b\"amount\":\"" ++ amount ++ "\"\x7d\x7d")

/-- Both have been asked for, and both have sent a request. -/
def bothAsking : Session Memory :=
  (Session.enter ⟨Cache.ofStore .empty, [], [⟨bitcoin, .waiting⟩, ⟨ether, .waiting⟩]⟩ .standard true
    ⟨0, some 0⟩ 0).enter .standard true ⟨1, some 0⟩ 1

def crossed : Session Memory :=
  (bothAsking.receive ⟨2, some 0⟩ 1 (amountReply "3000")).receive ⟨3, some 0⟩ 0 (amountReply "70000")

def liveAnswer (p : Pair) (price : Nat) (time : Moment) : CachedQuote :=
  ⟨⟨p.base, p.quote, .ofNat price, "coinbase", time⟩, .live, p.key, 300, 0⟩

theorem crossed_lookups_serve :
    Session.Reached Memory.empty crossed ∧
      crossed.lookups.map (fun l => (l.pair, l.stage.answer?)) =
        [(bitcoin, some (liveAnswer bitcoin 70000 ⟨3, some 0⟩)),
          (ether, some (liveAnswer ether 3000 ⟨2, some 0⟩))] ∧
      (liveAnswer bitcoin 70000 ⟨3, some 0⟩).Serves crossed.exchanges bitcoin ∧
      (liveAnswer ether 3000 ⟨2, some 0⟩).Serves crossed.exchanges ether := by
  have wanted : bitcoin.Wanted := .conversion (c := ⟨bitcoin, .ofNat 1⟩)
    (ok_of_toOption (show (Conversion.read .crypto "btc" "usd" "1").toOption = _ by decide +kernel))
  have wanted' : ether.Wanted := .conversion (c := ⟨ether, .ofNat 1⟩)
    (ok_of_toOption (show (Conversion.read .crypto "eth" "usd" "1").toOption = _ by decide +kernel))
  have proper : ∀ ticks : Int, 0 ≤ ticks → ticks < 4 → (⟨ticks, some 0⟩ : Moment).Proper := by
    intro ticks atLeast below
    constructor
    · simp only [Moment.inCalendar, Bool.and_eq_true, decide_eq_true_eq]
      have long : 4 < Moment.endOfCalendar := by decide
      omega
    · rintro minutes ⟨⟩
      decide
  have asking : Session.Reached Memory.empty bothAsking :=
    (((Session.Reached.start.ask wanted).ask wanted').enter .standard true
      (proper 0 (by decide) (by decide)) 0).enter .standard true (proper 1 (by decide) (by decide)) 1
  have reached : Session.Reached Memory.empty crossed :=
    (asking.receive (proper 2 (by decide) (by decide)) 1 (amountReply "3000")).receive
      (proper 3 (by decide) (by decide)) 0 (amountReply "70000")
  have answers : crossed.lookups.map (fun l => (l.pair, l.stage.answer?)) =
      [(bitcoin, some (liveAnswer bitcoin 70000 ⟨3, some 0⟩)),
        (ether, some (liveAnswer ether 3000 ⟨2, some 0⟩))] := by
    decide +kernel
  obtain ⟨served, _⟩ := answers_serve (Memory.holds_empty _) (⟨"down"⟩ : DeadWire)
  have serves : ∀ x ∈ crossed.lookups.map (fun l => (l.pair, l.stage.answer?)), ∀ a,
      x.2 = some a → a.Serves crossed.exchanges x.1 := by
    intro x member a answer
    obtain ⟨l, there, rfl⟩ := List.mem_map.mp member
    exact served crossed reached l there a (Stage.done_of_answer? answer)
  rw [answers] at serves
  refine ⟨reached, answers, ?_, ?_⟩
  · exact serves (bitcoin, some _) List.mem_cons_self _ rfl
  · exact serves (ether, some _) (List.mem_cons_of_mem _ List.mem_cons_self) _ rfl

end Desk
end QuoteDesk
