import QuoteDesk.Proofs.Provider.Ranked
import QuoteDesk.Proofs.Steps

/-
A search for a price with the network taken out of it: it asks for one address after the
other and goes on with whatever reply comes back. A search that runs on a wire is such a
course played on that wire, so a course may as well be interrupted at each request.
-/
namespace QuoteDesk

/-- What a wire replies to addresses asked one after the other. -/
def Wire.replies {ω : Type} [Wire ω] (w : ω) : List String → List (String × Reply)
  | [] => []
  | address :: more =>
    let (reply, w) := Wire.request w address
    (address, reply) :: Wire.replies w more

/-- It has ended, or asks for an address and goes on with the reply. -/
inductive Course (α : Type) where
  | ends (o : Outcome α)
  | asks (address : String) (next : Reply → Course α)

namespace Course

variable {α β ω : Type}

def andThen (c : Course α) (more : Outcome α → Course β) : Course β :=
  match c with
  | .ends o => more o
  | .asks address next => .asks address fun r => (next r).andThen more

/-- What comes of it on a line. -/
def play [Wire ω] : Course α → Line ω → Outcome α × Line ω
  | .ends o, l => (o, l)
  | .asks address next, l =>
    let (reply, wire) := Wire.request l.wire address
    (next reply).play { l with wire := wire, requests := l.requests ++ [address] }

theorem play_andThen [Wire ω] (c : Course α) (more : Outcome α → Course β) (l : Line ω) :
    (c.andThen more).play l = (more (c.play l).1).play (c.play l).2 := by
  induction c generalizing l with
  | ends o => rfl
  | asks address next ih => exact ih _ _

theorem connected_play [Wire ω] (c : Course α) (l : Line ω) :
    (c.play l).2.connected = l.connected := by
  induction c generalizing l with
  | ends o => rfl
  | asks address next ih => exact ih _ _

/-- Every result comes of the exchange right before it, or was known from the start. -/
inductive Told (asked : String → Reply → α → Prop) : (α → Prop) → Course α → Prop where
  | failed {known : α → Prop} (f : Failure) : Told asked known (.ends (.error f))
  | ended {known : α → Prop} {a : α} (here : known a) : Told asked known (.ends (.ok a))
  | asks {known : α → Prop} {address : String} {next : Reply → Course α}
      (each : ∀ r, Told asked (asked address r) (next r)) : Told asked known (.asks address next)

theorem Told.mono {asked : String → Reply → α → Prop} {known known' : α → Prop} {c : Course α}
    (told : Told asked known c) (more : ∀ a, known a → known' a) : Told asked known' c := by
  cases told with
  | failed f => exact .failed f
  | ended here => exact .ended (more _ here)
  | asks each => exact .asks each

theorem Told.andThen {asked : String → Reply → α → Prop} {asked' : String → Reply → β → Prop}
    {known : α → Prop} {known' : β → Prop} {c : Course α} {more : Outcome α → Course β} {g : α → β}
    (told : Told asked known c) (done : ∀ a, more (.ok a) = .ends (.ok (g a)))
    (here : ∀ a, known a → known' (g a))
    (there : ∀ address r a, asked address r a → asked' address r (g a))
    (again : ∀ f known, Told asked' known (more (.error f))) : Told asked' known' (c.andThen more) := by
  induction told generalizing known' with
  | failed f => exact again f known'
  | @ended known a known_a =>
    simp only [Course.andThen, done]
    exact .ended (here a known_a)
  | @asks known address next each ih =>
    exact .asks fun r => ih r (there address r)

end Course

/-! The searches as courses -/

namespace Source

/-- One request, if there is an address and a connection. -/
def course (s : Source) (connected : Bool) (base quote : String) : Course Numeral :=
  match s.address base quote with
  | .error cause => .ends (.error (.fault (.provider ⟨cause, none⟩)))
  | .ok url =>
    if connected then .asks url fun r => .ends (s.attemptOf quote r).outcome
    else .ends (s.broken "HTTP session is not initialized")

/-- More requests while the failures may pass. -/
def persistent (attempt : Course Numeral) : Nat → Course Numeral
  | 0 => attempt
  | left + 1 => attempt.andThen fun o =>
    match o with
    | .error f => if f.retryable then persistent attempt left else .ends (.error f)
    | o => .ends o

/-- Requests under a policy, if it has a first wait. -/
def patient (policy : RetryPolicy) (attempt : Course Numeral) : Course Numeral :=
  match policy.firstWait? with
  | some _ => persistent attempt (policy.maxAttempts - 1)
  | none => .ends (.error (.defect .outOfRange))

/-- A price with the name of its source. -/
def priced (s : Source) (policy : RetryPolicy) (connected : Bool) (base quote : String) :
    Course (String × Numeral) :=
  (patient policy (s.course connected base quote)).andThen fun o =>
    match o with
    | .ok price => .ends (.ok (s.name, price))
    | .error f => .ends (.error (f.tagged s.name))

end Source

namespace Pair

/-- The price from the first of some sources that has one, after the failures in `trace`. -/
def courseFrom (policy : RetryPolicy) (connected : Bool) (pair : Pair) (trace : List String) :
    List Source → Course (String × Numeral)
  | [] => .ends (.error (Chain.exhausted pair trace))
  | s :: ss => (s.priced policy connected pair.base pair.quote).andThen fun o =>
    match o with
    | .error (.fault (.provider f)) =>
      courseFrom policy connected pair (trace ++ [s.name ++ ": " ++ f.text]) ss
    | o => .ends o

/-- The price from the best source that has one. -/
def course (policy : RetryPolicy) (connected : Bool) (pair : Pair) : Course (String × Numeral) :=
  pair.courseFrom policy connected [] (Source.ranked pair.kind)

/-- A priced pair at a time is a quote, if the price is a number. -/
def quoteAt (pair : Pair) (now : Moment) (o : Outcome (String × Numeral)) : Outcome Quote :=
  o >>= fun (name, price) => Provider.quoteOf name pair.base pair.quote now price

end Pair

section Play

variable {ω : Type} [Wire ω]

theorem Source.play_course (s : Source) (base quote : String) (l : Line ω) :
    (s.course l.connected base quote).play l =
      ((s.attempt base quote l).1.outcome, (s.attempt base quote l).2) := by
  unfold course attempt
  cases s.address base quote with
  | error cause => rfl
  | ok url =>
    dsimp only
    split
    · rfl
    · rfl

theorem Source.connected_attempt (s : Source) (base quote : String) (l : Line ω) :
    (s.attempt base quote l).2.connected = l.connected := by
  have played := Course.connected_play (s.course l.connected base quote) l
  rw [s.play_course] at played
  exact played

theorem Source.play_persistent {s : Source} {p : Provider (Line ω)} (same : p.attempt = s.attempt)
    (first : Binary64) (base quote : String) (left i : Nat) (c : Counters) (l : Line ω) :
    (persistent (s.course l.connected base quote) left).play l =
      ((Retry.attempts first (p.attemptCounted base quote) left i (c, l)).1,
        (Retry.attempts first (p.attemptCounted base quote) left i (c, l)).2.2.2) := by
  have once : ∀ c l, p.attemptCounted base quote (c, l) =
      ((s.attempt base quote l).1.outcome,
        { c with
          requests := c.requests + (s.attempt base quote l).1.sent.toNat
          errors := c.errors + (s.attempt base quote l).1.broken.toNat },
        (s.attempt base quote l).2) := by
    intro c l
    rw [Provider.attemptCounted, same]
  induction left generalizing i c l with
  | zero =>
    rw [persistent, Retry.attempts, once]
    exact s.play_course base quote l
  | succ left ih =>
    have kept := s.connected_attempt base quote l
    rw [persistent, Course.play_andThen, s.play_course, Retry.attempts, once]
    dsimp only
    cases (s.attempt base quote l).1.outcome with
    | ok price => rfl
    | error f =>
      dsimp only
      split
      · rw [← kept, ih (i + 1)]
      · rfl

theorem Source.play_patient {s : Source} {p : Provider (Line ω)} (same : p.attempt = s.attempt)
    (policy : RetryPolicy) (base quote : String) (c : Counters) (l : Line ω) :
    (patient policy (s.course l.connected base quote)).play l =
      ((Retry.run policy (p.attemptCounted base quote) (c, l)).1,
        (Retry.run policy (p.attemptCounted base quote) (c, l)).2.2.2) := by
  cases held : policy.firstWait? with
  | some first =>
    rw [Retry.run_of_some held]
    simp only [patient, held]
    exact play_persistent same first base quote _ 0 c l
  | none =>
    rw [Retry.run_of_none held]
    simp only [patient, held, Course.play]

theorem Source.play_priced {s : Source} {p : Provider (Line ω)} (same : p.attempt = s.attempt)
    (named : p.name = s.name) (policy : RetryPolicy) (now : Moment) (pair : Pair) (l : Line ω) :
    pair.quoteAt now ((s.priced policy l.connected pair.base pair.quote).play l).1 =
        (p.fetchQuote policy now pair.base pair.quote l).1 ∧
      ((s.priced policy l.connected pair.base pair.quote).play l).2 =
        (p.fetchQuote policy now pair.base pair.quote l).2.2.2 := by
  unfold priced Provider.fetchQuote
  rw [Course.play_andThen, play_patient same policy pair.base pair.quote p.counters l]
  generalize Retry.run policy (p.attemptCounted pair.base pair.quote) (p.counters, l) = r
  obtain ⟨price | f, waits, c, l'⟩ := r
  · exact ⟨by rw [named]; rfl, rfl⟩
  · exact ⟨by rw [named]; rfl, rfl⟩

theorem Pair.play_courseFrom (policy : RetryPolicy) (now : Moment) (pair : Pair)
    (trace : List String) {ps : List (Provider (Line ω))} {ss : List Source} (l : Line ω)
    (ranked : ps.map Provider.unused = ss.map Source.provider) :
    pair.quoteAt now ((pair.courseFrom policy l.connected trace ss).play l).1 =
        (Chain.searchFrom policy now pair trace ps l).outcome ∧
      ((pair.courseFrom policy l.connected trace ss).play l).2 =
        (Chain.searchFrom policy now pair trace ps l).outside := by
  induction ss generalizing ps trace l with
  | nil =>
    obtain rfl := List.map_eq_nil_iff.mp ranked
    exact ⟨rfl, rfl⟩
  | cons s ss ih =>
    obtain ⟨p, ps, rfl⟩ : ∃ p ps', ps = p :: ps' := by
      cases ps with
      | nil => cases ranked
      | cons p ps => exact ⟨p, ps, rfl⟩
    obtain ⟨first, rest⟩ := List.cons.inj ranked
    have same : p.attempt = s.attempt := congrArg Provider.attempt first
    have named : p.name = s.name := congrArg Provider.name first
    obtain ⟨priced, left⟩ := s.play_priced same named policy now pair l
    have kept := Course.connected_play (s.priced policy l.connected pair.base pair.quote) l
    have still : (p.fetchQuote policy now pair.base pair.quote l).2.2.1.name = s.name :=
      (congrArg Provider.name (p.unused_fetchQuote policy now pair.base pair.quote l)).trans named
    unfold courseFrom Chain.searchFrom
    rw [Course.play_andThen]
    generalize (s.priced policy l.connected pair.base pair.quote).play l = played
      at priced left kept ⊢
    generalize p.fetchQuote policy now pair.base pair.quote l = r at priced left still ⊢
    obtain ⟨o, l'⟩ := played
    obtain ⟨o', waits, p', l''⟩ := r
    dsimp only at priced left still kept ⊢
    subst priced left
    cases o with
    | ok quoted =>
      obtain ⟨name, price⟩ := quoted
      cases price with
      | finite d => exact ⟨rfl, rfl⟩
      | infinite => exact ⟨rfl, rfl⟩
      | nan => exact ⟨rfl, rfl⟩
    | error failure =>
      cases failure with
      | defect d => exact ⟨rfl, rfl⟩
      | fault fault =>
        cases fault with
        | provider f =>
          -- the next source starts on the line that this one leaves, which is still up or still down
          obtain ⟨quoted, outside⟩ := ih (trace ++ [p'.name ++ ": " ++ f.text]) l' rest
          rw [kept, still] at quoted outside
          rw [still]
          exact ⟨quoted, outside⟩
        | general | input | expression | evaluation | mixedModes | divisionByZero | store =>
          exact ⟨rfl, rfl⟩

/-- What a market fetches is what the course comes to on its line. -/
theorem Market.fetch_eq_play {m : Market ω} (ranked : m.Ranked) (pair : Pair) :
    (m.fetch pair).1 =
        pair.quoteAt m.now ((pair.course m.policy m.line.connected).play m.line).1 ∧
      (m.fetch pair).2.line = ((pair.course m.policy m.line.connected).play m.line).2 := by
  obtain ⟨quoted, outside⟩ := pair.play_courseFrom m.policy m.now [] m.line (ranked pair.kind)
  exact ⟨quoted.symm, outside.symm⟩

end Play

/-! What is known of a price -/

theorem Payload.success_of_checkStatus {status : Int} {body : String}
    (checked : checkStatus status body = .ok ()) : 200 ≤ status ∧ status ≤ 299 := by
  unfold checkStatus at checked
  split at checked
  · rename_i success
    simpa [isSuccess] using success
  · cases checked

theorem Source.success_of_decode {s : Source} {quote body : String} {status : Int} {d : Decimal}
    (decoded : s.decode quote status body = .ok d) : 200 ≤ status ∧ status ≤ 299 := by
  cases s with
  | frankfurter =>
    obtain ⟨_, checked, _⟩ := ok_of_bind decoded
    exact Payload.success_of_checkStatus checked
  | coinbase =>
    obtain ⟨_, checked, _⟩ := ok_of_bind decoded
    exact Payload.success_of_checkStatus checked
  | kraken =>
    obtain ⟨_, checked, _⟩ := ok_of_bind decoded
    exact Payload.success_of_checkStatus checked

/-- The price stands in a successful response to the request of the source for the pair. -/
def Source.Answers (s : Source) (pair : Pair) (address : String) (r : Reply) (d : Decimal) : Prop :=
  s.address pair.base pair.quote = .ok address ∧ ∃ status body, r = .response status body ∧
    200 ≤ status ∧ status ≤ 299 ∧ s.decode pair.quote status body = .ok d

/-- The price stands in the answer of the source of that name, one of those of the pair. -/
def Pair.Priced (pair : Pair) (address : String) (r : Reply) (priced : String × Numeral) : Prop :=
  ∃ s ∈ Source.ranked pair.kind, priced.1 = s.name ∧
    ∃ d, priced.2 = .finite d ∧ s.Answers pair address r d

namespace Source

variable (s : Source) (connected : Bool) (pair : Pair)

/-- A price that is a number of an answer. -/
def AnswersNumeral (address : String) (r : Reply) (price : Numeral) : Prop :=
  ∃ d, price = .finite d ∧ s.Answers pair address r d

theorem told_course (known : Numeral → Prop) :
    (s.course connected pair.base pair.quote).Told (s.AnswersNumeral pair) known := by
  unfold course
  cases address : s.address pair.base pair.quote with
  | error cause => exact .failed _
  | ok url =>
    dsimp only
    split
    · apply Course.Told.asks
      intro r
      cases r with
      | response status body =>
        cases decoded : s.decode pair.quote status body with
        | error f =>
          simp only [attemptOf, decoded]
          exact .failed f
        | ok d =>
          simp only [attemptOf, decoded]
          obtain ⟨atLeast, atMost⟩ := success_of_decode decoded
          exact .ended ⟨d, rfl, address, status, body, rfl, atLeast, atMost, decoded⟩
      | disconnected | timedOut | refused => exact .failed _
    · exact .failed _

theorem told_persistent (left : Nat) (known : Numeral → Prop) :
    (persistent (s.course connected pair.base pair.quote) left).Told (s.AnswersNumeral pair)
      known := by
  induction left generalizing known with
  | zero => exact s.told_course connected pair known
  | succ left ih =>
    apply (s.told_course connected pair known).andThen (g := id)
    · exact fun _ => rfl
    · exact fun _ here => here
    · exact fun _ _ _ there => there
    · intro f known
      dsimp only
      split
      · exact ih known
      · exact .failed f

theorem told_patient (policy : RetryPolicy) (known : Numeral → Prop) :
    (patient policy (s.course connected pair.base pair.quote)).Told (s.AnswersNumeral pair)
      known := by
  unfold patient
  split
  · exact s.told_persistent connected pair _ known
  · exact .failed _

theorem told_priced (policy : RetryPolicy) (ranked : s ∈ Source.ranked pair.kind)
    (known : String × Numeral → Prop) :
    (s.priced policy connected pair.base pair.quote).Told pair.Priced known := by
  apply (s.told_patient connected pair policy fun _ => False).andThen
    (g := fun price => (s.name, price))
  · exact fun _ => rfl
  · exact fun _ absurd => absurd.elim
  · exact fun address r price there => ⟨s, ranked, rfl, there⟩
  · exact fun f _ => .failed _

end Source

namespace Pair

theorem told_courseFrom (policy : RetryPolicy) (connected : Bool) (pair : Pair) (trace : List String)
    {ss : List Source} (ranked : ∀ s ∈ ss, s ∈ Source.ranked pair.kind)
    (known : String × Numeral → Prop) :
    (pair.courseFrom policy connected trace ss).Told pair.Priced known := by
  induction ss generalizing trace known with
  | nil => exact .failed _
  | cons s ss ih =>
    apply (s.told_priced connected pair policy (ranked s (by simp)) known).andThen (g := id)
    · exact fun _ => rfl
    · exact fun _ here => here
    · exact fun _ _ _ there => there
    · intro f known
      split
      · exact ih _ (fun t member => ranked t (List.mem_cons_of_mem s member)) known
      · exact .failed f

/-- Whatever price a search ends with stands in the last reply it got. -/
theorem told_course (policy : RetryPolicy) (connected : Bool) (pair : Pair) :
    (pair.course policy connected).Told pair.Priced fun _ => False :=
  told_courseFrom policy connected pair [] (fun _ member => member) _

end Pair

end QuoteDesk
