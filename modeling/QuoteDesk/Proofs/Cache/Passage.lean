import QuoteDesk.Cache.Lookup

/-
What a lookup can come to, over any store: one case for each way through it, with
all that was read, fetched and written on the way. Whatever holds of lookups is
read off these cases, and the lookup itself is opened only here.
-/
namespace QuoteDesk.Cache

variable {σ : Type} [Store σ]

/-- A stored entry that leaves the price to be fetched: it holds no quote, or one
that has outlived its time. -/
def Unserved (now : Moment) (ttl : Int) (entry : Option Entry) : Prop :=
  ∀ e q, entry = some e → e.quote = some q →
    ∃ age, Moment.age? e.fetchedAt now = some age ∧ ttl < age

/-- The entry that holds a fetched quote. -/
def keptEntry (key : String) (ttl : Int) (q : Quote) : Entry := ⟨key, some q, none, q.fetchedAt, ttl⟩

/-- The ways through a lookup, with the answer, whether the fetch was made, and the
cache after it. -/
inductive Passage (c : Cache σ) (now : Moment) (key : String) (ttl : Int)
    (fetched : Outcome Quote) : Outcome CachedQuote → Bool → Cache σ → Prop where
  | unreadable {f : Failure} (read : Store.read c.store now key = .error f) :
      Passage c now key ttl fetched (.error f) false c
  | ageless {e : Entry} {q : Quote} (read : Store.read c.store now key = .ok (some e))
      (quote : e.quote = some q) (age : Moment.age? e.fetchedAt now = none) :
      Passage c now key ttl fetched (.error (.defect .wrongType)) false c
  | fresh {e : Entry} {q : Quote} {age : Nat} (read : Store.read c.store now key = .ok (some e))
      (quote : e.quote = some q) (known : Moment.age? e.fetchedAt now = some age)
      (young : age ≤ ttl) :
      Passage c now key ttl fetched (.ok ⟨q, .fresh, key, ttl, age⟩) false (c.count key Tally.hit)
  | aborted {entry : Option Entry} {d : Defect} (read : Store.read c.store now key = .ok entry)
      (unserved : Unserved now ttl entry) (outcome : fetched = .error (.defect d)) :
      Passage c now key ttl fetched (.error (.defect d)) true c
  | kept {entry : Option Entry} {q : Quote} {s : σ} (read : Store.read c.store now key = .ok entry)
      (unserved : Unserved now ttl entry) (outcome : fetched = .ok q)
      (write : Store.write c.store (keptEntry key ttl q) = (.ok (), s)) :
      Passage c now key ttl fetched (.ok ⟨q, .live, key, ttl, 0⟩) true
        (Cache.count { c with store := s } key Tally.fetched)
  | refused {entry : Option Entry} {q : Quote} {f : Failure} {s : σ}
      (read : Store.read c.store now key = .ok entry) (unserved : Unserved now ttl entry)
      (outcome : fetched = .ok q)
      (write : Store.write c.store (keptEntry key ttl q) = (.error f, s)) :
      Passage c now key ttl fetched (.error f) true { c with store := s }
  | unrecorded {entry : Option Entry} {f : Fault} {d : Defect} {s : σ}
      (read : Store.read c.store now key = .ok entry) (unserved : Unserved now ttl entry)
      (outcome : fetched = .error (.fault f))
      (write : Store.write c.store (failedEntry now key ttl entry f) = (.error (.defect d), s)) :
      Passage c now key ttl fetched (.error (.defect d)) true
        { c.count key Tally.failed with store := s }
  | failed {entry : Option Entry} {f : Fault} {r : Outcome Unit} {s : σ}
      (read : Store.read c.store now key = .ok entry) (bare : entry.bind (·.quote) = none)
      (outcome : fetched = .error (.fault f))
      (write : Store.write c.store (failedEntry now key ttl entry f) = (r, s))
      (sound : ∀ d, r ≠ .error (.defect d)) :
      Passage c now key ttl fetched (.error (.fault f)) true
        { c.count key Tally.failed with store := s }
  | fellBack {e : Entry} {q : Quote} {age : Nat} {f : Fault} {r : Outcome Unit} {s : σ}
      (read : Store.read c.store now key = .ok (some e)) (quote : e.quote = some q)
      (known : Moment.age? e.fetchedAt now = some age) (old : ttl < age)
      (outcome : fetched = .error (.fault f))
      (write : Store.write c.store (failedEntry now key ttl (some e) f) = (r, s))
      (sound : ∀ d, r ≠ .error (.defect d)) :
      Passage c now key ttl fetched (.ok ⟨q, .stale, key, ttl, age⟩) true
        (Cache.count { c.count key Tally.failed with store := s } key Tally.fellBack)

/-- The ways through the first half alone. -/
inductive Glance (c : Cache σ) (now : Moment) (key : String) (ttl : Int) :
    Outcome Look × Cache σ → Prop where
  | unreadable {f : Failure} (read : Store.read c.store now key = .error f) :
      Glance c now key ttl (.error f, c)
  | ageless {e : Entry} {q : Quote} (read : Store.read c.store now key = .ok (some e))
      (quote : e.quote = some q) (age : Moment.age? e.fetchedAt now = none) :
      Glance c now key ttl (.error (.defect .wrongType), c)
  | fresh {e : Entry} {q : Quote} {age : Nat} (read : Store.read c.store now key = .ok (some e))
      (quote : e.quote = some q) (known : Moment.age? e.fetchedAt now = some age)
      (young : age ≤ ttl) :
      Glance c now key ttl (.ok (.answered ⟨q, .fresh, key, ttl, age⟩), c.count key Tally.hit)
  | missing {entry : Option Entry} (read : Store.read c.store now key = .ok entry)
      (unserved : Unserved now ttl entry) : Glance c now key ttl (.ok (.missing entry), c)

theorem unserved_of_bare {now : Moment} {ttl : Int} {entry : Option Entry}
    (bare : entry.bind (·.quote) = none) : Unserved now ttl entry := by
  intro e q here quote
  simp [here, quote] at bare

theorem glance_look (c : Cache σ) (now : Moment) (key : String) (ttl : Int) :
    Glance c now key ttl (c.look now key ttl) := by
  unfold look
  cases read : Store.read c.store now key with
  | error f => exact .unreadable read
  | ok entry =>
    cases entry with
    | none => exact .missing read (unserved_of_bare rfl)
    | some e =>
      cases quote : e.quote with
      | none =>
        simp only [Option.bind_some, quote]
        exact .missing read (unserved_of_bare quote)
      | some q =>
        simp only [Option.bind_some, quote]
        cases known : Moment.age? e.fetchedAt now with
        | none => exact .ageless read quote known
        | some age =>
          simp only
          split
          · rename_i young
            exact .fresh read quote known young
          · rename_i old
            refine .missing read ?_
            intro e' q' here _
            cases here
            exact ⟨age, known, by omega⟩

/-- The second half, given how the first one ended. -/
theorem passage_settle (c : Cache σ) (now : Moment) (key : String) (ttl : Int)
    (entry : Option Entry) (fetched : Outcome Quote)
    (read : Store.read c.store now key = .ok entry) (unserved : Unserved now ttl entry) :
    Passage c now key ttl fetched (c.settle now key ttl entry fetched).1 true
      (c.settle now key ttl entry fetched).2 := by
  unfold settle
  cases fetched with
  | ok q =>
    cases write : Store.write c.store (keptEntry key ttl q) with
    | mk r s =>
      have opened := write
      simp only [keptEntry] at opened
      cases r with
      | ok done =>
        simp only [keep, opened]
        exact .kept read unserved rfl write
      | error f =>
        simp only [keep, opened]
        exact .refused read unserved rfl write
  | error failure =>
    cases failure with
    | defect d => exact .aborted read unserved rfl
    | fault f =>
      cases write : Store.write c.store (failedEntry now key ttl entry f) with
      | mk r s =>
        by_cases sound : ∀ d, r ≠ .error (.defect d)
        · have recorded : c.fail now key ttl entry f =
              fallBack { c.count key Tally.failed with store := s } now key ttl entry f := by
            -- `sound` leaves the second case of the match
            simp only [fail, count, write]
          simp only [recorded]
          cases bare : entry.bind (·.quote) with
          | none =>
            simp only [fallBack, bare]
            exact .failed read bare rfl write sound
          | some q =>
            obtain ⟨e, rfl, quote⟩ := Option.bind_eq_some_iff.mp bare
            obtain ⟨age, known, old⟩ := unserved e q rfl quote
            simp only [fallBack, bare, known]
            exact .fellBack read quote known old rfl write sound
        · obtain ⟨d, rfl⟩ : ∃ d, r = .error (.defect d) := by simpa using sound
          simp only [fail, count, write]
          exact .unrecorded read unserved rfl write

/-- Every lookup is one of the ways, and it changes the world outside by its fetch only. -/
theorem passage_lookup {ω : Type} (c : Cache σ) (now : Moment) (key : String) (ttl : Int)
    (fetch : ω → Outcome Quote × ω) (w : ω) :
    ∃ answer made c', Passage c now key ttl (fetch w).1 answer made c' ∧
      c.lookup now key ttl fetch w = (answer, made, c', if made then (fetch w).2 else w) := by
  have glance := glance_look c now key ttl
  unfold lookup
  generalize c.look now key ttl = first at glance ⊢
  cases glance with
  | unreadable read => exact ⟨_, _, _, .unreadable read, rfl⟩
  | ageless read quote age => exact ⟨_, _, _, .ageless read quote age, rfl⟩
  | fresh read quote known young => exact ⟨_, _, _, .fresh read quote known young, rfl⟩
  | missing read unserved => exact ⟨_, _, _, passage_settle c now key ttl _ _ read unserved, rfl⟩

theorem world_lookup {ω : Type} (c : Cache σ) (now : Moment) (key : String) (ttl : Int)
    (fetch : ω → Outcome Quote × ω) (w : ω) :
    (c.lookup now key ttl fetch w).2.2.2 =
      if (c.lookup now key ttl fetch w).2.1 then (fetch w).2 else w := by
  obtain ⟨answer, made, c', _, run⟩ := passage_lookup c now key ttl fetch w
  rw [run]

end QuoteDesk.Cache
