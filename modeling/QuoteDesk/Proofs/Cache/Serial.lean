import QuoteDesk.Proofs.Cache.History

/-
Lookups on a cache in memory, one after the other, with their answers. What a lookup
finds and leaves is told by the entry and the counts of its own key, and those of other
keys stay as they are; so the lookups of one key do not notice any others.
-/
namespace QuoteDesk.Cache

/-- Both hold the same for a key: its entry and its counts. -/
structure Alike (key : String) (c d : Cache Memory) : Prop where
  entry : c.store.get? key = d.store.get? key
  tally : c.tallies.lookup key = d.tallies.lookup key

section Alike

variable {key other : String} {c d e : Cache Memory}

theorem Alike.refl (key : String) (c : Cache Memory) : Alike key c c := ⟨rfl, rfl⟩

theorem Alike.symm (same : Alike key c d) : Alike key d c := ⟨same.entry.symm, same.tally.symm⟩

theorem Alike.trans (first : Alike key c d) (second : Alike key d e) : Alike key c e :=
  ⟨first.entry.trans second.entry, first.tally.trans second.tally⟩

theorem Alike.count (same : Alike key c d) (step : Tally → Tally) :
    Alike key (c.count key step) (d.count key step) := by
  refine ⟨same.entry, ?_⟩
  simp only [Cache.count, Table.lookup_set_self, same.tally]

theorem Alike.put (same : Alike key c d) {x : Entry} (named : x.key = key) :
    Alike key { c with store := c.store.put x } { d with store := d.store.put x } := by
  subst named
  exact ⟨by rw [Memory.get?_put_self, Memory.get?_put_self], same.tally⟩

theorem alike_count (c : Cache Memory) (step : Tally → Tally) (apart : other ≠ key) :
    Alike other (c.count key step) c :=
  ⟨rfl, Table.lookup_set_of_ne _ _ apart⟩

theorem alike_put (c : Cache Memory) {x : Entry} (apart : other ≠ x.key) :
    Alike other { c with store := c.store.put x } c :=
  ⟨Memory.get?_put_of_ne _ _ apart, rfl⟩

end Alike

/-! The two halves of a lookup -/

section Halves

variable {key other : String} {c d : Cache Memory}

theorem look_alike (same : Alike key c d) (now : Moment) (ttl : Int) :
    (c.look now key ttl).1 = (d.look now key ttl).1 ∧
      Alike key (c.look now key ttl).2 (d.look now key ttl).2 := by
  have read : (Store.read c.store now key : Outcome (Option Entry)) = Store.read d.store now key :=
    congrArg Except.ok same.entry
  unfold look
  rw [read]
  split
  · exact ⟨rfl, same⟩
  · split
    · split
      · exact ⟨rfl, same⟩
      · split
        · exact ⟨rfl, same.count Tally.hit⟩
        · exact ⟨rfl, same⟩
    · exact ⟨rfl, same⟩

theorem look_other (c : Cache Memory) (now : Moment) (ttl : Int) (apart : other ≠ key) :
    Alike other (c.look now key ttl).2 c := by
  have glance := glance_look c now key ttl
  generalize c.look now key ttl = first at glance ⊢
  cases glance with
  | unreadable | ageless | missing => exact .refl other c
  | fresh => exact alike_count c Tally.hit apart

theorem look_missing {now : Moment} {ttl : Int} {entry : Option Entry}
    (missing : (c.look now key ttl).1 = .ok (.missing entry)) : (c.look now key ttl).2 = c := by
  have glance := glance_look c now key ttl
  generalize c.look now key ttl = first at glance missing ⊢
  cases glance with
  | unreadable | ageless | missing => rfl
  | fresh => cases missing

theorem fallBack_alike (same : Alike key c d) (now : Moment) (ttl : Int) (entry : Option Entry)
    (f : Fault) : (c.fallBack now key ttl entry f).1 = (d.fallBack now key ttl entry f).1 ∧
      Alike key (c.fallBack now key ttl entry f).2 (d.fallBack now key ttl entry f).2 := by
  unfold fallBack
  split
  · split
    · exact ⟨rfl, same⟩
    · exact ⟨rfl, same.count Tally.fellBack⟩
  · exact ⟨rfl, same⟩

theorem settle_alike (same : Alike key c d) (now : Moment) (ttl : Int) (entry : Option Entry)
    (fetched : Outcome Quote) :
    (c.settle now key ttl entry fetched).1 = (d.settle now key ttl entry fetched).1 ∧
      Alike key (c.settle now key ttl entry fetched).2 (d.settle now key ttl entry fetched).2 := by
  unfold settle
  split
  · rename_i q
    exact ⟨rfl, (same.put (x := keptEntry key ttl q) rfl).count Tally.fetched⟩
  · rename_i f
    exact fallBack_alike ((same.count Tally.failed).put (x := failedEntry now key ttl entry f) rfl)
      now ttl entry f
  · exact ⟨rfl, same⟩

theorem fallBack_other (c : Cache Memory) (now : Moment) (ttl : Int) (entry : Option Entry)
    (f : Fault) (apart : other ≠ key) : Alike other (c.fallBack now key ttl entry f).2 c := by
  unfold fallBack
  split
  · split
    · exact .refl other c
    · exact alike_count c Tally.fellBack apart
  · exact .refl other c

theorem settle_other (c : Cache Memory) (now : Moment) (ttl : Int) (entry : Option Entry)
    (fetched : Outcome Quote) (apart : other ≠ key) :
    Alike other (c.settle now key ttl entry fetched).2 c := by
  unfold settle
  split
  · rename_i q
    exact (alike_count _ Tally.fetched apart).trans (alike_put c (x := keptEntry key ttl q) apart)
  · rename_i f
    have recorded := alike_put (c.count key Tally.failed) (x := failedEntry now key ttl entry f) apart
    exact ((fallBack_other _ now ttl entry f apart).trans recorded).trans
      (alike_count c Tally.failed apart)
  · exact .refl other c

/-! Both halves, with the fetch between them -/

theorem lookup_alike {ω : Type} (same : Alike key c d) (now : Moment) (ttl : Int)
    (fetch : ω → Outcome Quote × ω) (w w' : ω) (fetched : (fetch w).1 = (fetch w').1) :
    (c.lookup now key ttl fetch w).1 = (d.lookup now key ttl fetch w').1 ∧
      (c.lookup now key ttl fetch w).2.1 = (d.lookup now key ttl fetch w').2.1 ∧
      Alike key (c.lookup now key ttl fetch w).2.2.1 (d.lookup now key ttl fetch w').2.2.1 := by
  obtain ⟨looked, left⟩ := look_alike same now ttl
  unfold lookup
  generalize c.look now key ttl = first at looked left ⊢
  generalize d.look now key ttl = first' at looked left ⊢
  obtain ⟨look, c'⟩ := first
  obtain ⟨_, d'⟩ := first'
  cases looked
  rcases look with f | a | entry
  · exact ⟨rfl, rfl, left⟩
  · exact ⟨rfl, rfl, left⟩
  · dsimp only
    rw [fetched]
    obtain ⟨settled, left⟩ := settle_alike left now ttl entry (fetch w').1
    exact ⟨settled, rfl, left⟩

theorem lookup_other {ω : Type} (c : Cache Memory) (now : Moment) (ttl : Int)
    (fetch : ω → Outcome Quote × ω) (w : ω) (apart : other ≠ key) :
    Alike other (c.lookup now key ttl fetch w).2.2.1 c := by
  have left := look_other c now ttl apart
  unfold lookup
  generalize c.look now key ttl = first at left ⊢
  obtain ⟨f | a | entry, c'⟩ := first
  · exact left
  · exact left
  · exact (settle_other c' now ttl entry (fetch w).1 apart).trans left

end Halves

/-! Whole lookups in a row -/

/-- The answer of a lookup with whether its fetch was made, and the cache after it. -/
def attend (c : Cache Memory) (v : Visit) : (Outcome CachedQuote × Bool) × Cache Memory :=
  let (answer, made, c, _) := c.lookup v.now v.key v.ttl v.fetch []
  ((answer, made), c)

/-- Lookups one after the other, their answers in order. -/
def serve (c : Cache Memory) : List Visit → List (Outcome CachedQuote × Bool) × Cache Memory
  | [] => ([], c)
  | v :: vs =>
    let (answer, c) := c.attend v
    let (answers, c) := c.serve vs
    (answer :: answers, c)

theorem serve_cons (c : Cache Memory) (v : Visit) (vs : List Visit) :
    c.serve (v :: vs) =
      ((c.attend v).1 :: ((c.attend v).2.serve vs).1, ((c.attend v).2.serve vs).2) := rfl

theorem serve_snoc (c : Cache Memory) (vs : List Visit) (v : Visit) :
    c.serve (vs ++ [v]) =
      ((c.serve vs).1 ++ [((c.serve vs).2.attend v).1], ((c.serve vs).2.attend v).2) := by
  induction vs generalizing c with
  | nil => rfl
  | cons w vs ih =>
    rw [List.cons_append, serve_cons, ih, serve_cons]
    rfl

theorem attend_of_look {c : Cache Memory} {v : Visit} :
    (∀ f, (c.look v.now v.key v.ttl).1 = .error f →
      c.attend v = ((.error f, false), (c.look v.now v.key v.ttl).2)) ∧
    (∀ a, (c.look v.now v.key v.ttl).1 = .ok (.answered a) →
      c.attend v = ((.ok a, false), (c.look v.now v.key v.ttl).2)) ∧
    (∀ entry, (c.look v.now v.key v.ttl).1 = .ok (.missing entry) →
      c.attend v = (((c.settle v.now v.key v.ttl entry v.fetched).1, true),
        (c.settle v.now v.key v.ttl entry v.fetched).2)) := by
  refine ⟨?_, ?_, ?_⟩
  · intro f failed
    unfold attend lookup
    generalize c.look v.now v.key v.ttl = first at failed ⊢
    obtain ⟨_, c'⟩ := first
    cases failed
    rfl
  · intro a answered
    unfold attend lookup
    generalize c.look v.now v.key v.ttl = first at answered ⊢
    obtain ⟨_, c'⟩ := first
    cases answered
    rfl
  · intro entry missing
    have still := look_missing missing
    unfold attend lookup
    generalize c.look v.now v.key v.ttl = first at missing still ⊢
    obtain ⟨_, c'⟩ := first
    cases missing
    cases still
    rfl

theorem attend_alike {c d : Cache Memory} {v : Visit} (same : Alike v.key c d) :
    (c.attend v).1 = (d.attend v).1 ∧ Alike v.key (c.attend v).2 (d.attend v).2 := by
  obtain ⟨answer, made, left⟩ := lookup_alike same v.now v.ttl v.fetch [] [] rfl
  exact ⟨Prod.ext answer made, left⟩

theorem serve_alike {key : String} {c d : Cache Memory} {vs : List Visit}
    (of : ∀ v ∈ vs, v.key = key) (same : Alike key c d) :
    (c.serve vs).1 = (d.serve vs).1 ∧ Alike key (c.serve vs).2 (d.serve vs).2 := by
  induction vs generalizing c d with
  | nil => exact ⟨rfl, same⟩
  | cons v vs ih =>
    obtain rfl := of v (by simp)
    obtain ⟨answer, left⟩ := attend_alike same
    obtain ⟨answers, left⟩ := ih (fun w member => of w (List.mem_cons_of_mem v member)) left
    rw [serve_cons, serve_cons, answer, answers]
    exact ⟨rfl, left⟩

end QuoteDesk.Cache
