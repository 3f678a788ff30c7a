import QuoteDesk.Cache.Crew
import QuoteDesk.Proofs.Cache.Interchange

/-
Writes that fail. Whatever step the system refuses, the names and contents in the directory are
those from before the write, with no temporary file among them, so every entry is read as before.
Over any run of lookups the directory is that of the start with the entries whose writes succeeded
put into their files, in their order. All this is about keys that name a file right in the directory,
as those of pairs do.
-/
namespace QuoteDesk

namespace Shelf

variable {directory : String} {s s' : Shelf} {nodes : Table Node} {key : String}

/-! What is read -/

theorem eq_barred_of_opened (closed : s.opened = none) : s = .barred := by
  cases s with
  | barred => rfl
  | absent => cases closed
  | there _ => cases closed

/-- What is read under a key is decided by the node of its name, also where the directory is still to
be made. -/
theorem read_of_lookup (findable : Findable key)
    (same : (s'.opened.map fun nodes => nodes.lookup (fileName key)) =
      s.opened.map fun nodes => nodes.lookup (fileName key)) (now : Moment) :
    s'.read directory now key = s.read directory now key := by
  have found : s'.find directory key = s.find directory key := by
    cases there : s.opened with
    | none =>
      rw [there, Option.map_none, Option.map_eq_none_iff] at same
      rw [eq_barred_of_opened there, eq_barred_of_opened same]
    | some nodes =>
      rw [there, Option.map_some, Option.map_eq_some_iff] at same
      obtain ⟨nodes', there', same⟩ := same
      rw [find_of_findable findable there, find_of_findable findable there', same]
  simp only [read, found]

/-! Entries put into their files -/

/-- The directory after some entries, one after another. -/
def filed (nodes : Table Node) (es : List Entry) : Table Node :=
  es.foldl (fun nodes e => nodes.set (fileName e.key) (.file e.toJson.write.toUTF8)) nodes

theorem filed_append (nodes : Table Node) (es es' : List Entry) :
    filed nodes (es ++ es') = filed (filed nodes es) es' := List.foldl_append

theorem lookup_filed_of_ne {es : List Entry} (others : ∀ e ∈ es, e.key ≠ key) :
    (filed nodes es).lookup (fileName key) = nodes.lookup (fileName key) := by
  induction es generalizing nodes with
  | nil => rfl
  | cons e es ih =>
    obtain ⟨other, later⟩ := List.forall_mem_cons.mp others
    have names : fileName key ≠ fileName e.key := fun same => other (fileName_injective same).symm
    exact (ih later).trans (Table.lookup_set_of_ne _ _ names)

theorem lookup_filed_last {before after : List Entry} {e : Entry}
    (last : ∀ e' ∈ after, e'.key ≠ e.key) :
    (filed nodes (before ++ e :: after)).lookup (fileName e.key) =
      some (.file e.toJson.write.toUTF8) := by
  rw [filed_append, filed, List.foldl_cons]
  exact (lookup_filed_of_ne last).trans (Table.lookup_set_self _ _ _)

end Shelf

/-! Runs of lookups -/

/-- A directory with a note of the entries installed in it. `refused` is the step of the next
write that the system refuses. -/
structure Journal extends Files where
  refused : Option WriteStep
  installed : List Entry

instance : Store Journal where
  read j now key := Store.read j.toFiles now key
  write j e :=
    match j.shelf.writeUnless j.directory j.refused e with
    | (.ok done, shelf) => (.ok done, { j with shelf := shelf, installed := j.installed ++ [e] })
    | (.error f, shelf) => (.error f, { j with shelf := shelf })

namespace Journal

/-- Between the two just these entries were installed, in this order. -/
structure Grown (j j' : Journal) (es : List Entry) : Prop where
  directory : j'.directory = j.directory
  installed : j'.installed = j.installed ++ es
  nodes : j'.shelf.opened = j.shelf.opened.map fun nodes => Shelf.filed nodes es
  findable : ∀ e ∈ es, Shelf.Findable e.key
  opened : es ≠ [] → j.shelf.opened.isSome = true

variable {j j' j'' : Journal} {es es' : List Entry}

theorem Grown.of_opened (directory : j'.directory = j.directory) (installed : j'.installed = j.installed)
    (nodes : j'.shelf.opened = j.shelf.opened) : Grown j j' [] := by
  refine ⟨directory, by simpa using installed, ?_, fun _ absurd => (by cases absurd),
    fun absurd => (absurd rfl).elim⟩
  rw [nodes]
  exact Option.map_id'.symm

theorem Grown.trans (first : Grown j j' es) (second : Grown j' j'' es') : Grown j j'' (es ++ es') := by
  refine ⟨second.directory.trans first.directory, ?_, ?_, ?_, ?_⟩
  · rw [second.installed, first.installed, List.append_assoc]
  · rw [second.nodes, first.nodes, Option.map_map]
    exact congrArg (fun f => j.shelf.opened.map f) (funext fun nodes =>
      (Shelf.filed_append nodes es es').symm)
  · exact List.forall_mem_append.mpr ⟨first.findable, second.findable⟩
  · intro some
    by_cases none : es = []
    · have later : es' ≠ [] := by
        intro none'
        exact some (by rw [none, none', List.append_nil])
      have there := second.opened later
      rw [first.nodes, Option.isSome_map] at there
      exact there
    · exact first.opened none

/-- A write installs its entry or changes nothing, and it changes nothing if a step is refused. -/
theorem grown_write (j : Journal) (e : Entry) :
    ∃ es, Grown j (Store.write j e).2 es ∧ (j.refused ≠ none → es = []) := by
  rcases Shelf.writeUnless_cases j.directory j.refused j.shelf e with
    ⟨nodes, there, all, _, clean, room, run⟩ | ⟨f, s', run, _, left⟩
  · refine ⟨[e], ?_, fun refused => absurd all refused⟩
    simp only [Store.write, run]
    refine ⟨rfl, rfl, ?_, ?_, ?_⟩
    · rw [there]
      rfl
    · intro e' member
      rw [List.mem_singleton.mp member]
      exact room.findable clean
    · intro _
      rw [there]
      rfl
  · refine ⟨[], ?_, fun _ => rfl⟩
    simp only [Store.write, run]
    rcases left with rfl | ⟨nodes, there, rfl⟩
    · exact .of_opened rfl rfl rfl
    · exact .of_opened rfl rfl there.symm

/-- A key is answered as before, unless an entry of it was installed. -/
theorem Grown.read_of_ne (grown : Grown j j' es) {key : String} (findable : Shelf.Findable key)
    (others : ∀ e ∈ es, e.key ≠ key) (now : Moment) : Store.read j' now key = Store.read j now key := by
  change j'.shelf.read j'.directory now key = j.shelf.read j.directory now key
  rw [grown.directory]
  apply Shelf.read_of_lookup findable
  rw [grown.nodes, Option.map_map]
  exact congrArg (fun f => j.shelf.opened.map f) (funext fun _ => Shelf.lookup_filed_of_ne others)

/-- The last entry of a key that was installed is the one that is read. -/
theorem Grown.read_last {before after : List Entry} {e : Entry}
    (grown : Grown j j' (before ++ e :: after)) (last : ∀ e' ∈ after, e'.key ≠ e.key) (now : Moment) :
    Store.read j' now e.key = .ok (Entry.ofBytes? now e.toJson.write.toUTF8) := by
  have there := grown.opened (by simp)
  obtain ⟨nodes, there⟩ := Option.isSome_iff_exists.mp there
  have opened : j'.shelf.opened = some (Shelf.filed nodes (before ++ e :: after)) := by
    rw [grown.nodes, there]
    rfl
  change j'.shelf.read j'.directory now e.key = _
  rw [Shelf.read, Shelf.find_of_findable (grown.findable e (by simp)) opened,
    Shelf.lookup_filed_last last]
  rfl

end Journal

namespace Crew

/-- What can happen next on a cache over a directory: a lookup arrives, of a key that names a file,
gets a turn or is given up, or its fetch ends, with a step that the system refuses in the write after
it. -/
inductive Move where
  | arrive (call : Call) (findable : Shelf.Findable call.key)
  | enter (now : Moment) (tick i : Nat)
  | finish (i : Nat) (refused : Option WriteStep)
  | cancel (i : Nat)

def move (c : Crew Journal) : Move → Crew Journal
  | .arrive call _ => ⟨c.cache, c.tasks ++ [⟨call, .waiting⟩]⟩
  | .enter now tick i => c.enter now tick i
  | .finish i refused =>
    Crew.finish ⟨{ c.cache with store := { c.cache.store with refused := refused } }, c.tasks⟩ i
  | .cancel i => c.cancel i

def play (c : Crew Journal) (moves : List Move) : Crew Journal := moves.foldl move c

theorem store_enter {σ : Type} [Store σ] (c : Crew σ) (now : Moment) (tick i : Nat) :
    (c.enter now tick i).cache.store = c.cache.store := by
  unfold enter
  split
  · rename_i call _
    obtain ⟨kept, _⟩ := Cache.look_cases c.cache now call.key call.ttl
    split
    · rename_i look
      rw [look] at kept
      exact kept
    · rename_i look
      rw [look] at kept
      exact kept
    · rename_i look
      rw [look] at kept
      exact kept
  · rfl

theorem cache_cancel {σ : Type} (c : Crew σ) (i : Nat) : (c.cancel i).cache = c.cache := by
  unfold cancel
  split
  · split
    · rfl
    · rfl
  · rfl

theorem store_finish {σ : Type} [Store σ] (c : Crew σ) (i : Nat) :
    (c.finish i).cache.store = c.cache.store ∨
      ∃ e, (c.finish i).cache.store = (Store.write c.cache.store e).2 := by
  unfold finish
  split
  · rename_i call since entry due _
    obtain ⟨_, kept | ⟨e, _, written, _⟩⟩ :=
      Cache.settle_cases c.cache since call.key call.ttl entry call.fetched
    · exact .inl kept
    · exact .inr ⟨e, written⟩
  · exact .inl rfl

/-- No write has all its steps. -/
def Refused (moves : List Move) : Prop := ∀ i, Move.finish i none ∉ moves

/-- One step installs an entry or changes nothing in the directory. -/
theorem grown_move (c : Crew Journal) (m : Move) :
    ∃ es, Journal.Grown c.cache.store (c.move m).cache.store es ∧ (Refused [m] → es = []) := by
  cases m with
  | arrive call findable => exact ⟨[], .of_opened rfl rfl rfl, fun _ => rfl⟩
  | enter now tick i =>
    refine ⟨[], ?_, fun _ => rfl⟩
    rw [move, store_enter]
    exact .of_opened rfl rfl rfl
  | cancel i =>
    refine ⟨[], ?_, fun _ => rfl⟩
    rw [move, cache_cancel]
    exact .of_opened rfl rfl rfl
  | finish i refused =>
    have warned : Journal.Grown c.cache.store { c.cache.store with refused := refused } [] :=
      .of_opened rfl rfl rfl
    rcases store_finish ⟨{ c.cache with store := { c.cache.store with refused := refused } }, c.tasks⟩ i with
      kept | ⟨e, written⟩
    · rw [move, kept]
      exact ⟨[], warned, fun _ => rfl⟩
    · obtain ⟨es, grown, none⟩ := Journal.grown_write { c.cache.store with refused := refused } e
      rw [move, written]
      refine ⟨[] ++ es, warned.trans grown, ?_⟩
      intro all
      apply none
      rintro rfl
      exact all i (List.mem_singleton.mpr rfl)

theorem grown_play (c : Crew Journal) (moves : List Move) :
    ∃ es, Journal.Grown c.cache.store (c.play moves).cache.store es ∧ (Refused moves → es = []) := by
  induction moves generalizing c with
  | nil => exact ⟨[], .of_opened rfl rfl rfl, fun _ => rfl⟩
  | cons m moves ih =>
    obtain ⟨es, first, none⟩ := grown_move c m
    obtain ⟨es', later, none'⟩ := ih (c.move m)
    refine ⟨es ++ es', first.trans later, ?_⟩
    intro all
    have here : Refused [m] := fun i member =>
      all i (List.mem_cons.mpr (.inl (List.mem_singleton.mp member)))
    rw [none here, none' fun i member => all i (List.mem_cons_of_mem m member)]
    rfl

/-- A write is done whole or not at all, whatever step is refused: it installs the new text and
leaves all other names alone, or it fails and leaves names, contents and what is read as they were. So
over any lookups, side by side and with any of their writes refused, the entry last installed under a
key is the one that is read, and where none was installed, as when all writes are refused, the answer
is the one from before. Pairs have such keys, and times of freshness that can be written down. -/
theorem failed_writes_change_nothing :
    (∀ (directory : String) (refused : Option WriteStep) (s : Shelf) (e : Entry),
      Shelf.Findable e.key →
      (∃ nodes nodes', s.opened = some nodes ∧ refused = none ∧
        s.writeUnless directory refused e = (.ok (), .there nodes') ∧
        nodes'.lookup (Shelf.fileName e.key) = some (.file e.toJson.write.toUTF8) ∧
        ∀ name, name ≠ Shelf.fileName e.key → nodes'.lookup name = nodes.lookup name) ∨
      ∃ f s', s.writeUnless directory refused e = (.error f, s') ∧
        (writable e.ttl = true → f = Shelf.unwritable directory e.key) ∧
        s'.opened = s.opened ∧
        ∀ now key, Shelf.Findable key → s'.read directory now key = s.read directory now key) ∧
    (∀ (cache : Cache Journal) (moves : List Move), ∃ es,
      Journal.Grown cache.store (play ⟨cache, []⟩ moves).cache.store es ∧
      (Refused moves → es = []) ∧
      (∀ now key, Shelf.Findable key → (∀ e ∈ es, e.key ≠ key) →
        Store.read (play ⟨cache, []⟩ moves).cache.store now key = Store.read cache.store now key) ∧
      ∀ before e after, es = before ++ e :: after → (∀ e' ∈ after, e'.key ≠ e.key) → ∀ now,
        Store.read (play ⟨cache, []⟩ moves).cache.store now e.key =
          .ok (Entry.ofBytes? now e.toJson.write.toUTF8)) ∧
    ∀ p : Pair, p.Settled → Shelf.Findable p.key ∧ writable p.kind.freshSeconds = true := by
  refine ⟨?_, ?_, ?_⟩
  · intro directory refused s e findable
    rcases Shelf.writeUnless_cases directory refused s e with
      ⟨nodes, there, all, _, _, _, run⟩ | ⟨f, s', run, told, left⟩
    · exact .inl ⟨nodes, _, there, all, run, Table.lookup_set_self _ _ _,
        fun name other => Table.lookup_set_of_ne _ _ other⟩
    · have same : s'.opened = s.opened := by
        rcases left with rfl | ⟨nodes, there, rfl⟩
        · rfl
        · exact there.symm
      refine .inr ⟨f, s', run, fun small => told small findable.clean, same, ?_⟩
      intro now key named
      exact Shelf.read_of_lookup named (by rw [same]) now
  · intro cache moves
    obtain ⟨es, grown, none⟩ := grown_play ⟨cache, []⟩ moves
    refine ⟨es, grown, none, fun now key findable others => grown.read_of_ne findable others now, ?_⟩
    intro before e after split last now
    subst split
    exact grown.read_last last now
  · intro p settled
    refine ⟨(Pair.nameable_key settled).findable, ?_⟩
    cases p.kind with
    | fx => decide
    | crypto => decide

/-- A file is filled in part when the writing breaks off; the one from before is still read. -/
theorem broken_off_write_kept :
    ∃ s', (Shelf.there [("fx-eur-usd.json", .file "{}".toUTF8)]).writeUnless "cache" (some (.fill 10))
        ⟨"fx-eur-usd", none, none, ⟨0, some 0⟩, 300⟩ =
          (.error (Shelf.unwritable "cache" "fx-eur-usd"), s') ∧
      s'.opened = some [("fx-eur-usd.json", .file "{}".toUTF8)] ∧
      ∀ now, s'.read "cache" now "fx-eur-usd" =
        (Shelf.there [("fx-eur-usd.json", .file "{}".toUTF8)]).read "cache" now "fx-eur-usd" := by
  obtain ⟨one, _, _⟩ := failed_writes_change_nothing
  have findable : Shelf.Findable "fx-eur-usd" := ⟨by decide, by decide, by decide⟩
  rcases one "cache" (some (.fill 10)) (.there [("fx-eur-usd.json", .file "{}".toUTF8)])
      ⟨"fx-eur-usd", none, none, ⟨0, some 0⟩, 300⟩ findable with
    ⟨_, _, _, all, _⟩ | ⟨f, s', run, told, kept, read⟩
  · cases all
  · rw [told (by decide)] at run
    exact ⟨s', run, kept, fun now => read now "fx-eur-usd" findable⟩

end Crew
end QuoteDesk
