import QuoteDesk.Proofs.Cache.Keeping
import QuoteDesk.Proofs.Cache.Temporary
import QuoteDesk.Proofs.Cache.Written

/-
A directory of files keeps quotes as they are written. A write that succeeds changes what is
read under its own key only, since the temporary name of a file is never the name of an entry
and different keys have different names; a write that fails changes nothing that can be read.
-/
namespace QuoteDesk

namespace Shelf

/-! What can be read -/

variable {directory : String}

/-- The file of such a key can be found once it is there. -/
structure Findable (key : String) : Prop where
  clean : key.toList.contains '\x00' = false
  plain : isPlainKey key = true
  short : ¬ longestName < (fileName key).utf8ByteSize

theorem Room.findable {nodes : Table Node} {key : String} (room : Room nodes key)
    (clean : key.toList.contains '\x00' = false) : Findable key := by
  have temporary := utf8ByteSize_freshName nodes key
  have fits := room.short
  refine ⟨clean, room.plain, ?_⟩
  rw [utf8ByteSize_fileName]
  omega

/-- The directory that is there or would be made decides what is found. -/
theorem find_of_findable {key : String} (findable : Findable key) {s : Shelf} {nodes : Table Node}
    (there : s.opened = some nodes) :
    s.find directory key = .ok (nodes.lookup (fileName key)) := by
  obtain ⟨clean, plain, short⟩ := findable
  cases s with
  | absent =>
    cases there
    simp only [find, clean, Bool.false_eq_true, ↓reduceIte, List.lookup_nil]
  | barred => cases there
  | there _ =>
    cases there
    simp only [find, clean, plain, short, Bool.false_eq_true, ↓reduceIte]

theorem find_eq_some_iff {s : Shelf} {key : String} {node : Node} :
    s.find directory key = .ok (some node) ↔
      Findable key ∧ ∃ nodes, s.opened = some nodes ∧ nodes.lookup (fileName key) = some node := by
  constructor
  · intro found
    unfold find at found
    split at found
    · cases found
    · rename_i clean
      split at found
      · cases found
      · cases found
      · rename_i nodes
        split at found
        · rename_i plain
          split at found
          · cases found
          · rename_i short
            exact ⟨⟨by simpa using clean, plain, short⟩, nodes, rfl, Except.ok.inj found⟩
        · split at found
          · cases found
          · cases found
  · rintro ⟨findable, nodes, there, held⟩
    rw [find_of_findable findable there, held]

/-- An entry is read from the file of its key. -/
theorem read_eq_some_iff {s : Shelf} {now : Moment} {key : String} {e : Entry} :
    s.read directory now key = .ok (some e) ↔
      Findable key ∧ ∃ nodes content, s.opened = some nodes ∧
        nodes.lookup (fileName key) = some (.file content) ∧ Entry.ofBytes? now content = some e := by
  have entry : s.read directory now key = .ok (some e) ↔
      ∃ content, s.find directory key = .ok (some (.file content)) ∧
        Entry.ofBytes? now content = some e := by
    unfold read
    rcases s.find directory key with f | (_ | (content | _))
    · exact ⟨fun absurd => (by cases absurd), fun ⟨_, absurd, _⟩ => (by cases absurd)⟩
    · exact ⟨fun absurd => (by cases absurd), fun ⟨_, absurd, _⟩ => (by cases absurd)⟩
    · refine ⟨fun entry => ⟨content, rfl, Except.ok.inj entry⟩, ?_⟩
      rintro ⟨_, ⟨⟩, held⟩
      exact congrArg Except.ok held
    · exact ⟨fun absurd => (by cases absurd), fun ⟨_, absurd, _⟩ => (by cases absurd)⟩
  rw [entry]
  constructor
  · rintro ⟨content, found, held⟩
    obtain ⟨findable, nodes, there, lookup⟩ := find_eq_some_iff.mp found
    exact ⟨findable, nodes, content, there, lookup, held⟩
  · rintro ⟨findable, nodes, content, there, lookup, held⟩
    exact ⟨content, find_eq_some_iff.mpr ⟨findable, nodes, there, lookup⟩, held⟩

/-! What a write leaves -/

/-- A write with all its steps puts the new text beside the others. -/
theorem writeUnless_of_room {s : Shelf} {nodes : Table Node} (there : s.opened = some nodes) {e : Entry}
    (small : writable e.ttl = true) (clean : e.key.toList.contains '\x00' = false)
    (room : Room nodes e.key) :
    s.writeUnless directory none e =
      (.ok (), .there (nodes.set (fileName e.key) (.file e.toJson.write.toUTF8))) := by
  have installed := install_of_room room e.toJson.write.toUTF8
  simp only [writeUnless, Entry.text, small, there, clean, installed, reduceCtorEq, Bool.false_eq_true,
    ↓reduceIte]

/-- Every write is one with all its steps, or it fails and leaves the nodes as they are. -/
theorem writeUnless_cases (directory : String) (refused : Option WriteStep) (s : Shelf) (e : Entry) :
    (∃ nodes, s.opened = some nodes ∧ refused = none ∧ writable e.ttl = true ∧
      e.key.toList.contains '\x00' = false ∧ Room nodes e.key ∧
      s.writeUnless directory refused e =
        (.ok (), .there (nodes.set (fileName e.key) (.file e.toJson.write.toUTF8)))) ∨
    ∃ f s', s.writeUnless directory refused e = (.error f, s') ∧
      (writable e.ttl = true → e.key.toList.contains '\x00' = false →
        f = unwritable directory e.key) ∧
      (s' = s ∨ ∃ nodes, s.opened = some nodes ∧ s' = .there nodes) := by
  unfold writeUnless Entry.text
  cases small : writable e.ttl with
  | false => exact .inr ⟨_, s, rfl, fun absurd => (by cases absurd), .inl rfl⟩
  | true =>
    simp only [↓reduceIte]
    split
    · exact .inr ⟨_, s, rfl, fun _ _ => rfl, .inl rfl⟩
    · rename_i made
      cases there : s.opened with
      | none => exact .inr ⟨_, s, rfl, fun _ _ => rfl, .inl rfl⟩
      | some nodes =>
        cases clean : e.key.toList.contains '\x00' with
        | true => exact .inr ⟨_, _, rfl, fun _ absurd => (by cases absurd), .inr ⟨nodes, rfl, rfl⟩⟩
        | false =>
          rcases install_cases refused nodes e.key e.toJson.write.toUTF8 with ⟨room, steps, run⟩ | run
          · have all : refused = none := by
              cases refused with
              | none => rfl
              | some step => exact absurd (congrArg some (steps step rfl)) made
            simp only [run, Bool.false_eq_true, ↓reduceIte]
            exact .inl ⟨nodes, rfl, all, trivial, trivial, room, rfl⟩
          · simp only [run, Bool.false_eq_true, ↓reduceIte]
            exact .inr ⟨_, _, rfl, fun _ _ => rfl, .inr ⟨nodes, rfl, rfl⟩⟩

/-- What is read after a write was there before, or is read from the text that was written. -/
theorem read_writeUnless {refused : Option WriteStep} {s : Shelf} {now : Moment} {e e' : Entry}
    {key : String}
    (read : (s.writeUnless directory refused e).2.read directory now key = .ok (some e')) :
    s.read directory now key = .ok (some e') ∨
      key = e.key ∧ writable e.ttl = true ∧ Entry.ofBytes? now e.toJson.write.toUTF8 = some e' := by
  rcases writeUnless_cases directory refused s e with
    ⟨nodes, there, _, small, _, _, run⟩ | ⟨f, s', run, _, rfl | ⟨nodes, there, rfl⟩⟩
  · rw [run] at read
    obtain ⟨findable, _, content, ⟨⟩, lookup, held⟩ := read_eq_some_iff.mp read
    by_cases same : key = e.key
    · subst same
      rw [Table.lookup_set_self] at lookup
      cases lookup
      exact .inr ⟨rfl, small, held⟩
    · rw [Table.lookup_set_of_ne _ _ fun names => same (fileName_injective names)] at lookup
      exact .inl (read_eq_some_iff.mpr ⟨findable, nodes, content, there, lookup, held⟩)
  · rw [run] at read
    exact .inl read
  · rw [run, read_eq_some_iff] at read
    exact .inl (read_eq_some_iff.mpr (there ▸ read))

end Shelf

instance : Store.Keeping Files where
  write property f e proper holds new := by
    intro now key e' q read quote
    rcases Shelf.read_writeUnless read with before | ⟨rfl, small, held⟩
    · exact holds now key e' q before quote
    · rw [Entry.ofBytes?_toUTF8 now small] at held
      have timely : ∀ q, e.quote = some q → q.fetchedAt.Proper :=
        fun q carried => proper e.key q (new q carried)
      rw [Entry.quote_of_ofJson?_toJson timely held] at quote
      exact new q quote

/-- Nothing is read from a directory that has no files. -/
theorem Files.holds_empty (directory : String) {s : Shelf} (empty : s.opened = some [])
    (property : String → Quote → Prop) : Store.Holds property (⟨directory, s⟩ : Files) := by
  intro now key e q read
  obtain ⟨_, nodes, content, there, lookup, _⟩ := Shelf.read_eq_some_iff.mp read
  cases empty.symm.trans there
  cases lookup

end QuoteDesk
