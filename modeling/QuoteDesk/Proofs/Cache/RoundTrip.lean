import QuoteDesk.Proofs.Cache.FailedWrites

/-
An entry in a file comes back. Whatever the parts of an entry are, once its write has succeeded
it is read as it was written, at any time, and writing it again leaves the directory as it is.
-/
namespace QuoteDesk

namespace Shelf

variable {directory : String} {s : Shelf} {nodes : Table Node} {e : Entry}

/-- The directory is there or can be made, and takes an entry of this key. -/
def Usable (s : Shelf) (key : String) : Prop :=
  key.toList.contains '\x00' = false ∧ ∃ nodes, s.opened = some nodes ∧ Room nodes key

theorem Room.set_fileName {key key' : String} (room : Room nodes key) (content : ByteArray) :
    Room (nodes.set (fileName key') (.file content)) key := by
  refine ⟨room.plain, ?_, ?_⟩
  · rw [freshName_set_fileName]
    exact room.short
  · by_cases same : fileName key = fileName key'
    · rw [same, Table.lookup_set_self]
      simp
    · rw [Table.lookup_set_of_ne _ _ same]
      exact room.free

theorem writeUnless_of_usable (usable : s.Usable e.key) (small : writable e.ttl = true) :
    (s.writeUnless directory none e).1 = .ok () := by
  obtain ⟨clean, nodes, there, room⟩ := usable
  rw [writeUnless_of_room there small clean room]

/-- A write that succeeds leaves the text of the entry and room for it. -/
theorem written_of_ok (ok : (s.writeUnless directory none e).1 = .ok ()) :
    ∃ nodes, (s.writeUnless directory none e).2 = .there nodes ∧
      nodes.set (fileName e.key) (.file e.toJson.write.toUTF8) = nodes ∧
      nodes.lookup (fileName e.key) = some (.file e.toJson.write.toUTF8) ∧
      Findable e.key ∧ Room nodes e.key := by
  rcases writeUnless_cases directory none s e with ⟨nodes, _, _, _, clean, room, run⟩ | ⟨f, s', run, _⟩
  · rw [run]
    exact ⟨_, rfl, Table.set_set _ _ _ _, Table.lookup_set_self _ _ _, room.findable clean,
      room.set_fileName _⟩
  · rw [run] at ok
    cases ok

end Shelf

/-- For an entry whose parts can all be written down, of any price, times, texts and with or
without quote and failure: a usable directory takes it, and once it is taken it is read as it
was, and written again it leaves the same text and the same files. -/
theorem Files.read_after_write (f : Files) (e : Entry) (storable : e.Storable) :
    (f.shelf.Usable e.key → (Store.write f e).1 = .ok ()) ∧
    ((Store.write f e).1 = .ok () →
      (∀ now, Store.read (Store.write f e).2 now e.key = .ok (some e)) ∧
      (Store.write f e).2.shelf.text? e.key = some e.toJson.write ∧
      Store.write (Store.write f e).2 e = (.ok (), (Store.write f e).2)) := by
  refine ⟨fun usable => Shelf.writeUnless_of_usable usable storable.ttl, ?_⟩
  intro ok
  obtain ⟨nodes, left, same, held, findable, room⟩ := Shelf.written_of_ok ok
  have after : (Store.write f e).2 = ⟨f.directory, .there nodes⟩ :=
    congrArg (Files.mk f.directory) left
  rw [after]
  refine ⟨?_, ?_, ?_⟩
  · intro now
    have entry := Entry.ofBytes?_of_storable now storable
    exact Shelf.read_eq_some_iff.mpr ⟨findable, nodes, _, rfl, held, entry⟩
  · simp only [Shelf.text?, held, Text.fromUTF8?_toUTF8]
  · have again : (Shelf.there nodes).writeUnless f.directory none e = (.ok (), .there nodes) := by
      rw [Shelf.writeUnless_of_room rfl storable.ttl findable.clean room, same]
    simp only [Store.write, again]

/-- A price of minus zero with places, a failure told in two lines with a quotation mark, one time
east of universal time and one naive, and a freshness time below zero. -/
def variedEntry : Entry :=
  ⟨"crypto-btc-usd", some ⟨"BTC", "USD", ⟨true, 0, -7⟩, "coinbase", ⟨1, some 330⟩⟩,
    some ⟨"no\n\"price\"", ⟨5, none⟩⟩, ⟨1, some 330⟩, -1⟩

theorem varied_entry_read_after_write :
    variedEntry.Storable ∧ (Store.write (⟨"cache", .absent⟩ : Files) variedEntry).1 = .ok () ∧
      Store.read (Store.write (⟨"cache", .absent⟩ : Files) variedEntry).2 ⟨0, some 0⟩ "crypto-btc-usd" =
        .ok (some variedEntry) := by
  have east : (⟨1, some 330⟩ : Moment).Proper := ⟨by decide, by simp⟩
  have naive : (⟨5, none⟩ : Moment).Proper := ⟨by decide, by simp⟩
  have storable : variedEntry.Storable := by
    refine ⟨?_, ?_, east, by decide⟩
    · intro q here
      cases here
      exact ⟨by decide, east⟩
    · intro f here
      cases here
      exact naive
  have usable : Shelf.absent.Usable variedEntry.key := by
    refine ⟨by decide, [], rfl, by decide, by decide, ?_⟩
    intro absurd
    cases absurd
  obtain ⟨taken, back⟩ := Files.read_after_write ⟨"cache", .absent⟩ variedEntry storable
  exact ⟨storable, taken usable, (back (taken usable)).1 ⟨0, some 0⟩⟩

end QuoteDesk
