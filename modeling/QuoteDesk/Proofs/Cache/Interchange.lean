import QuoteDesk.Proofs.Cache.Agreement
import QuoteDesk.Proofs.Cache.Files
import QuoteDesk.Proofs.Pair

/-
A directory in place of the memory. Each entry in memory has its text in the file of its key, and
nothing else lies in the directory between two steps; since a text is read as the entry that was
written, a cache over the directory answers every run as one over the memory.
-/
namespace QuoteDesk

namespace Shelf

/-- A key that names a file right in the directory and leaves room for a temporary name. -/
structure Nameable (key : String) : Prop where
  plain : isPlainKey key = true
  clean : key.toList.contains '\x00' = false
  short : key.utf8ByteSize + 14 ≤ longestName

theorem Nameable.findable {key : String} (nameable : Nameable key) : Findable key := by
  refine ⟨nameable.clean, nameable.plain, ?_⟩
  have room := nameable.short
  rw [utf8ByteSize_fileName]
  omega

/-- No temporary file is left over. -/
def Tidy (nodes : Table Node) : Prop := ∀ key n, nodes.lookup (temporaryName key n) = none

theorem freshName_of_tidy {nodes : Table Node} (tidy : Tidy nodes) (key : String) :
    freshName nodes key = temporaryName key 0 := by
  have free : (nodes.lookup (temporaryName key 0)).isNone = true := by rw [tidy key 0]; rfl
  simp only [freshName, List.range_succ_eq_map, List.find?_cons, free]

theorem utf8ByteSize_temporaryName_zero (key : String) :
    (temporaryName key 0).utf8ByteSize = key.utf8ByteSize + 14 := by
  have parts : ".".utf8ByteSize = 1 ∧ ".tmp".utf8ByteSize = 4 ∧
      (String.ofList (List.replicate (8 - (Digits.write 0).length) '0' ++ Digits.write 0)).utf8ByteSize
        = 8 := by decide
  simp only [temporaryName, String.utf8ByteSize_append, parts]
  omega

theorem Tidy.set {nodes : Table Node} (tidy : Tidy nodes) (key : String) (node : Node) :
    Tidy (nodes.set (fileName key) node) := by
  intro key' n
  rw [Table.lookup_set_of_ne _ _ (temporaryName_ne_fileName key' n key)]
  exact tidy key' n

theorem room_of_tidy {nodes : Table Node} {key : String} (tidy : Tidy nodes)
    (nameable : Nameable key) (free : nodes.lookup (fileName key) ≠ some .folder) :
    Room nodes key := by
  refine ⟨nameable.plain, ?_, free⟩
  rw [freshName_of_tidy tidy, utf8ByteSize_temporaryName_zero]
  exact nameable.short

end Shelf

/-! A directory beside the memory -/

/-- The directory has the text of each entry in the memory, in the file of its key. -/
structure Mirrors (m : Memory) (f : Files) : Prop where
  storable : ∀ key e, m.get? key = some e → e.Storable
  nodes : ∃ nodes, f.shelf.opened = some nodes ∧ Shelf.Tidy nodes ∧
    ∀ key, nodes.lookup (Shelf.fileName key) =
      (m.get? key).map fun e => .file e.toJson.write.toUTF8

namespace Mirrors

variable {m : Memory} {f : Files}

theorem empty (directory : String) {shelf : Shelf} (none : shelf.opened = some []) :
    Mirrors Memory.empty ⟨directory, shelf⟩ :=
  ⟨fun _ _ absurd => (by cases absurd), [], none, fun _ _ => rfl, fun _ => rfl⟩

theorem find (mirrors : Mirrors m f) {key : String} (nameable : Shelf.Nameable key) :
    f.shelf.find f.directory key =
      .ok ((m.get? key).map fun e => .file e.toJson.write.toUTF8) := by
  obtain ⟨nodes, there, _, held⟩ := mirrors.nodes
  rw [Shelf.find_of_findable nameable.findable there, held]

theorem read (mirrors : Mirrors m f) {key : String} (nameable : Shelf.Nameable key) (now : Moment) :
    f.shelf.read f.directory now key = .ok (m.get? key) := by
  simp only [Shelf.read, mirrors.find nameable]
  cases held : m.get? key with
  | none => rfl
  | some e => exact congrArg Except.ok (Entry.ofBytes?_of_storable now (mirrors.storable key e held))

/-- What is written to both is in both. -/
theorem write (mirrors : Mirrors m f) {e : Entry} (nameable : Shelf.Nameable e.key)
    (storable : e.Storable) :
    (Store.write f e).1 = .ok () ∧ Mirrors (m.put e) (Store.write f e).2 := by
  obtain ⟨nodes, there, tidy, held⟩ := mirrors.nodes
  have free : nodes.lookup (Shelf.fileName e.key) ≠ some .folder := by
    rw [held]
    cases m.get? e.key <;> simp
  have written : Store.write f e = (.ok (), { f with shelf := .there (nodes.set (Shelf.fileName e.key)
      (.file e.toJson.write.toUTF8)) }) := by
    have room := Shelf.room_of_tidy tidy nameable free
    simp only [Store.write, Shelf.writeUnless_of_room there storable.ttl nameable.clean room]
  rw [written]
  refine ⟨rfl, ?_, _, rfl, tidy.set e.key _, ?_⟩
  · intro key e' found
    by_cases same : key = e.key
    · subst same
      rw [Memory.get?_put_self] at found
      cases found
      exact storable
    · rw [Memory.get?_put_of_ne m e same] at found
      exact mirrors.storable key e' found
  · intro key
    by_cases same : key = e.key
    · subst same
      rw [Table.lookup_set_self, Memory.get?_put_self, Option.map_some]
    · have other : Shelf.fileName key ≠ Shelf.fileName e.key :=
        fun names => same (Shelf.fileName_injective names)
      rw [Table.lookup_set_of_ne _ _ other, held, Memory.get?_put_of_ne m e same]

end Mirrors

namespace Cache

theorem agreement_mirrors : Agreement Shelf.Nameable Mirrors where
  read mirrors _ nameable now := (mirrors.read nameable now).symm
  storable mirrors _ _ _ _ held := mirrors.storable _ _ (Except.ok.inj held)
  write mirrors _ nameable storable := by
    obtain ⟨same, after⟩ := mirrors.write nameable storable
    exact ⟨same.symm, after⟩

end Cache

/-! Keys of pairs -/

namespace Text

theorem utf8ByteSize_ofList_le (cs : List Char) : (String.ofList cs).utf8ByteSize ≤ 4 * cs.length := by
  induction cs with
  | nil => exact Nat.le_refl 0
  | cons c cs ih =>
    have split : String.ofList (c :: cs) = String.singleton c ++ String.ofList cs := by
      rw [← String.toList_inj]
      simp
    have small := c.utf8Size_le_four
    rw [split, String.utf8ByteSize_append, String.utf8ByteSize_singleton, List.length_cons]
    omega

end Text

namespace Symbol

theorem le_toNat_of_mem_lower {s : String} (settled : Settled s) :
    ∀ c ∈ (Text.lower s).toList, 48 ≤ c.toNat := by
  intro c member
  rw [toList_lower settled, List.mem_map] at member
  obtain ⟨d, here, rfl⟩ := member
  have capital := settled.capital d here
  rw [Text.toNat_smallChar capital]
  rw [Text.isCapital_iff] at capital
  split <;> omega

theorem length_lower_le {s : String} (settled : Settled s) : (Text.lower s).toList.length ≤ 10 := by
  rw [toList_lower settled, List.length_map]
  exact settled.atMost

end Symbol

namespace Pair

/-- Keys are made of hyphens, digits and small letters. -/
theorem hyphen_or_above_of_mem_key {p : Pair} (settled : p.Settled) :
    ∀ c ∈ p.key.toList, c = '-' ∨ 48 ≤ c.toNat := by
  have kind : ∀ c ∈ p.kind.name.toList, 48 ≤ c.toNat := by
    have all : p.kind.name.toList.all (48 ≤ ·.toNat) = true := by cases p.kind <;> rfl
    intro c member
    simpa using List.all_eq_true.mp all c member
  intro c member
  rw [toList_key] at member
  simp only [List.mem_append, List.mem_cons] at member
  rcases member with inside | hyphen | inside | hyphen | inside
  · exact .inr (kind c inside)
  · exact .inl hyphen
  · exact .inr (Symbol.le_toNat_of_mem_lower settled.base c inside)
  · exact .inl hyphen
  · exact .inr (Symbol.le_toNat_of_mem_lower settled.quote c inside)

theorem length_key_le {p : Pair} (settled : p.Settled) : p.key.toList.length ≤ 28 := by
  have kind : p.kind.name.toList.length ≤ 6 := by
    cases p.kind <;> decide
  have base := Symbol.length_lower_le settled.base
  have quote := Symbol.length_lower_le settled.quote
  rw [toList_key]
  simp only [List.length_append, List.length_cons]
  omega

theorem nameable_key {p : Pair} (settled : p.Settled) : Shelf.Nameable p.key := by
  have absent : ∀ c, c ≠ '-' → c.toNat < 48 → p.key.toList.contains c = false := by
    intro c other low
    rw [List.contains_eq_mem, decide_eq_false_iff_not]
    intro member
    rcases hyphen_or_above_of_mem_key settled c member with same | high
    · exact other same
    · omega
  have size := Text.utf8ByteSize_ofList_le p.key.toList
  have length := length_key_le settled
  rw [String.ofList_toList] at size
  refine ⟨?_, absent '\x00' (by decide) (by decide), ?_⟩
  · rw [Shelf.isPlainKey, absent '/' (by decide) (by decide)]
    rfl
  · rw [Shelf.longestName]
    omega

end Pair

namespace Cache

/-- Every run is answered over an empty directory as over an empty memory, and the keys of pairs
can name files. -/
theorem files_answer_as_memory (directory : String) {shelf : Shelf} (none : shelf.opened = some [])
    {now : Moment} (proper : now.Proper) {steps : List Step}
    (sound : ∀ step ∈ steps, step.Sound Shelf.Nameable) :
    (⟨ofStore ⟨directory, shelf⟩, now⟩ : Scene Files).replies steps =
        (⟨ofStore Memory.empty, now⟩ : Scene Memory).replies steps ∧
      ∀ p : Pair, p.Settled → Shelf.Nameable p.key := by
  refine ⟨?_, fun p settled => Pair.nameable_key settled⟩
  exact (agreement_mirrors.replies ⟨⟨Mirrors.empty directory none, rfl⟩, rfl, proper⟩ sound).symm

/-- A price of minus zero east of universal time, an outlived quote and a failure that is told in
two lines, an entry with naive times, and a second cache. -/
def variedRun : List Step :=
  [.lookup "crypto-btc-usd" 300 (.ok ⟨"BTC", "USD", ⟨true, 0, -7⟩, "coinbase", ⟨0, some 330⟩⟩),
    .clock ⟨86400000000, some 0⟩,
    .lookup "crypto-btc-usd" 300 (.error (.fault (.evaluation "no\n\"price\""))),
    .write ⟨"fx-eur-usd", none, some ⟨"late", ⟨5, none⟩⟩, ⟨5, none⟩, -1⟩, .reopen,
    .read "fx-eur-usd", .read "crypto-btc-usd", .statistics]

theorem varied_run_over_files :
    Shelf.absent.opened = some [] ∧ (⟨0, some 0⟩ : Moment).Proper ∧
      (∀ step ∈ variedRun, step.Sound Shelf.Nameable) ∧
      (⟨ofStore ⟨"cache", .absent⟩, ⟨0, some 0⟩⟩ : Scene Files).replies variedRun =
        (⟨ofStore Memory.empty, ⟨0, some 0⟩⟩ : Scene Memory).replies variedRun := by
  have near : ∀ t : Moment, Moment.inCalendar t.ticks = true → t.offset.getD 0 < 1440 →
      -1440 < t.offset.getD 0 → t.Proper := by
    intro t calendar above below
    refine ⟨calendar, fun minutes here => ?_⟩
    rw [here] at above below
    simp only [Option.getD_some] at above below
    omega
  have proper : (⟨0, some 0⟩ : Moment).Proper := near _ rfl (by decide) (by decide)
  have quote : (⟨"BTC", "USD", ⟨true, 0, -7⟩, "coinbase", ⟨0, some 330⟩⟩ : Quote).Storable :=
    ⟨by decide, near _ rfl (by decide) (by decide)⟩
  have naive : (⟨5, none⟩ : Moment).Proper := near _ rfl (by decide) (by decide)
  have crypto : Shelf.Nameable "crypto-btc-usd" := ⟨by decide, by decide, by decide⟩
  have fx : Shelf.Nameable "fx-eur-usd" := ⟨by decide, by decide, by decide⟩
  have entry : (⟨"fx-eur-usd", none, some ⟨"late", ⟨5, none⟩⟩, ⟨5, none⟩, -1⟩ : Entry).Storable := by
    refine ⟨fun _ absurd => (by cases absurd), ?_, naive, by decide⟩
    rintro _ ⟨⟩
    exact naive
  have sound : ∀ step ∈ variedRun, step.Sound Shelf.Nameable := by
    simp only [variedRun, List.forall_mem_cons]
    refine ⟨⟨crypto, by decide, ?_⟩, near _ rfl (by decide) (by decide),
      ⟨crypto, by decide, fun _ absurd => (by cases absurd)⟩, ⟨fx, entry⟩, trivial, fx, crypto, trivial,
      List.forall_mem_nil _⟩
    rintro _ ⟨⟩
    exact quote
  exact ⟨rfl, proper, sound, (files_answer_as_memory "cache" rfl proper sound).1⟩

end Cache
end QuoteDesk
