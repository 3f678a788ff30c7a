import QuoteDesk.Proofs.Cache.Fallback
import QuoteDesk.Proofs.Cache.Files

/-
Lookups over a directory of files, whatever bytes stand in the file of the key. The
directory can be read and takes new files. Two things then break a lookup: an entry
whose time does not tell its distance from universal time, and a freshness time too
large to be written down. All other content is an entry to be used, or counts as none.
-/
namespace QuoteDesk

namespace Shelf

/-- A file with some content stands at the place of a key, and the directory takes a
temporary file beside it. -/
structure Holds (s : Shelf) (key : String) (content : ByteArray) : Prop where
  plain : isPlainKey key = true
  named : key.toList.contains '\x00' = false
  there : ∃ nodes, s = .there nodes ∧ nodes.lookup (fileName key) = some (.file content) ∧
    (freshName nodes key).utf8ByteSize ≤ longestName

theorem read_of_holds {s : Shelf} {key : String} {content : ByteArray}
    (holds : s.Holds key content) (directory : String) (now : Moment) :
    s.read directory now key = .ok (Entry.ofBytes? now content) := by
  obtain ⟨nodes, rfl, file, room⟩ := holds.there
  have free : nodes.lookup (fileName key) ≠ some .folder := by simp [file]
  have findable := Room.findable ⟨holds.plain, room, free⟩ holds.named
  have opened : (Shelf.there nodes).opened = some nodes := rfl
  rw [read, find_of_findable findable opened, file]
  rfl

/-- What is written fails only for a freshness time too large. -/
theorem write_of_holds {s : Shelf} {key : String} {content : ByteArray}
    (holds : s.Holds key content) (directory : String) {e : Entry} (same : e.key = key) :
    (s.writeUnless directory none e).1 =
      if writable e.ttl then .ok () else .error (.defect .wrongType) := by
  obtain ⟨nodes, rfl, file, room⟩ := holds.there
  subst same
  by_cases small : writable e.ttl = true
  · have free : nodes.lookup (fileName e.key) ≠ some .folder := by simp [file]
    rw [writeUnless_of_room rfl small holds.named ⟨holds.plain, room, free⟩, if_pos small]
  · simp only [writeUnless, Entry.text, small, Bool.false_eq_true, ↓reduceIte]

end Shelf

namespace Cache

/-- A lookup was answered, or failed just as its fetch did. -/
def Clean (fetched : Outcome Quote) (answer : Outcome CachedQuote) : Prop :=
  (∃ a, answer = .ok a) ∨ ∃ f, fetched = .error (.fault f) ∧ answer = .error (.fault f)

theorem not_clean_wrongType (fetched : Outcome Quote) :
    ¬ Clean fetched (.error (.defect .wrongType)) := by
  rintro (⟨_, absurd⟩ | ⟨_, _, absurd⟩)
  · cases absurd
  · cases absurd

/-- An entry with a quote whose time tells no distance from universal time. -/
def Ageless (entry : Option Entry) : Prop :=
  ∃ e q, entry = some e ∧ e.quote = some q ∧ ¬ e.fetchedAt.Aware

/-- An entry with a quote that is still fresh. -/
def Young (now : Moment) (ttl : Int) (entry : Option Entry) : Prop :=
  ∃ e q age, entry = some e ∧ e.quote = some q ∧
    Moment.age? e.fetchedAt now = some age ∧ age ≤ ttl

theorem not_young_of_unserved {now : Moment} {ttl : Int} {entry : Option Entry}
    (unserved : Unserved now ttl entry) : ¬ Young now ttl entry := by
  rintro ⟨e, q, age, here, quote, known, young⟩
  obtain ⟨_, known', old⟩ := unserved e q here quote
  cases known.symm.trans known'
  omega

theorem not_ageless_of_age {now : Moment} (clock : now.Aware) {e : Entry} {age : Nat}
    (known : Moment.age? e.fetchedAt now = some age) : ¬ Ageless (some e) := by
  rintro ⟨_, _, here, _, naive⟩
  cases here
  rw [(Moment.age?_eq_none_iff clock).mpr naive] at known
  cases known

theorem not_ageless_of_unserved {now : Moment} (clock : now.Aware) {ttl : Int}
    {entry : Option Entry} (unserved : Unserved now ttl entry) : ¬ Ageless entry := by
  rintro ⟨e, q, rfl, quote, naive⟩
  obtain ⟨_, known, _⟩ := unserved e q rfl quote
  exact not_ageless_of_age clock known ⟨e, q, rfl, quote, naive⟩

/-- What a write over such a shelf can come to. -/
theorem write_cases {c : Cache Files} {key : String} {content : ByteArray}
    (holds : c.store.shelf.Holds key content) {e : Entry} (same : e.key = key) {r : Outcome Unit}
    {s : Files} (write : Store.write c.store e = (r, s)) :
    (writable e.ttl = true ∧ r = .ok ()) ∨
    (writable e.ttl = false ∧ r = .error (.defect .wrongType)) := by
  have result : r = (c.store.shelf.writeUnless c.store.directory none e).1 :=
    (congrArg Prod.fst write).symm
  rw [Shelf.write_of_holds holds c.store.directory same] at result
  cases small : writable e.ttl
  · exact .inr ⟨rfl, by simpa [small] using result⟩
  · exact .inl ⟨rfl, by simpa [small] using result⟩

/-- How a lookup over files ends, by what its file holds. -/
theorem answer_of_content {c : Cache Files} {now : Moment} {key : String} {ttl : Int}
    {fetched : Outcome Quote} {answer : Outcome CachedQuote} {made : Bool} {c' : Cache Files}
    (passage : Passage c now key ttl fetched answer made c') (clock : now.Aware)
    (fetches : ∀ d, fetched ≠ .error (.defect d)) {content : ByteArray}
    (holds : c.store.shelf.Holds key content) :
    (Clean fetched answer ∧ ¬ Ageless (Entry.ofBytes? now content) ∧
      (writable ttl ∨ Young now ttl (Entry.ofBytes? now content))) ∨
    (answer = .error (.defect .wrongType) ∧ (Ageless (Entry.ofBytes? now content) ∨
      writable ttl = false ∧ ¬ Young now ttl (Entry.ofBytes? now content))) := by
  have content_read : Store.read c.store now key = .ok (Entry.ofBytes? now content) :=
    Shelf.read_of_holds holds c.store.directory now
  generalize Entry.ofBytes? now content = entry at content_read ⊢
  cases passage with
  | unreadable read => cases content_read.symm.trans read
  | @ageless e q read quote age =>
    cases content_read.symm.trans read
    exact .inr ⟨rfl, .inl ⟨e, q, rfl, quote, (Moment.age?_eq_none_iff clock).mp age⟩⟩
  | @fresh e q age read quote known young =>
    cases content_read.symm.trans read
    exact .inl ⟨.inl ⟨_, rfl⟩, not_ageless_of_age clock known,
      .inr ⟨e, q, age, rfl, quote, known, young⟩⟩
  | aborted read unserved outcome => exact absurd outcome (fetches _)
  | kept read unserved outcome write =>
    cases content_read.symm.trans read
    rcases write_cases holds rfl write with ⟨small, _⟩ | ⟨_, absurd⟩
    · exact .inl ⟨.inl ⟨_, rfl⟩, not_ageless_of_unserved clock unserved, .inl small⟩
    · cases absurd
  | refused read unserved outcome write =>
    cases content_read.symm.trans read
    rcases write_cases holds rfl write with ⟨_, absurd⟩ | ⟨big, refusal⟩
    · cases absurd
    · cases refusal
      exact .inr ⟨rfl, .inr ⟨big, not_young_of_unserved unserved⟩⟩
  | unrecorded read unserved outcome write =>
    cases content_read.symm.trans read
    rcases write_cases holds rfl write with ⟨_, absurd⟩ | ⟨big, refusal⟩
    · cases absurd
    · cases refusal
      exact .inr ⟨rfl, .inr ⟨big, not_young_of_unserved unserved⟩⟩
  | failed read bare outcome write sound =>
    cases content_read.symm.trans read
    rcases write_cases holds rfl write with ⟨small, _⟩ | ⟨_, refusal⟩
    · have unserved : Unserved now ttl entry := unserved_of_bare bare
      exact .inl ⟨.inr ⟨_, outcome, rfl⟩, not_ageless_of_unserved clock unserved, .inl small⟩
    · exact absurd refusal (sound _)
  | @fellBack e q age f r s read quote known old outcome write sound =>
    cases content_read.symm.trans read
    rcases write_cases holds rfl write with ⟨small, _⟩ | ⟨_, refusal⟩
    · exact .inl ⟨.inl ⟨_, rfl⟩, not_ageless_of_age clock known, .inl small⟩
    · exact absurd refusal (sound _)

/-- A file that holds no entry with a quote is a miss: the fetch is made, and its quote
or its fault is the answer. -/
theorem answer_of_miss {c : Cache Files} {now : Moment} {key : String} {ttl : Int}
    {fetched : Outcome Quote} {answer : Outcome CachedQuote} {made : Bool} {c' : Cache Files}
    (passage : Passage c now key ttl fetched answer made c')
    (fetches : ∀ d, fetched ≠ .error (.defect d)) (small : writable ttl = true)
    {content : ByteArray} (holds : c.store.shelf.Holds key content)
    (bare : (Entry.ofBytes? now content).bind (·.quote) = none) :
    made = true ∧ answer = fetched.map fun q => ⟨q, .live, key, ttl, 0⟩ := by
  have content_read : Store.read c.store now key = .ok (Entry.ofBytes? now content) :=
    Shelf.read_of_holds holds c.store.directory now
  generalize Entry.ofBytes? now content = entry at content_read bare
  cases passage with
  | unreadable read => cases content_read.symm.trans read
  | ageless read quote age =>
    cases content_read.symm.trans read
    simp [quote] at bare
  | fresh read quote known young =>
    cases content_read.symm.trans read
    simp [quote] at bare
  | aborted read unserved outcome => exact absurd outcome (fetches _)
  | kept read unserved outcome write =>
    subst outcome
    exact ⟨rfl, rfl⟩
  | refused read unserved outcome write =>
    rcases write_cases holds rfl write with ⟨_, absurd⟩ | ⟨big, _⟩
    · cases absurd
    · cases small.symm.trans big
  | unrecorded read unserved outcome write =>
    rcases write_cases holds rfl write with ⟨_, absurd⟩ | ⟨big, _⟩
    · cases absurd
    · cases small.symm.trans big
  | failed read bare' outcome write sound =>
    subst outcome
    exact ⟨rfl, rfl⟩
  | fellBack read quote known old outcome write sound =>
    cases content_read.symm.trans read
    simp [quote] at bare

/-- Over a directory that can be read and written, whatever the file of the key holds, a
lookup is answered or fails as its fetch does, except in two cases, in which it breaks
down on a value of the wrong type: the file holds an entry with a quote and a time of
unknown distance from universal time, or the freshness time is too large to write and
no fresh quote is there. A file that holds no quote is a miss. -/
theorem clean_iff_content {ω : Type} (c : Cache Files) (now : Moment) (key : String) (ttl : Int)
    (fetch : ω → Outcome Quote × ω) (w : ω) (content : ByteArray)
    (holds : c.store.shelf.Holds key content) (clock : now.Aware)
    (fetches : ∀ d, (fetch w).1 ≠ .error (.defect d)) :
    (Clean (fetch w).1 (c.lookup now key ttl fetch w).1 ↔
      ¬ Ageless (Entry.ofBytes? now content) ∧
        (writable ttl = true ∨ Young now ttl (Entry.ofBytes? now content))) ∧
    (¬ Clean (fetch w).1 (c.lookup now key ttl fetch w).1 →
      (c.lookup now key ttl fetch w).1 = .error (.defect .wrongType)) ∧
    ((Entry.ofBytes? now content).bind (·.quote) = none → writable ttl = true →
      (c.lookup now key ttl fetch w).2.1 = true ∧
      (c.lookup now key ttl fetch w).1 = (fetch w).1.map fun q => ⟨q, .live, key, ttl, 0⟩) := by
  obtain ⟨answer, made, c', passage, run⟩ := passage_lookup c now key ttl fetch w
  rw [run]
  refine ⟨?_, ?_, fun bare small => answer_of_miss passage fetches small holds bare⟩
  · rcases answer_of_content passage clock fetches holds with ⟨clean, sound⟩ | ⟨rfl, ageless | ⟨big, old⟩⟩
    · exact ⟨fun _ => sound, fun _ => clean⟩
    · exact ⟨fun clean => absurd clean (not_clean_wrongType _), fun sound => absurd ageless sound.1⟩
    · refine ⟨fun clean => absurd clean (not_clean_wrongType _), fun sound => ?_⟩
      rcases sound.2 with small | young
      · cases small.symm.trans big
      · exact absurd young old
  · intro unclean
    rcases answer_of_content passage clock fetches holds with ⟨clean, _⟩ | ⟨broken, _⟩
    · exact absurd clean unclean
    · exact broken

/-- An entry as it may stand in a file, its time without a distance from universal time. -/
def naiveText : String :=
  "\x7b\"key\":\"btc\",\"quote\":\x7b\"base\":\"BTC\",\"quote\":\"USD\",\"unit_price\":\"7\","
    ++ "\"provider\":\"coinbase\"\x7d,\"fetched_at\":\"2024-01-01T11:00:00\",\"ttl_seconds\":300\x7d"

def naiveFiles : Cache Files :=
  ofStore ⟨"cache", .there [(Shelf.fileName "btc", .file naiveText.toUTF8)]⟩

theorem holds_naiveFiles : naiveFiles.store.shelf.Holds "btc" naiveText.toUTF8 :=
  ⟨by decide, by decide, _, rfl, by simp, by decide +kernel⟩

theorem ageless_naiveText : Ageless (Entry.ofBytes? anHourLater naiveText.toUTF8) := by
  have content : (Entry.ofBytes? anHourLater naiveText.toUTF8).any (fun e =>
      e.quote.isSome && e.fetchedAt.offset.isNone) = true := by decide +kernel
  obtain ⟨e, here, naive⟩ := (Option.any_eq_true _ _).mp content
  simp only [Bool.and_eq_true, Option.isSome_iff_exists, Option.isNone_iff_eq_none] at naive
  obtain ⟨⟨q, quote⟩, unknown⟩ := naive
  exact ⟨e, q, here, quote, by simp [Moment.Aware, unknown]⟩

theorem naive_time_breaks_lookup :
    naiveFiles.store.shelf.Holds "btc" naiveText.toUTF8 ∧ anHourLater.Aware ∧
      (naiveFiles.lookup anHourLater "btc" 300
        (fun w : Unit => (.ok (quoteAt 9 anHourLater), w)) ()).1 = .error (.defect .wrongType) := by
  obtain ⟨clean_iff, broken, _⟩ :=
    clean_iff_content naiveFiles anHourLater "btc" 300
      (fun w : Unit => (.ok (quoteAt 9 anHourLater), w)) () naiveText.toUTF8 holds_naiveFiles rfl
      (by intro d absurd; cases absurd)
  refine ⟨holds_naiveFiles, rfl, broken ?_⟩
  intro clean
  exact (clean_iff.mp clean).1 ageless_naiveText

end Cache
end QuoteDesk
