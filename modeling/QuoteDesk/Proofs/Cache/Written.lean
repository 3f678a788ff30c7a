import QuoteDesk.Cache.Entry
import QuoteDesk.Proofs.Json.Written
import QuoteDesk.Proofs.Moment.Text

/-
The text of an entry, read back. A quote whose time is one of the calendar comes back as it
was, or not at all: a price too large or too small to be read takes the whole entry with it.
-/
namespace QuoteDesk

theorem Text.fromUTF8?_toUTF8 (s : String) : String.fromUTF8? s.toUTF8 = some s :=
  dif_pos s.isValidUTF8

theorem Moment.ofJson?_toText {t : Moment} (proper : t.Proper) :
    Moment.ofJson? (.text t.toText) = some t := by
  rw [Moment.ofJson?, Moment.read_toText proper]
  rfl

theorem Quote.ofJson?_toJson (now : Moment) {q : Quote} (proper : q.fetchedAt.Proper) :
    Quote.ofJson? now q.toJson = if q.unitPrice.admissible then some q else none := by
  have price : Json.decimal? (.text q.unitPrice.toText) = Numeral.bounded q.unitPrice :=
    Decimal.read_toText q.unitPrice
  simp only [Quote.ofJson?, Quote.toJson, member?, timeOr?, List.lookup_cons, beq_self_eq_true,
    String.reduceBEq, Option.bind_eq_bind, Option.bind_some, Json.text?, price,
    Moment.ofJson?_toText proper, Numeral.bounded]
  split <;> rfl

theorem FetchError.ofJson?_toJson (now : Moment) {f : FetchError} (proper : f.failedAt.Proper) :
    FetchError.ofJson? now f.toJson = some f := by
  simp only [FetchError.ofJson?, FetchError.toJson, member?, timeOr?, List.lookup_cons,
    beq_self_eq_true, String.reduceBEq, Option.bind_eq_bind, Option.bind_some, Json.text?,
    Moment.ofJson?_toText proper]

/-! Values that come back -/

theorem Quote.plain_toJson (q : Quote) : Json.Plain q.toJson := by
  have names : ["base", "quote", "unit_price", "provider", "fetched_at"].Nodup := by decide
  exact ⟨names, trivial, trivial, trivial, trivial, trivial, trivial⟩

theorem FetchError.plain_toJson (f : FetchError) : Json.Plain f.toJson := by
  have names : ["message", "failed_at"].Nodup := by decide
  exact ⟨names, trivial, trivial, trivial⟩

namespace Entry

theorem plain_toJson {e : Entry} (small : writable e.ttl = true) : Json.Plain e.toJson := by
  have names : ["key", "quote", "last_error", "fetched_at", "ttl_seconds"].Nodup := by decide
  have quote : Json.Plain (e.quote.elim .null Quote.toJson) := by
    cases e.quote with
    | none => trivial
    | some q => exact q.plain_toJson
  have failure : Json.Plain (e.lastError.elim .null FetchError.toJson) := by
    cases e.lastError with
    | none => trivial
    | some f => exact f.plain_toJson
  have range : Json.InRange e.ttl := by
    simp only [writable, Bool.and_eq_true, decide_eq_true_eq] at small
    exact small
  exact ⟨names, trivial, quote, failure, trivial, range, trivial⟩

theorem depth_toJson (e : Entry) : Json.depth e.toJson ≤ 2 := by
  have quote : Json.depth (e.quote.elim .null Quote.toJson) ≤ 1 := by
    cases e.quote with
    | none => exact Nat.zero_le 1
    | some q => exact Nat.le_refl 1
  have failure : Json.depth (e.lastError.elim .null FetchError.toJson) ≤ 1 := by
    cases e.lastError with
    | none => exact Nat.zero_le 1
    | some f => exact Nat.le_refl 1
  simp only [toJson, Json.depth, Json.depthMembers]
  omega

/-- What the bytes of a written entry are read as. -/
theorem ofBytes?_toUTF8 (now : Moment) {e : Entry} (small : writable e.ttl = true) :
    ofBytes? now e.toJson.write.toUTF8 = ofJson? now e.toJson := by
  have shallow : Json.depth e.toJson ≤ Json.deepest := Nat.le_trans (depth_toJson e) (by decide)
  rw [ofBytes?, Text.fromUTF8?_toUTF8, Option.bind_eq_bind, Option.bind_some,
    Json.read_write (plain_toJson small) shallow]
  rfl

/-! Entries that come back -/

theorem part_of_ofJson? {now : Moment} {members : List (String × Json)} {e : Entry}
    (read : ofJson? now (.object members) = some e) :
    part? members "quote" (Quote.ofJson? now) = some e.quote := by
  simp only [ofJson?, Option.bind_eq_bind, Option.bind_eq_some_iff] at read
  obtain ⟨_, _, _, held, _, _, _, _, _, _, same⟩ := read
  cases same
  exact held

/-- An entry that comes back has the quote that it was written with. -/
theorem quote_of_ofJson?_toJson {now : Moment} {e e' : Entry}
    (proper : ∀ q, e.quote = some q → q.fetchedAt.Proper)
    (read : ofJson? now e.toJson = some e') : e'.quote = e.quote := by
  have held := part_of_ofJson? read
  simp only [part?, List.lookup_cons, beq_self_eq_true, String.reduceBEq] at held
  cases quote : e.quote with
  | none =>
    rw [quote] at held
    exact (Option.some.inj held).symm
  | some q =>
    have whole : (Quote.ofJson? now q.toJson).map some = some e'.quote := by
      rw [quote] at held
      exact held
    rw [Quote.ofJson?_toJson now (proper q quote)] at whole
    split at whole
    · exact (Option.some.inj whole).symm
    · cases whole

end Entry

/-! What a file can hold -/

/-- A price that can be read, and a time of the calendar. -/
structure Quote.Storable (q : Quote) : Prop where
  price : q.unitPrice.admissible = true
  time : q.fetchedAt.Proper

/-- All parts of the entry can be written down and read. -/
structure Entry.Storable (e : Entry) : Prop where
  quote : ∀ q, e.quote = some q → q.Storable
  lastError : ∀ f, e.lastError = some f → f.failedAt.Proper
  fetchedAt : e.fetchedAt.Proper
  ttl : writable e.ttl = true

namespace Entry

/-- A part that may be missing comes back if it does when it is there. -/
theorem part?_elim {α : Type} {members : List (String × Json)} {name : String} {o : Option α}
    {write : α → Json} {read : Json → Option α}
    (held : members.lookup name = some (o.elim .null write)) (shown : ∀ a, write a ≠ .null)
    (back : ∀ a, o = some a → read (write a) = some a) : part? members name read = some o := by
  unfold part?
  rw [held]
  cases o with
  | none => rfl
  | some a =>
    rw [Option.elim_some]
    split
    · rename_i nothing
      cases nothing
    · rename_i null
      exact absurd (Option.some.inj null) (shown a)
    · rename_i same
      cases same
      rw [back a rfl, Option.map_some]

theorem ofJson?_toJson (now : Moment) {e : Entry} (storable : e.Storable) :
    ofJson? now e.toJson = some e := by
  have quote : ∀ q, e.quote = some q → Quote.ofJson? now q.toJson = some q := by
    intro q here
    obtain ⟨price, time⟩ := storable.quote q here
    rw [Quote.ofJson?_toJson now time, if_pos price]
  have failure : ∀ f, e.lastError = some f → FetchError.ofJson? now f.toJson = some f :=
    fun f here => FetchError.ofJson?_toJson now (storable.lastError f here)
  simp only [ofJson?, toJson]
  rw [part?_elim rfl (by simp [Quote.toJson]) quote, part?_elim rfl (by simp [FetchError.toJson]) failure]
  simp only [member?, List.lookup_cons, beq_self_eq_true, String.reduceBEq, Option.bind_eq_bind,
    Option.bind_some, Json.text?, Moment.ofJson?_toText storable.fetchedAt, Json.wholeNumber?]

/-- An entry that a file can hold is read as it was written. -/
theorem ofBytes?_of_storable (now : Moment) {e : Entry} (storable : e.Storable) :
    ofBytes? now e.toJson.write.toUTF8 = some e := by
  rw [ofBytes?_toUTF8 now storable.ttl, ofJson?_toJson now storable]

end Entry
end QuoteDesk
