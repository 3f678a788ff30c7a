import QuoteDesk.Proofs.Cache.Interchange
import QuoteDesk.Proofs.Provider.Naming

/-
Symbols as the readers give them, and what is named after them. All readers of symbols and the ticker
take one form, which none of them changes; so a pair of such symbols has its own key, its own entry in
a memory and its own file, which lies right in the directory.
-/
namespace QuoteDesk

/-! Symbols -/

namespace Symbol

/-- A reader of symbols gave it for some text. -/
def Accepted (s : String) : Prop := ∃ kind field raw, readFor kind field raw = .ok s

/-- A symbol in its form that the readers for its kind and for assets leave as it is, and that the
ticker takes. -/
structure Fixed (kind : PairKind) (s : String) : Prop where
  form : Settled s
  again : ∀ field, readFor kind field s = .ok s
  asset : ∀ field, readAsset field s = .ok s
  known : isAsset s.toList = true

theorem accepted_iff_settled (s : String) : Accepted s ↔ Settled s := by
  constructor
  · rintro ⟨kind, field, raw, read⟩
    exact settled_of_readFor read
  · intro settled
    exact ⟨.crypto, "", s, readAsset_of_settled "" settled⟩

theorem fixed_of_settled {s : String} (settled : Settled s) : Fixed .crypto s := by
  constructor
  · exact settled
  · exact fun field => readAsset_of_settled field settled
  · exact fun field => readAsset_of_settled field settled
  · exact isAsset_of_settled settled

theorem fixed_of_readCurrency {field raw s : String} (read : readCurrency field raw = .ok s) :
    Fixed .fx s := by
  have settled := settled_of_readCurrency read
  constructor
  · exact settled
  · exact fun field' => readCurrency_again read field'
  · exact fun field' => readAsset_of_settled field' settled
  · exact isAsset_of_settled settled

theorem fixed_of_readFor {kind : PairKind} {field raw s : String}
    (read : readFor kind field raw = .ok s) : Fixed kind s := by
  cases kind with
  | fx => exact fixed_of_readCurrency read
  | crypto => exact fixed_of_settled (settled_of_readAsset read)

end Symbol

theorem Expression.fixed_of_read {text default : String} {e : Expression}
    (found : read text default = .ok e) :
    (∀ s ∈ e.symbols, Symbol.Fixed .crypto s) ∧ Symbol.Fixed .fx e.target := by
  constructor
  · intro s named
    exact Symbol.fixed_of_settled ((settled_of_read found).1 s named)
  · obtain ⟨field, raw, accepted⟩ := target_of_read found
    exact Symbol.fixed_of_readCurrency accepted

/-! Names of files -/

namespace Shelf

variable {directory : String}

/-- The name of one node right in a directory. -/
structure SingleName (name : String) : Prop where
  some : name ≠ ""
  plain : '/' ∉ name.toList
  here : name ≠ "."
  above : name ≠ ".."

theorem singleName_of_nameable {key : String} (nameable : Nameable key) :
    SingleName (fileName key) := by
  have long : 5 ≤ (fileName key).toList.length := by
    rw [fileName, String.toList_append, List.length_append]
    exact Nat.le_add_left 5 key.toList.length
  have longer : ∀ name : String, name.toList.length < 5 → fileName key ≠ name := by
    intro name short same
    rw [same] at long
    omega
  refine ⟨longer "" (by decide), ?_, longer "." (by decide), longer ".." (by decide)⟩
  have clean : '/' ∉ key.toList := by simpa [isPlainKey] using nameable.plain
  rw [fileName, String.toList_append, List.mem_append, not_or]
  exact ⟨clean, by decide⟩

theorem path_injective {key key' : String} (same : path key = path key') : key = key' :=
  fileName_injective ((String.append_right_inj _).mp same)

/-- Whatever becomes of a write, under another key that names a file the same is read as before. -/
theorem read_writeUnless_of_ne {key : String} (findable : Findable key) (refused : Option WriteStep)
    (s : Shelf) {e : Entry} (other : key ≠ e.key) (now : Moment) :
    (s.writeUnless directory refused e).2.read directory now key = s.read directory now key := by
  have found : (s.writeUnless directory refused e).2.find directory key = s.find directory key := by
    rcases writeUnless_cases directory refused s e with
      ⟨nodes, there, _, _, _, _, run⟩ | ⟨f, s', run, _, rfl | ⟨nodes, there, rfl⟩⟩
    · have names : fileName key ≠ fileName e.key := fun same => other (fileName_injective same)
      rw [run, find_of_findable findable there, find_of_findable findable rfl,
        Table.lookup_set_of_ne _ _ names]
    · rw [run]
    · rw [run, find_of_findable findable there, find_of_findable findable rfl]
  simp only [read, found]

end Shelf

/-! Pairs -/

namespace Pair

/-- Both symbols were given by readers. -/
structure Accepted (p : Pair) : Prop where
  base : Symbol.Accepted p.base
  quote : Symbol.Accepted p.quote

theorem Accepted.settled {p : Pair} (accepted : p.Accepted) : p.Settled :=
  ⟨(Symbol.accepted_iff_settled p.base).mp accepted.base,
    (Symbol.accepted_iff_settled p.quote).mp accepted.quote⟩

/-- The pair has a file of its own right in the directory. -/
structure Shelved (p : Pair) : Prop where
  single : Shelf.SingleName (Shelf.fileName p.key)
  inside : Shelf.path p.key = Shelf.folderName ++ "/" ++ Shelf.fileName p.key
  found : ∀ directory nodes,
    (Shelf.there nodes).find directory p.key = .ok (nodes.lookup (Shelf.fileName p.key))

/-- What is written for the one pair is not seen where the other is looked up. -/
structure Apart (p r : Pair) : Prop where
  memory : ∀ (m : Memory) (e : Entry), e.key = p.key → (m.put e).get? r.key = m.get? r.key
  files : ∀ (directory : String) (refused : Option WriteStep) (s : Shelf) (e : Entry) (now : Moment),
    e.key = p.key →
      (s.writeUnless directory refused e).2.read directory now r.key = s.read directory now r.key

theorem shelved_of_settled {p : Pair} (settled : p.Settled) : p.Shelved := by
  have nameable := nameable_key settled
  constructor
  · exact Shelf.singleName_of_nameable nameable
  · rfl
  · exact fun directory nodes => Shelf.find_of_findable nameable.findable rfl

theorem apart_of_ne {p r : Pair} (settled : p.Settled) (settled' : r.Settled) (other : p ≠ r) :
    p.Apart r := by
  have keys : r.key ≠ p.key := fun same => other (key_injective settled settled' same.symm)
  constructor
  · intro m e key
    apply Memory.get?_put_of_ne
    rwa [key]
  · intro directory refused s e now key
    have findable := (nameable_key settled').findable
    exact Shelf.read_writeUnless_of_ne findable refused s (by rwa [key]) now

/-- What is accepted as a currency is accepted as the same asset; the symbols that readers give are
those in their form, all of them stay as they are when they are read again, also those of an
expression, and the ticker has a name for any two. Pairs of such symbols have one key, or one path,
only if they are the same; each has a file of its own right in the directory, and of two of them
neither is seen at the other's place. -/
theorem apart_and_readers_agree :
    (∀ field raw s, Symbol.readCurrency field raw = .ok s →
        ∀ field', Symbol.readAsset field' raw = .ok s) ∧
      (∀ kind field raw s, Symbol.readFor kind field raw = .ok s → Symbol.Fixed kind s) ∧
      (∀ s, Symbol.Accepted s ↔ Symbol.Settled s) ∧
      (∀ b q, Symbol.Accepted b → Symbol.Accepted q →
        Source.tickerPair b q = .ok (Source.tickerSymbol b ++ Source.tickerSymbol q)) ∧
      (∀ text default e, Expression.read text default = .ok e →
        (∀ s ∈ e.symbols, Symbol.Fixed .crypto s) ∧ Symbol.Fixed .fx e.target) ∧
      (∀ p : Pair, p.Accepted → p.Shelved) ∧
      (∀ p r : Pair, p.Accepted → r.Accepted → (p.key = r.key ↔ p = r) ∧
        (Shelf.path p.key = Shelf.path r.key ↔ p = r) ∧ (p ≠ r → p.Apart r)) := by
  refine ⟨?_, ?_, Symbol.accepted_iff_settled, ?_, ?_, ?_, ?_⟩
  · exact fun field raw s read field' => Symbol.readAsset_of_readCurrency read field'
  · exact fun kind field raw s read => Symbol.fixed_of_readFor read
  · intro b q base quote
    exact Source.tickerPair_of_settled ((Symbol.accepted_iff_settled b).mp base)
      ((Symbol.accepted_iff_settled q).mp quote)
  · exact fun text default e found => Expression.fixed_of_read found
  · exact fun p accepted => shelved_of_settled accepted.settled
  · intro p r accepted accepted'
    have keys : p.key = r.key → p = r := key_injective accepted.settled accepted'.settled
    refine ⟨⟨keys, congrArg key⟩, ⟨?_, ?_⟩, apart_of_ne accepted.settled accepted'.settled⟩
    · exact fun same => keys (Shelf.path_injective same)
    · rintro rfl
      rfl

/-- A sharp s has two capital letters, so two characters are read as three. -/
theorem sharp_s_apart :
    Symbol.readCurrency "quote" " ßd" = .ok "SSD" ∧ Symbol.readAsset "base" " ßd" = .ok "SSD" ∧
      Symbol.Fixed .fx "SSD" ∧ (⟨.crypto, "SSD", "SS"⟩ : Pair).Shelved ∧
      (⟨.crypto, "SSD", "SS"⟩ : Pair).Apart ⟨.crypto, "SS", "DSS"⟩ := by
  obtain ⟨agree, fixed, _, _, _, shelved, apart⟩ := apart_and_readers_agree
  have currency : Symbol.readCurrency "quote" " ßd" = .ok "SSD" := ok_of_toOption (by decide +kernel)
  have sharp : Symbol.Accepted "SSD" := ⟨.fx, "quote", " ßd", currency⟩
  have short : Symbol.Accepted "SS" := ⟨.crypto, "", "ß", ok_of_toOption (by decide +kernel)⟩
  have long : Symbol.Accepted "DSS" := ⟨.crypto, "", "dß", ok_of_toOption (by decide +kernel)⟩
  have kept := shelved ⟨.crypto, "SSD", "SS"⟩ ⟨sharp, short⟩
  obtain ⟨_, _, unlike⟩ :=
    apart ⟨.crypto, "SSD", "SS"⟩ ⟨.crypto, "SS", "DSS"⟩ ⟨sharp, short⟩ ⟨short, long⟩
  exact ⟨currency, agree "quote" " ßd" "SSD" currency "base", fixed .fx "quote" " ßd" "SSD" currency,
    kept, unlike (by decide)⟩

end Pair
end QuoteDesk
