import QuoteDesk.Cache.Entry
import QuoteDesk.Table

/-
Stores of entries by key, and the one that lives in memory. Reading can fail and can
find nothing; writing replaces the whole entry of a key, and what it leaves behind
when it fails is up to the store.
-/
namespace QuoteDesk

class Store (σ : Type) where
  read : σ → (now : Moment) → (key : String) → Outcome (Option Entry)
  write : σ → Entry → Outcome Unit × σ

/-- Entries by key, gone with the program. -/
structure Memory where
  entries : Table Entry
  deriving DecidableEq, Repr

namespace Memory

def empty : Memory := ⟨[]⟩

def get? (m : Memory) (key : String) : Option Entry := m.entries.lookup key

def put (m : Memory) (e : Entry) : Memory := ⟨m.entries.set e.key e⟩

instance : Store Memory where
  read m _ key := .ok (m.get? key)
  write m e := (.ok (), m.put e)

theorem get?_put_self (m : Memory) (e : Entry) : (m.put e).get? e.key = some e :=
  Table.lookup_set_self _ _ _

theorem get?_put_of_ne (m : Memory) (e : Entry) {key : String} (h : key ≠ e.key) :
    (m.put e).get? key = m.get? key :=
  Table.lookup_set_of_ne _ _ h

end Memory
end QuoteDesk
