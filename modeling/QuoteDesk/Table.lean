/-
Tables of values by name, in the order in which the names were first set. Setting a
name again puts the new value in its old place.
-/
namespace QuoteDesk

abbrev Table (α : Type) := List (String × α)

namespace Table

variable {α : Type}

def set : Table α → String → α → Table α
  | [], name, v => [(name, v)]
  | (n, w) :: more, name, v => if n = name then (n, v) :: more else (n, w) :: set more name v

/-- All members set one after another. -/
def ofMembers (members : List (String × α)) : Table α :=
  members.foldl (fun t (name, v) => set t name v) []

theorem lookup_set_self (t : Table α) (name : String) (v : α) :
    (t.set name v).lookup name = some v := by
  induction t with
  | nil => simp [set]
  | cons m ms ih =>
    obtain ⟨n, w⟩ := m
    by_cases h : n = name
    · simp [set, h]
    · have apart : (name == n) = false := by simpa using Ne.symm h
      simp [set, h, List.lookup_cons, apart, ih]

theorem lookup_set_of_ne (t : Table α) {name other : String} (v : α) (h : other ≠ name) :
    (t.set name v).lookup other = t.lookup other := by
  have apart : (other == name) = false := by simpa using h
  induction t with
  | nil => simp [set, List.lookup_cons, apart]
  | cons m ms ih =>
    obtain ⟨n, w⟩ := m
    by_cases same : n = name
    · simp [set, same, List.lookup_cons, apart]
    · simp [set, same, List.lookup_cons, ih]

end Table
end QuoteDesk
