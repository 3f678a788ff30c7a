import Mathlib.Data.List.Dedup
import QuoteDesk.Cache.Shelf
import QuoteDesk.Proofs.Decimal.Written

/-
The temporary file of a write. Its name is one that no node has, since there are more numbers to
choose from than nodes and different numbers are written differently. So it stands behind all
nodes, and after its removal they are all that is left; after it took the name of the entry, all
other nodes are as they were.
-/
namespace QuoteDesk

namespace Table

variable {α : Type}

theorem lookup_eq_none_iff_not_mem (t : Table α) (name : String) :
    t.lookup name = none ↔ name ∉ t.map (·.1) := by
  simp only [List.lookup_eq_none_iff, List.mem_map, not_exists, not_and, bne_iff_ne, ne_eq]
  constructor
  · intro apart m member same
    exact apart m member same.symm
  · intro apart m member same
    exact apart m member same.symm

/-- A new name comes last. -/
theorem set_of_lookup_eq_none {t : Table α} {name : String} (new : t.lookup name = none) (v : α) :
    t.set name v = t ++ [(name, v)] := by
  induction t with
  | nil => rfl
  | cons m ms ih =>
    obtain ⟨n, w⟩ := m
    rw [lookup_eq_none_iff_not_mem, List.map_cons, List.mem_cons, not_or] at new
    obtain ⟨apart, later⟩ := new
    have other : n ≠ name := fun same => apart same.symm
    rw [set, if_neg other, ih ((lookup_eq_none_iff_not_mem ms name).mpr later), List.cons_append]

theorem set_set (t : Table α) (name : String) (v w : α) : (t.set name v).set name w = t.set name w := by
  induction t with
  | nil => simp [set]
  | cons m ms ih =>
    obtain ⟨n, u⟩ := m
    by_cases same : n = name
    · simp [set, same]
    · simp [set, same, ih]

end Table

namespace Shelf

/-! Names -/

theorem fileName_injective {key key' : String} (same : fileName key = fileName key') : key = key' := by
  have texts := congrArg String.toList same
  simp only [fileName, String.toList_append] at texts
  exact String.toList_inj.mp (List.append_cancel_right texts)

theorem temporaryName_ne_fileName (key : String) (n : Nat) (key' : String) :
    temporaryName key n ≠ fileName key' := by
  intro same
  have ends := congrArg (fun s => s.toList.reverse.head?) same
  simp [temporaryName, fileName] at ends

theorem freshName_ne_fileName (nodes : Table Node) (key key' : String) :
    freshName nodes key ≠ fileName key' := by
  unfold freshName
  split
  · exact temporaryName_ne_fileName key _ key'
  · exact temporaryName_ne_fileName key _ key'

theorem temporaryName_injective (key : String) : Function.Injective (temporaryName key) := by
  intro n n' same
  have texts := congrArg String.toList same
  simp only [temporaryName, String.toList_append, String.toList_ofList] at texts
  have digits := List.append_cancel_left (List.append_cancel_right texts)
  -- the number is read back from its digits, zeros before them or not
  have numbers := congrArg Numeral.readNat digits
  rw [Numeral.readNat_zeros, Numeral.readNat_zeros, Digits.readNat_write, Digits.readNat_write] at numbers
  exact numbers

/-- The number chosen is the first that is free. -/
theorem freshName_eq_first (nodes : Table Node) (key : String) :
    ∃ n, freshName nodes key = temporaryName key n ∧ nodes.lookup (temporaryName key n) = none ∧
      ∀ m < n, nodes.lookup (temporaryName key m) ≠ none := by
  unfold freshName
  split
  · rename_i n found
    obtain ⟨free, _, earlier⟩ := List.find?_range_eq_some.mp found
    refine ⟨n, rfl, by simpa using free, ?_⟩
    intro m before
    simpa using earlier m before
  · rename_i all
    -- there is one more number than there are nodes
    exfalso
    have taken : (List.range (nodes.length + 1)).map (temporaryName key) ⊆ nodes.map (·.1) := by
      intro name member
      obtain ⟨n, inside, rfl⟩ := List.mem_map.mp member
      have here := List.find?_eq_none.mp all n inside
      by_contra absent
      rw [(Table.lookup_eq_none_iff_not_mem nodes _).mpr absent] at here
      exact here rfl
    have distinct : ((List.range (nodes.length + 1)).map (temporaryName key)).Nodup :=
      List.nodup_range.map (temporaryName_injective key)
    have crowded := distinct.length_le_of_subset taken
    rw [List.length_map, List.length_map, List.length_range] at crowded
    omega

theorem lookup_freshName (nodes : Table Node) (key : String) :
    nodes.lookup (freshName nodes key) = none := by
  obtain ⟨n, name, free, _⟩ := freshName_eq_first nodes key
  rw [name]
  exact free

/-- Names of entries do not count when a temporary one is chosen. -/
theorem freshName_set_fileName (nodes : Table Node) (key key' : String) (node : Node) :
    freshName (nodes.set (fileName key') node) key = freshName nodes key := by
  obtain ⟨n, name, free, earlier⟩ := freshName_eq_first nodes key
  obtain ⟨n', name', free', earlier'⟩ := freshName_eq_first (nodes.set (fileName key') node) key
  have unseen : ∀ m, (nodes.set (fileName key') node).lookup (temporaryName key m) =
      nodes.lookup (temporaryName key m) :=
    fun m => Table.lookup_set_of_ne _ _ (temporaryName_ne_fileName key m key')
  rw [unseen] at free'
  rcases Nat.lt_trichotomy n n' with first | same | second
  · exact absurd free (unseen n ▸ earlier' n first)
  · rw [name, name', same]
  · exact absurd free' (earlier n' second)

theorem utf8ByteSize_fileName (key : String) :
    (fileName key).utf8ByteSize = key.utf8ByteSize + 5 := by
  rw [fileName, String.utf8ByteSize_append]
  rfl

theorem utf8ByteSize_temporaryName (key : String) (n : Nat) :
    key.utf8ByteSize + 6 ≤ (temporaryName key n).utf8ByteSize := by
  have ends : ".".utf8ByteSize = 1 ∧ ".tmp".utf8ByteSize = 4 := by decide
  simp only [temporaryName, String.utf8ByteSize_append, ends]
  omega

theorem utf8ByteSize_freshName (nodes : Table Node) (key : String) :
    key.utf8ByteSize + 6 ≤ (freshName nodes key).utf8ByteSize := by
  unfold freshName
  split
  · exact utf8ByteSize_temporaryName key _
  · exact utf8ByteSize_temporaryName key _

/-! Removal -/

theorem remove_set {nodes : Table Node} {name : String} (new : nodes.lookup name = none) (node : Node) :
    remove (nodes.set name node) name = nodes := by
  rw [Table.set_of_lookup_eq_none new, remove, List.filter_append]
  have others : nodes.filter (fun m => decide (m.1 ≠ name)) = nodes := by
    rw [List.filter_eq_self]
    intro m member
    have absent := (Table.lookup_eq_none_iff_not_mem nodes name).mp new
    have other : m.1 ≠ name := fun same => absent (same ▸ List.mem_map_of_mem member)
    simpa using other
  rw [others]
  simp

/-! Installing a text -/

theorem rename_eq_some_iff {nodes nodes' : Table Node} {old new : String} :
    rename nodes old new = some nodes' ↔
      nodes.lookup new ≠ some .folder ∧
        ∃ node, nodes.lookup old = some node ∧ nodes' = (remove nodes old).set new node := by
  unfold rename
  split
  · rename_i folder
    simp [folder]
  · rename_i node held free
    simp only [Option.some.injEq, held, exists_eq_left', ne_eq]
    constructor
    · intro same
      exact ⟨free, same.symm⟩
    · intro same
      exact same.2.symm
  · rename_i absent free
    simp [absent]

/-- The directory takes an entry of the key: its name is plain, a temporary one fits beside it,
and no folder has it. -/
structure Room (nodes : Table Node) (key : String) : Prop where
  plain : isPlainKey key = true
  short : (freshName nodes key).utf8ByteSize ≤ longestName
  free : nodes.lookup (fileName key) ≠ some .folder

/-- The new text stands beside the others, or they are all that is left. -/
theorem install_cases (refused : Option WriteStep) (nodes : Table Node) (key : String)
    (content : ByteArray) :
    (Room nodes key ∧ (∀ step, refused = some step → step = .makeFolder) ∧
      install refused nodes key content = .ok (nodes.set (fileName key) (.file content))) ∨
    install refused nodes key content = .error nodes := by
  have new := lookup_freshName nodes key
  have other := (freshName_ne_fileName nodes key key).symm
  unfold install
  dsimp only
  split
  · exact .inr rfl
  · rename_i created
    simp only [Bool.or_eq_true, decide_eq_true_eq, Bool.not_eq_true', not_or, Bool.not_eq_false,
      Nat.not_lt] at created
    obtain ⟨⟨allowed, plain⟩, short⟩ := created
    split
    · rw [Table.set_set, remove_set new]
      exact .inr rfl
    · rename_i filled
      rw [Table.set_set]
      split
      · rename_i renamed
        split at renamed
        · cases renamed
        · rename_i moved
          obtain ⟨free, node, held, rfl⟩ := rename_eq_some_iff.mp renamed
          rw [Table.lookup_set_of_ne _ _ other] at free
          cases (Table.lookup_set_self nodes _ _).symm.trans held
          rw [remove_set new]
          refine .inl ⟨⟨plain, short, free⟩, ?_, rfl⟩
          intro step same
          cases step with
          | makeFolder => rfl
          | create => exact absurd same allowed
          | fill written => exact absurd same (filled written)
          | rename => exact absurd same moved
      · rw [remove_set new]
        exact .inr rfl

theorem install_of_room {nodes : Table Node} {key : String} (room : Room nodes key)
    (content : ByteArray) :
    install none nodes key content = .ok (nodes.set (fileName key) (.file content)) := by
  have fits : ¬ longestName < (freshName nodes key).utf8ByteSize := Nat.not_lt.mpr room.short
  have new := lookup_freshName nodes key
  have renamed : rename (nodes.set (freshName nodes key) (.file content)) (freshName nodes key)
      (fileName key) = some (nodes.set (fileName key) (.file content)) := by
    have other := (freshName_ne_fileName nodes key key).symm
    rw [rename_eq_some_iff, Table.lookup_set_of_ne _ _ other, remove_set new]
    exact ⟨room.free, _, Table.lookup_set_self _ _ _, rfl⟩
  simp only [install, room.plain, fits, Table.set_set, renamed, reduceCtorEq, Bool.not_true,
    Bool.or_self, Bool.false_eq_true, decide_false, ↓reduceIte]

end Shelf
end QuoteDesk
