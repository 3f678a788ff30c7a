import QuoteDesk.Symbol
import QuoteDesk.Proofs.Text.Run

/-
Small and capital letters. Whether a character is a letter, a digit or a blank does not depend on
its case, nor does the symbol that a word stands for.
-/
namespace QuoteDesk

namespace Text

/-- Two texts that differ in the case of their letters only. -/
def SameLetters (cs ds : List Char) : Prop := cs.map Char.toLower = ds.map Char.toLower

/-- What does not depend on the case of the capital letters depends on the case of none. -/
theorem of_toLower {α : Type} {f : Char → α}
    (capitals : ∀ n < 91, 65 ≤ n → f (Char.ofNat n).toLower = f (Char.ofNat n)) (c : Char) :
    f c.toLower = f c := by
  by_cases capital : 65 ≤ c.toNat ∧ c.toNat ≤ 90
  · have same := capitals c.toNat (by omega) capital.1
    rwa [Char.ofNat_toNat] at same
  · have stays : c.toLower = c := by
      unfold Char.toLower
      rw [dif_neg]
      simpa [UInt32.le_iff_toNat_le] using capital
    rw [stays]

theorem isLetter_toLower (c : Char) : isLetter c.toLower = isLetter c :=
  of_toLower (by decide) c

theorem isAlphanumeric_toLower (c : Char) : isAlphanumeric c.toLower = isAlphanumeric c :=
  of_toLower (by decide) c

theorem isBlank_toLower (c : Char) : isBlank c.toLower = isBlank c := of_toLower (by decide) c

theorem capitalChar_toLower (c : Char) : capitalChar c.toLower = capitalChar c :=
  of_toLower (by decide) c

theorem toLower_of_isLetter {c : Char} (other : isLetter c = false) : c.toLower = c := by
  unfold Char.toLower
  rw [dif_neg]
  intro capital
  have bounds : 65 ≤ c.toNat ∧ c.toNat ≤ 90 := by
    simpa [UInt32.le_iff_toNat_le] using capital
  have letter := (isLetter_iff c).mpr (.inr bounds)
  rw [other] at letter
  cases letter

namespace SameLetters

variable {cs ds : List Char}

theorem refl (cs : List Char) : SameLetters cs cs := rfl

theorem symm (same : SameLetters cs ds) : SameLetters ds cs := Eq.symm same

theorem length_eq (same : SameLetters cs ds) : cs.length = ds.length := by
  have lengths := congrArg List.length same
  rwa [List.length_map, List.length_map] at lengths

/-- A class of characters that does not depend on their case holds both texts or none. -/
theorem all_iff (same : SameLetters cs ds) {p : Char → Bool} (either : ∀ c, p c.toLower = p c) :
    (∀ c ∈ cs, p c = true) ↔ ∀ c ∈ ds, p c = true := by
  have lowered : ∀ xs : List Char, (∀ c ∈ xs, p c = true) ↔
      ∀ c ∈ xs.map Char.toLower, p c = true := by
    intro xs
    simp only [List.mem_map, forall_exists_index, and_imp, forall_apply_eq_imp_iff₂, either]
  rw [lowered cs, lowered ds, same]

theorem head_iff (same : SameLetters cs ds) {p : Char → Bool} (either : ∀ c, p c.toLower = p c) :
    (∀ c ∈ cs.head?, p c = true) ↔ ∀ c ∈ ds.head?, p c = true := by
  cases cs with
  | nil =>
    cases ds with
    | nil => rfl
    | cons d ds => cases same
  | cons c cs =>
    cases ds with
    | nil => cases same
    | cons d ds =>
      have first := (List.cons.inj same).1
      simp only [List.head?_cons, Option.mem_def, Option.some.injEq, forall_eq']
      rw [← either c, first, either d]

/-- Without letters nothing differs. -/
theorem eq_of_others (same : SameLetters cs ds) (others : ∀ c ∈ cs, isLetter c = false) : cs = ds := by
  induction cs generalizing ds with
  | nil =>
    cases ds with
    | nil => rfl
    | cons d ds => cases same
  | cons c cs ih =>
    cases ds with
    | nil => cases same
    | cons d ds =>
      obtain ⟨first, rest⟩ := List.cons.inj same
      have other := others c List.mem_cons_self
      have other' : isLetter d = false := by rw [← isLetter_toLower, ← first, isLetter_toLower, other]
      rw [toLower_of_isLetter other, toLower_of_isLetter other'] at first
      rw [first, ih rest fun e member => others e (List.mem_cons_of_mem c member)]

theorem capitals_eq (same : SameLetters cs ds) : capitals cs = capitals ds := by
  have lowered : ∀ xs : List Char, capitals (xs.map Char.toLower) = capitals xs := by
    intro xs
    simp only [capitals, List.flatMap_map, capitalChar_toLower]
  rw [← lowered cs, ← lowered ds, same]

theorem trimChars (same : SameLetters cs ds) : SameLetters (trimChars cs) (trimChars ds) := by
  have lowered : ∀ xs : List Char, (xs.map Char.toLower).dropWhile isBlank =
      (xs.dropWhile isBlank).map Char.toLower := by
    intro xs
    have either : isBlank ∘ Char.toLower = isBlank := funext isBlank_toLower
    rw [List.dropWhile_map, either]
  unfold SameLetters Text.trimChars at *
  rw [List.map_reverse, ← lowered, List.map_reverse, ← lowered, same, lowered, ← List.map_reverse,
    lowered, List.map_reverse]

end SameLetters

end Text

namespace Symbol

open Text (SameLetters)

/-- The form in which a symbol is kept does not depend on its case. -/
theorem normalForm_of_sameLetters {raw raw' : String} (same : SameLetters raw.toList raw'.toList) :
    normalForm raw = normalForm raw' := same.trimChars.capitals_eq

theorem readCurrency_of_sameLetters {field raw raw' s : String}
    (same : SameLetters raw.toList raw'.toList) (read : readCurrency field raw = .ok s) :
    readCurrency field raw' = .ok s := by
  unfold readCurrency at read ⊢
  rw [← normalForm_of_sameLetters same]
  split at read
  · rename_i currency
    rw [if_pos currency]
    exact read
  · cases read

end Symbol
end QuoteDesk
