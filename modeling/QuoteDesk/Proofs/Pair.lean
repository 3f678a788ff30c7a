import QuoteDesk.Pair
import QuoteDesk.Proofs.Symbol

/-
Keys tell pairs apart, as long as their symbols have the form in which symbols are kept:
a small letter comes from one capital only, and no symbol has a hyphen.
-/
namespace QuoteDesk

namespace Text

/-- The small letter of a capital; a digit stays. -/
def smallChar (c : Char) : Char := Char.ofNat (if c.toNat < 65 then c.toNat else c.toNat + 32)

theorem lowerChar_of_isCapital {c : Char} (capital : isCapital c = true) :
    lowerChar c = [smallChar c] := by
  have table : ∀ n < 91, (48 ≤ n ∧ n ≤ 57) ∨ (65 ≤ n ∧ n ≤ 90) →
      lowerChar (Char.ofNat n) = [Char.ofNat (if n < 65 then n else n + 32)] := by decide +kernel
  rw [isCapital_iff] at capital
  have small := table c.toNat (by omega) capital
  rwa [Char.ofNat_toNat] at small

theorem toNat_smallChar {c : Char} (capital : isCapital c = true) :
    (smallChar c).toNat = if c.toNat < 65 then c.toNat else c.toNat + 32 := by
  have low : ∀ n < 128, (Char.ofNat n).toNat = n := by decide
  rw [isCapital_iff] at capital
  apply low
  split <;> omega

theorem smallChar_injective {c d : Char} (capital : isCapital c = true)
    (capital' : isCapital d = true) (same : smallChar c = smallChar d) : c = d := by
  have codes := congrArg Char.toNat same
  rw [toNat_smallChar capital, toNat_smallChar capital'] at codes
  rw [isCapital_iff] at capital capital'
  apply Char.toNat_inj.mp
  split at codes <;> split at codes <;> omega

theorem smallChar_ne_hyphen {c : Char} (capital : isCapital c = true) : smallChar c ≠ '-' := by
  intro same
  have codes := congrArg Char.toNat same
  rw [toNat_smallChar capital, show ('-' : Char).toNat = 45 from rfl] at codes
  rw [isCapital_iff] at capital
  split at codes <;> omega

theorem map_smallChar_injective {cs ds : List Char} (capital : ∀ c ∈ cs, isCapital c = true)
    (capital' : ∀ d ∈ ds, isCapital d = true) (same : cs.map smallChar = ds.map smallChar) :
    cs = ds := by
  induction cs generalizing ds with
  | nil => exact (List.map_eq_nil_iff.mp same.symm).symm
  | cons c cs ih =>
    cases ds with
    | nil => cases same
    | cons d ds =>
      obtain ⟨first, rest⟩ := List.cons.inj same
      rw [smallChar_injective (capital c (by simp)) (capital' d (by simp)) first,
        ih (fun e member => capital e (List.mem_cons_of_mem c member))
          (fun e member => capital' e (List.mem_cons_of_mem d member)) rest]

theorem lowerAfter_of_capital {cs : List Char} (capital : ∀ c ∈ cs, isCapital c = true)
    (before : List Char) : lowerAfter before cs = cs.map smallChar := by
  induction cs generalizing before with
  | nil => rfl
  | cons c cs ih =>
    have here := capital c (by simp)
    have greek : c ≠ 'Σ' := by
      rintro rfl
      cases here
    rw [lowerAfter, if_neg greek, lowerChar_of_isCapital here,
      ih fun d member => capital d (List.mem_cons_of_mem c member)]
    rfl

end Text

namespace Symbol

theorem toList_lower {s : String} (settled : Settled s) :
    (Text.lower s).toList = s.toList.map Text.smallChar := by
  rw [Text.lower, String.toList_ofList, Text.lowerAfter_of_capital settled.capital]

theorem lower_injective {s t : String} (settled : Settled s) (settled' : Settled t)
    (same : Text.lower s = Text.lower t) : s = t := by
  have letters := congrArg String.toList same
  rw [toList_lower settled, toList_lower settled'] at letters
  exact String.toList_inj.mp (Text.map_smallChar_injective settled.capital settled'.capital letters)

theorem hyphen_not_mem_lower {s : String} (settled : Settled s) :
    ∀ c ∈ (Text.lower s).toList, (c != '-') = true := by
  intro c member
  rw [toList_lower settled, List.mem_map] at member
  obtain ⟨d, here, rfl⟩ := member
  simpa using Text.smallChar_ne_hyphen (settled.capital d here)

end Symbol

namespace Pair

/-- Both symbols have the form in which they are kept. -/
structure Settled (p : Pair) : Prop where
  base : Symbol.Settled p.base
  quote : Symbol.Settled p.quote

theorem toList_key (p : Pair) :
    p.key.toList =
      p.kind.name.toList ++ '-' :: ((Text.lower p.base).toList ++ '-' :: (Text.lower p.quote).toList) := by
  simp [key]

theorem hyphen_not_mem_name (kind : PairKind) : ∀ c ∈ kind.name.toList, (c != '-') = true := by
  apply List.all_eq_true.mp
  cases kind <;> decide

/-- A key tells the kind, whatever the symbols are. -/
theorem kind_of_key {p r : Pair} (same : p.key = r.key) :
    p.kind = r.kind ∧ (Text.lower p.base).toList ++ '-' :: (Text.lower p.quote).toList =
      (Text.lower r.base).toList ++ '-' :: (Text.lower r.quote).toList := by
  have parts := congrArg String.toList same
  rw [toList_key, toList_key] at parts
  obtain ⟨kinds, rest⟩ := Text.run_unique (hyphen_not_mem_name p.kind) (hyphen_not_mem_name r.kind)
    (Text.stops_cons rfl _) (Text.stops_cons rfl _) parts
  have named := congrArg PairKind.ofName? (String.toList_inj.mp kinds)
  rw [PairKind.ofName?_name, PairKind.ofName?_name] at named
  exact ⟨Option.some.inj named, (List.cons.inj rest).2⟩

theorem key_injective {p r : Pair} (settled : p.Settled) (settled' : r.Settled)
    (same : p.key = r.key) : p = r := by
  obtain ⟨kind, rest⟩ := kind_of_key same
  obtain ⟨bases, rest⟩ := Text.run_unique (Symbol.hyphen_not_mem_lower settled.base)
    (Symbol.hyphen_not_mem_lower settled'.base) (Text.stops_cons rfl _) (Text.stops_cons rfl _) rest
  have base := Symbol.lower_injective settled.base settled'.base (String.toList_inj.mp bases)
  have quote := Symbol.lower_injective settled.quote settled'.quote
    (String.toList_inj.mp (List.cons.inj rest).2)
  obtain ⟨_, _, _⟩ := p
  obtain ⟨_, _, _⟩ := r
  cases kind
  cases base
  cases quote
  rfl

end Pair
end QuoteDesk
