import Mathlib.Tactic.Ring
import QuoteDesk.Decimal.Text
import QuoteDesk.Proofs.Decimal.Digits
import QuoteDesk.Proofs.Expression.Literal

/-
Numbers written out and read back. The halves of a padded run of digits are written apart,
so its value is that of a two-place number to the base of one half. A decimal comes back as
it was, sign, digits and exponent, in whichever form it was written.
-/
namespace QuoteDesk

namespace Numeral

theorem readNat_append (xs ys : List Char) :
    readNat (xs ++ ys) = readNat xs * 10 ^ ys.length + readNat ys := by
  induction ys using List.reverseRecOn with
  | nil => simp [readNat, digitsOf, Digits.read]
  | append_singleton ys y ih =>
    have last : ∀ zs : List Char, readNat (zs ++ [y]) = 10 * readNat zs + (y.toNat - '0'.toNat) := by
      intro zs
      simp only [readNat, digitsOf, List.map_append, List.map_singleton, Digits.read_append_singleton]
    rw [← List.append_assoc, last, last, ih, List.length_append, List.length_singleton, Nat.pow_succ]
    ring

theorem readNat_zeros (k : Nat) (cs : List Char) :
    readNat (List.replicate k '0' ++ cs) = readNat cs := by
  induction k with
  | zero => rfl
  | succ k ih =>
    rw [List.replicate_succ, List.cons_append, ← List.singleton_append, readNat_append, ih]
    simp [readNat, digitsOf, Digits.read]

theorem readNat_dropWhile (cs : List Char) : readNat (cs.dropWhile (· == '0')) = readNat cs := by
  induction cs with
  | nil => rfl
  | cons c cs ih =>
    rw [List.dropWhile_cons]
    split
    · rename_i zero
      obtain rfl := beq_iff_eq.mp zero
      rw [ih]
      exact (readNat_zeros 1 cs).symm
    · rfl

end Numeral

namespace Digits

theorem toNat_ofNat (d : Nat) : (ofNat d).toNat = 48 + d % 10 := by
  have low : ∀ n < 10, (Char.ofNat (48 + n)).toNat = 48 + n := by decide
  exact low (d % 10) (Nat.mod_lt d (by decide))

theorem isDigit_ofNat (d : Nat) : Text.isDigit (ofNat d) = true := by
  rw [Text.isDigit_iff, toNat_ofNat]
  omega

theorem readNat_singleton (d : Nat) : Numeral.readNat [ofNat d] = d % 10 := by
  simp [Numeral.readNat, Numeral.digitsOf, read, toNat_ofNat]

theorem padded_append (k n : Nat) (rest : List Char) : padded k n rest = padded k n [] ++ rest := by
  induction k generalizing n rest with
  | zero => rfl
  | succ k ih => rw [padded, ih, ih (n % 10 ^ 2 ^ k), padded, ih _ (padded _ _ []), List.append_assoc]

theorem padded_succ (k n : Nat) :
    padded (k + 1) n [] = padded k (n / 10 ^ 2 ^ k) [] ++ padded k (n % 10 ^ 2 ^ k) [] := by
  rw [padded, padded_append]

theorem length_padded (k n : Nat) : (padded k n []).length = 2 ^ k := by
  induction k generalizing n with
  | zero => rfl
  | succ k ih => rw [padded_succ, List.length_append, ih, ih, Nat.pow_succ, Nat.mul_two]

theorem isDigit_padded (k n : Nat) : ∀ c ∈ padded k n [], Text.isDigit c = true := by
  induction k generalizing n with
  | zero =>
    intro c member
    obtain rfl := List.mem_singleton.mp member
    exact isDigit_ofNat n
  | succ k ih =>
    intro c member
    rw [padded_succ] at member
    rcases List.mem_append.mp member with high | low
    · exact ih _ c high
    · exact ih _ c low

theorem readNat_padded {k n : Nat} (fits : n < 10 ^ 2 ^ k) : Numeral.readNat (padded k n []) = n := by
  induction k generalizing n with
  | zero =>
    rw [padded, readNat_singleton]
    exact Nat.mod_eq_of_lt (by simpa using fits)
  | succ k ih =>
    have positive : 0 < 10 ^ 2 ^ k := Nat.pow_pos (by decide)
    -- the halves are the digits of `n` to the base `10 ^ 2 ^ k`
    have high : n / 10 ^ 2 ^ k < 10 ^ 2 ^ k := by
      rw [Nat.pow_succ 2, Nat.mul_two, Nat.pow_add] at fits
      exact Nat.div_lt_of_lt_mul fits
    rw [padded_succ, Numeral.readNat_append, length_padded, ih high, ih (Nat.mod_lt n positive)]
    exact Nat.div_add_mod' n (10 ^ 2 ^ k)

theorem isDigit_write (n : Nat) : ∀ c ∈ write n, Text.isDigit c = true := by
  unfold write
  split
  · intro c member
    obtain rfl := List.mem_singleton.mp member
    exact isDigit_ofNat n
  · intro c member
    exact isDigit_padded _ n c ((List.dropWhile_sublist _).mem member)

theorem readNat_write (n : Nat) : Numeral.readNat (write n) = n := by
  unfold write
  split
  · rename_i small
    rw [readNat_singleton, Nat.mod_eq_of_lt small]
  · have room : count n < 2 ^ (Nat.log2 (count n) + 1) := Nat.lt_log2_self
    rw [Numeral.readNat_dropWhile, readNat_padded]
    exact Nat.lt_of_lt_of_le (lt_pow_count n) (Nat.pow_le_pow_right (by decide) room.le)

theorem write_ne_nil (n : Nat) : write n ≠ [] := by
  intro empty
  have value := readNat_write n
  rw [empty] at value
  obtain rfl : 0 = n := value
  cases empty

/-- No zero stands in front of another digit. -/
theorem write_of_zero {n : Nat} {ds : List Char} (zero : write n = '0' :: ds) : ds = [] := by
  unfold write at zero
  split at zero
  · exact (List.cons.inj zero).2.symm
  · have stops := Text.stops_dropWhile (· == '0') (padded (Nat.log2 (count n) + 1) n [])
    cases stops '0' ds zero

theorem length_write_le {n k : Nat} (positive : 0 < k) (below : n < 10 ^ k) :
    (write n).length ≤ k := by
  have value := readNat_write n
  obtain ⟨d, ds, digits⟩ := List.exists_cons_of_ne_nil (write_ne_nil n)
  rw [digits] at value ⊢
  by_cases zero : d = '0'
  · subst zero
    rw [write_of_zero digits]
    exact positive
  · have digit := (Text.isDigit_iff d).mp (isDigit_write n d (by simp [digits]))
    have first : 0 < Numeral.readNat [d] := by
      have other : d.toNat ≠ 48 := fun same => zero (Char.toNat_inj.mp same)
      simp only [Numeral.readNat, Numeral.digitsOf, List.map_singleton, read, List.foldl_cons,
        List.foldl_nil, show '0'.toNat = 48 from rfl]
      omega
    rw [← List.singleton_append, Numeral.readNat_append] at value
    have power : 10 ^ ds.length < 10 ^ k := by
      have least := Nat.mul_le_mul_right (10 ^ ds.length) first
      omega
    exact (Nat.pow_lt_pow_iff_right (by decide)).mp power

end Digits

namespace Numeral

section Parts

variable {whole fraction tail : List Char} (negative : Bool)

/-- A number in the bounds of what can be read. -/
def bounded (d : Decimal) : Option Decimal := if d.admissible then some d else none

theorem readFinite_whole (digits : ∀ c ∈ whole, Text.isDigit c = true) (filled : whole ≠ [])
    (stops : Text.Stops Text.isDigit tail) (pointless : ∀ more, tail ≠ '.' :: more) :
    readFinite negative (whole ++ tail) =
      (readExponent tail).bind fun e => bounded ⟨negative, readNat whole, e⟩ := by
  unfold readFinite
  rw [Text.takeWhile_run digits stops, Text.dropWhile_run digits stops]
  simp only [filled, List.append_nil, List.length_nil, Int.ofNat_zero, Int.sub_zero,
    false_and, ↓reduceIte]
  rfl

theorem readFinite_point (digits : ∀ c ∈ whole, Text.isDigit c = true)
    (decimals : ∀ c ∈ fraction, Text.isDigit c = true) (filled : whole ≠ [])
    (stops : Text.Stops Text.isDigit tail) :
    readFinite negative (whole ++ '.' :: (fraction ++ tail)) =
      (readExponent tail).bind fun e =>
        bounded ⟨negative, readNat (whole ++ fraction), e - fraction.length⟩ := by
  have point : Text.Stops Text.isDigit ('.' :: (fraction ++ tail)) := Text.stops_cons (by decide) _
  unfold readFinite
  rw [Text.takeWhile_run digits point, Text.dropWhile_run digits point]
  simp only [Text.takeWhile_run decimals stops, Text.dropWhile_run decimals stops, filled, false_and,
    ↓reduceIte]
  rfl

end Parts

theorem readExponent_write (adjusted : Int) :
    readExponent ('E' :: if adjusted < 0 then Decimal.writeInt adjusted
      else '+' :: Decimal.writeInt adjusted) = some adjusted := by
  have digits := List.all_eq_true.mpr (Digits.isDigit_write adjusted.natAbs)
  unfold Decimal.writeInt Decimal.signText
  split
  · rename_i negative
    simp only [readExponent, or_true, ↓reduceIte, negative, decide_true, splitSign, ne_eq,
      Digits.write_ne_nil, not_false_eq_true, digits, and_self, Digits.readNat_write]
    congr
    omega
  · rename_i positive
    simp only [readExponent, or_true, ↓reduceIte, positive, decide_false, splitSign, ne_eq,
      Digits.write_ne_nil, not_false_eq_true, digits, and_self, Digits.readNat_write,
      Bool.false_eq_true]
    congr
    omega

end Numeral

namespace Decimal

variable (negative : Bool) {ds : List Char}

theorem readFinite_positional (digits : ∀ c ∈ ds, Text.isDigit c = true) (filled : ds ≠ []) {e : Int}
    (low : e ≤ 0) :
    Numeral.readFinite negative (positional ds e) =
      Numeral.bounded ⟨negative, Numeral.readNat ds, e⟩ := by
  have done := Text.stops_nil Text.isDigit
  unfold positional
  split
  · obtain rfl : e = 0 := by omega
    have read := Numeral.readFinite_whole negative digits filled done (by simp)
    rw [List.append_nil] at read
    simpa [Numeral.readExponent] using read
  · obtain ⟨k, rfl⟩ := Int.exists_eq_neg_ofNat low
    have places : (- -(k : Int)).toNat = k := by omega
    rw [places]
    dsimp only
    split
    · rename_i inside
      have before : ∀ c ∈ ds.take (ds.length - k), Text.isDigit c = true :=
        fun c member => digits c (List.mem_of_mem_take member)
      have behind : ∀ c ∈ ds.drop (ds.length - k), Text.isDigit c = true :=
        fun c member => digits c (List.mem_of_mem_drop member)
      have some : ds.take (ds.length - k) ≠ [] := by
        simp only [ne_eq, List.take_eq_nil_iff, filled, or_false]
        omega
      have read := Numeral.readFinite_point negative before behind some done
      rw [List.append_nil] at read
      have length : ds.length - (ds.length - k) = k := by omega
      simpa [Numeral.readExponent, length] using read
    · have behind : ∀ c ∈ List.replicate (k - ds.length) '0' ++ ds, Text.isDigit c = true := by
        intro c member
        rcases List.mem_append.mp member with zero | digit
        · rw [List.eq_of_mem_replicate zero]
          rfl
        · exact digits c digit
      have zero : ∀ c ∈ ['0'], Text.isDigit c = true := List.forall_mem_singleton.mpr rfl
      have read := Numeral.readFinite_point negative zero behind (by simp) done
      rw [List.append_nil] at read
      have length : k - ds.length + ds.length = k := by omega
      have value : Numeral.readNat (['0'] ++ (List.replicate (k - ds.length) '0' ++ ds)) =
          Numeral.readNat ds :=
        (Numeral.readNat_zeros 1 _).trans (Numeral.readNat_zeros _ ds)
      rw [value] at read
      simpa [Numeral.readExponent, length] using read

theorem readFinite_exponential (digits : ∀ c ∈ ds, Text.isDigit c = true) (filled : ds ≠ [])
    (adjusted : Int) :
    Numeral.readFinite negative (exponential ds adjusted) =
      Numeral.bounded ⟨negative, Numeral.readNat ds, adjusted + 1 - ds.length⟩ := by
  obtain ⟨d, ds, rfl⟩ := List.exists_cons_of_ne_nil filled
  have stops : Text.Stops Text.isDigit
      ('E' :: if adjusted < 0 then writeInt adjusted else '+' :: writeInt adjusted) :=
    Text.stops_cons (by decide) _
  have first : ∀ c ∈ [d], Text.isDigit c = true := fun c member =>
    digits c (List.mem_cons.mpr (.inl (List.mem_singleton.mp member)))
  unfold exponential
  cases ds with
  | nil =>
    have read := Numeral.readFinite_whole negative first (by simp) stops (by simp)
    rw [Numeral.readExponent_write] at read
    simpa using read
  | cons d' ds =>
    have read := Numeral.readFinite_point negative first
      (fun c member => digits c (List.mem_cons_of_mem d member)) (by simp) stops
    rw [Numeral.readExponent_write] at read
    have places : adjusted + 1 - (ds.length + 1 + 1) = adjusted - (ds.length + 1) := by omega
    simpa [places] using read

/-- The characters in which numbers are written. -/
def isWritten (c : Char) : Bool := Text.isDigit c || ['-', '+', '.', 'E'].contains c

theorem isWritten_of_isDigit {c : Char} (digit : Text.isDigit c = true) : isWritten c = true := by
  rw [isWritten, digit, Bool.true_or]

theorem plain_of_isWritten {c : Char} (written : isWritten c = true) :
    Text.isBlank c = false ∧ c ≠ '_' ∧ Numeral.plainChar c = some c := by
  rw [isWritten, Bool.or_eq_true] at written
  rcases written with digit | other
  · exact Numeral.plain_of_digit digit
  · simp only [List.contains_cons, List.contains_nil, Bool.or_false, Bool.or_eq_true, beq_iff_eq] at other
    rcases other with rfl | rfl | rfl | rfl <;> decide

/-- A written number without its sign: it begins with a digit. -/
structure Unsigned (cs : List Char) : Prop where
  written : ∀ c ∈ cs, isWritten c = true
  opens : ∃ d more, cs = d :: more ∧ Text.isDigit d = true

theorem Unsigned.append {xs ys : List Char} (unsigned : Unsigned xs)
    (written : ∀ c ∈ ys, isWritten c = true) : Unsigned (xs ++ ys) := by
  obtain ⟨known, d, more, rfl, digit⟩ := unsigned
  refine ⟨?_, d, more ++ ys, rfl, digit⟩
  intro c member
  rcases List.mem_append.mp member with first | second
  · exact known c first
  · exact written c second

theorem unsigned_digits (digits : ∀ c ∈ ds, Text.isDigit c = true) (filled : ds ≠ []) :
    Unsigned ds := by
  obtain ⟨d, ds, rfl⟩ := List.exists_cons_of_ne_nil filled
  exact ⟨fun c member => isWritten_of_isDigit (digits c member), d, ds, rfl, digits d (by simp)⟩

theorem unsigned_positional (digits : ∀ c ∈ ds, Text.isDigit c = true) (filled : ds ≠ []) (e : Int) :
    Unsigned (positional ds e) := by
  have zeros : ∀ k, ∀ c ∈ List.replicate k '0', isWritten c = true := by
    intro k c member
    rw [List.eq_of_mem_replicate member]
    rfl
  have written : ∀ c ∈ ds, isWritten c = true := fun c member => isWritten_of_isDigit (digits c member)
  unfold positional
  dsimp only
  split
  · exact (unsigned_digits digits filled).append (zeros _)
  · split
    · apply (unsigned_digits (fun c member => digits c (List.mem_of_mem_take member)) _).append
      · intro c member
        rcases List.mem_cons.mp member with rfl | member
        · rfl
        · exact written c (List.mem_of_mem_drop member)
      · simp only [ne_eq, List.take_eq_nil_iff, filled, or_false]
        omega
    · refine ⟨?_, '0', _, rfl, rfl⟩
      intro c member
      simp only [List.mem_cons, List.mem_append] at member
      rcases member with rfl | rfl | zero | digit
      · rfl
      · rfl
      · exact zeros _ c zero
      · exact written c digit

theorem isWritten_writeInt (i : Int) : ∀ c ∈ writeInt i, isWritten c = true := by
  have digits : ∀ c ∈ Digits.write i.natAbs, isWritten c = true := fun c member =>
    isWritten_of_isDigit (Digits.isDigit_write _ c member)
  unfold writeInt signText
  split
  · intro c member
    rcases List.mem_cons.mp member with rfl | digit
    · rfl
    · exact digits c digit
  · exact digits

theorem unsigned_exponential (digits : ∀ c ∈ ds, Text.isDigit c = true) (filled : ds ≠ [])
    (adjusted : Int) : Unsigned (exponential ds adjusted) := by
  obtain ⟨d, ds, rfl⟩ := List.exists_cons_of_ne_nil filled
  have rest : ∀ c ∈ ds, isWritten c = true := fun c member =>
    isWritten_of_isDigit (digits c (List.mem_cons_of_mem d member))
  refine ⟨?_, d, _, rfl, digits d (by simp)⟩
  intro c member
  simp only [exponential, List.take_succ_cons, List.take_zero, List.drop_succ_cons, List.drop_zero,
    List.mem_append, List.mem_cons, List.not_mem_nil, or_false] at member
  rcases member with (rfl | decimals) | rfl | power
  · exact isWritten_of_isDigit (digits c (by simp))
  · split at decimals
    · cases decimals
    · rcases List.mem_cons.mp decimals with rfl | inside
      · rfl
      · exact rest c inside
  · rfl
  · split at power
    · exact isWritten_writeInt adjusted c power
    · rcases List.mem_cons.mp power with rfl | inside
      · rfl
      · exact isWritten_writeInt adjusted c inside

theorem splitSign_signText {body : List Char} (unsigned : Unsigned body) :
    Numeral.splitSign (signText negative body) = (negative, body) := by
  obtain ⟨_, c, more, rfl, digit⟩ := unsigned
  cases negative with
  | true => rfl
  | false =>
    have sign : c ≠ '-' ∧ c ≠ '+' := by constructor <;> (rintro rfl; cases digit)
    unfold signText Numeral.splitSign
    split
    · rename_i same
      cases same
      exact absurd rfl sign.1
    · rename_i same
      cases same
      exact absurd rfl sign.2
    · rfl

theorem plainForm_signText {body : List Char} (unsigned : Unsigned body) :
    Numeral.plainForm (signText negative body) = some (signText negative body) := by
  apply Numeral.plainForm_eq_self
  intro c member
  apply plain_of_isWritten
  cases negative with
  | true =>
    rcases List.mem_cons.mp member with rfl | inside
    · rfl
    · exact unsigned.written c inside
  | false => exact unsigned.written c member

/-- A number that is written out is read back, if it lies in the bounds of what can be read. -/
theorem read_toText (d : Decimal) : read d.toText = Numeral.bounded d := by
  have digits := Digits.isDigit_write d.coefficient
  have filled := Digits.write_ne_nil d.coefficient
  obtain ⟨body, written, unsigned, value⟩ : ∃ body, d.scientific = signText d.negative body ∧
      Unsigned body ∧ Numeral.readFinite d.negative body = Numeral.bounded d := by
    refine ⟨_, rfl, ?_, ?_⟩
    · split
      · exact unsigned_positional digits filled _
      · exact unsigned_exponential digits filled _
    · split
      · rename_i low
        simp only [Bool.and_eq_true, decide_eq_true_eq] at low
        rw [readFinite_positional _ digits filled low.1, Digits.readNat_write]
      · rw [readFinite_exponential _ digits filled, Digits.readNat_write]
        congr
        omega
  have plain := plainForm_signText d.negative unsigned
  rw [toText, written, read_of_plain plain (splitSign_signText d.negative unsigned), value]

end Decimal
end QuoteDesk
