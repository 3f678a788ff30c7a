import QuoteDesk.Proofs.Decimal.Reduced
import QuoteDesk.Proofs.Decimal.Written

/-
Numbers in plain digits. The text of a number has a sign only below zero, no zero in front of
another digit before the point, and behind the point as many digits as there are places. With no
more places than it takes, a number has one text.
-/
namespace QuoteDesk

/-- No zero stands in front of another digit. -/
def LeadsWell (ds : List Char) : Prop := ds = ['0'] ∨ ∃ c more, ds = c :: more ∧ c ≠ '0'

/-- The literal of a number with so many places. -/
structure Literal.Writes (l : Literal) (places : ℕ) (q : ℚ) : Prop where
  value : l.value.value = q
  sign : l.sign = if q < 0 then some '-' else none
  places : l.fraction.length = places
  whole : LeadsWell l.whole

/-- The text of a number in plain digits, with so many places. -/
def Shows (s : String) (places : ℕ) (q : ℚ) : Prop :=
  ∃ l : Literal, s = String.ofList l.text ∧ l.Writes places q

/-- The text of a number in plain digits, with no more places than it takes. -/
def ShowsShort (s : String) (q : ℚ) : Prop :=
  ∃ l : Literal, s = String.ofList l.text ∧ l.Writes l.fraction.length q ∧
    l.fraction.getLast? ≠ some '0'

theorem Digits.leadsWell_write (n : ℕ) : LeadsWell (write n) := by
  obtain ⟨d, ds, digits⟩ := List.exists_cons_of_ne_nil (write_ne_nil n)
  by_cases zero : d = '0'
  · left
    rw [zero] at digits
    rw [digits, write_of_zero digits]
  · exact .inr ⟨d, ds, digits, zero⟩

theorem Digits.eq_zero_of_write {n : ℕ} (zero : write n = ['0']) : n = 0 := by
  have value := readNat_write n
  rw [zero] at value
  exact value.symm

namespace Decimal

/-- A run of digits with its point, as the literal of its parts. -/
structure Cut (ds : List Char) (e : ℤ) (whole fraction : List Char) : Prop where
  text : positional ds e = whole ++ if fraction = [] then [] else '.' :: fraction
  wholeDigits : ∀ c ∈ whole, Text.isDigit c = true
  fractionDigits : ∀ c ∈ fraction, Text.isDigit c = true
  leads : LeadsWell whole
  places : fraction.length = (-e).toNat
  read : Numeral.readNat (whole ++ fraction) = Numeral.readNat ds * 10 ^ e.toNat

theorem isDigit_zeros (k : ℕ) : ∀ c ∈ List.replicate k '0', Text.isDigit c = true := by
  intro c member
  rw [List.eq_of_mem_replicate member]
  rfl

section Cuts

variable {ds : List Char} {e : ℤ}

/-- The point stands behind the digits. -/
theorem cut_behind (digits : ∀ c ∈ ds, Text.isDigit c = true) (leads : LeadsWell ds)
    (above : 0 ≤ e) (zero : ds = ['0'] → e = 0) : Cut ds e (ds ++ List.replicate e.toNat '0') [] := by
  have nothing := Numeral.readNat_zeros e.toNat []
  rw [List.append_nil] at nothing
  constructor
  · rw [positional, if_pos above, if_pos rfl, List.append_nil]
  · intro c member
    rcases List.mem_append.mp member with digit | filler
    · exact digits c digit
    · exact isDigit_zeros _ c filler
  · intro c member
    cases member
  · rcases leads with same | ⟨c, more, rfl, some⟩
    · left
      rw [zero same, Int.toNat_zero, List.replicate_zero, List.append_nil, same]
    · exact .inr ⟨c, more ++ List.replicate e.toNat '0', rfl, some⟩
  · rw [List.length_nil]
    omega
  · rw [List.append_nil, Numeral.readNat_append, nothing, List.length_replicate]
    rfl

/-- The point stands between two digits. -/
theorem cut_between (digits : ∀ c ∈ ds, Text.isDigit c = true) (leads : LeadsWell ds)
    (below : e < 0) (inside : (-e).toNat < ds.length) :
    Cut ds e (ds.take (ds.length - (-e).toNat)) (ds.drop (ds.length - (-e).toNat)) := by
  have some : ds.drop (ds.length - (-e).toNat) ≠ [] := by
    rw [ne_eq, List.drop_eq_nil_iff]
    omega
  constructor
  · rw [positional, if_neg (not_le.mpr below), if_neg some]
    exact if_pos inside
  · exact fun c member => digits c (List.mem_of_mem_take member)
  · exact fun c member => digits c (List.mem_of_mem_drop member)
  · rcases leads with rfl | ⟨c, more, rfl, first⟩
    · rw [List.length_singleton] at inside
      omega
    · rw [List.length_cons] at inside ⊢
      obtain ⟨m, left⟩ : ∃ m, more.length + 1 - (-e).toNat = m + 1 :=
        Nat.exists_eq_add_one_of_ne_zero (by omega)
      rw [left, List.take_succ_cons]
      exact .inr ⟨c, more.take m, rfl, first⟩
  · rw [List.length_drop]
    omega
  · have one : e.toNat = 0 := by omega
    rw [List.take_append_drop, one, Nat.pow_zero, Nat.mul_one]

/-- The point stands in front of the digits. -/
theorem cut_before (digits : ∀ c ∈ ds, Text.isDigit c = true) (below : e < 0)
    (outside : ds.length ≤ (-e).toNat) :
    Cut ds e ['0'] (List.replicate ((-e).toNat - ds.length) '0' ++ ds) := by
  have some : List.replicate ((-e).toNat - ds.length) '0' ++ ds ≠ [] := by
    rw [← List.length_pos_iff, List.length_append, List.length_replicate]
    omega
  constructor
  · rw [positional, if_neg (not_le.mpr below), if_neg some]
    exact if_neg (not_lt.mpr outside)
  · exact List.forall_mem_singleton.mpr rfl
  · intro c member
    rcases List.mem_append.mp member with filler | digit
    · exact isDigit_zeros _ c filler
    · exact digits c digit
  · exact .inl rfl
  · rw [List.length_append, List.length_replicate]
    omega
  · have one : e.toNat = 0 := by omega
    rw [one, Nat.pow_zero, Nat.mul_one]
    exact (Numeral.readNat_zeros 1 _).trans (Numeral.readNat_zeros _ ds)

end Cuts

theorem exists_cut {n : ℕ} {e : ℤ} (low : n = 0 → e ≤ 0) :
    ∃ whole fraction, Cut (Digits.write n) e whole fraction := by
  have digits := Digits.isDigit_write n
  have leads := Digits.leadsWell_write n
  rcases le_or_gt 0 e with above | below
  · refine ⟨_, _, cut_behind digits leads above fun zero => ?_⟩
    exact le_antisymm (low (Digits.eq_zero_of_write zero)) above
  · rcases lt_or_ge (-e).toNat (Digits.write n).length with inside | outside
    · exact ⟨_, _, cut_between digits leads below inside⟩
    · exact ⟨_, _, cut_before digits below outside⟩

/-- A number written out in plain digits, as a literal. -/
theorem exists_literal {d : Decimal} (low : d.isZero = true → d.exponent ≤ 0) :
    ∃ l : Literal, d.fixed = l.text ∧ l.sign = (if d.negative then some '-' else none) ∧
      Cut (Digits.write d.coefficient) d.exponent l.whole l.fraction := by
  obtain ⟨whole, fraction, cut⟩ := exists_cut (n := d.coefficient) (e := d.exponent) fun zero =>
    low (beq_iff_eq.mpr zero)
  have signed : ∀ c ∈ (if d.negative then some '-' else none : Option Char),
      Token.isSign c = true := by
    intro c sign
    cases negative : d.negative with
    | false =>
      rw [negative] at sign
      cases sign
    | true =>
      rw [negative] at sign
      cases sign
      rfl
  have filled : whole ≠ [] := by
    rcases cut.leads with rfl | ⟨c, more, rfl, _⟩ <;> exact List.cons_ne_nil _ _
  refine ⟨⟨if d.negative then some '-' else none, whole, fraction, signed, cut.wholeDigits,
    cut.fractionDigits, .inl filled⟩, ?_, rfl, cut⟩
  have opened : ∀ body, signText d.negative body =
      (if d.negative then some '-' else none : Option Char).toList ++ body := by
    intro body
    cases d.negative <;> rfl
  rw [fixed, cut.text, opened]
  rfl

theorem form_of_cut {d : Decimal} {l : Literal}
    (sign : l.sign = if d.negative then some '-' else none)
    (cut : Cut (Digits.write d.coefficient) d.exponent l.whole l.fraction) :
    l.value = ⟨d.negative, d.coefficient * 10 ^ d.exponent.toNat, -((-d.exponent).toNat : ℤ)⟩ := by
  have negative : decide (l.sign = some '-') = d.negative := by
    rw [sign]
    cases d.negative <;> rfl
  rw [Literal.value, negative, cut.read, Digits.readNat_write, cut.places]

theorem value_of_cut {d : Decimal} {l : Literal}
    (sign : l.sign = if d.negative then some '-' else none)
    (cut : Cut (Digits.write d.coefficient) d.exponent l.whole l.fraction) :
    l.value.value = d.value := by
  have power : (10 : ℚ) ^ d.exponent = 10 ^ d.exponent.toNat * 10 ^ (-((-d.exponent).toNat : ℤ)) := by
    rw [← zpow_natCast, ← zpow_add₀ (by norm_num)]
    congr 1
    omega
  rw [form_of_cut sign cut, value, value, power, ← mul_assoc]
  congr 1
  unfold signed
  cases d.negative <;> simp

/-- A sign is written exactly of numbers below zero, if zero has none. -/
theorem writes_of_cut {d : Decimal} {l : Literal} (unsigned : d.isZero = true → d.negative = false)
    (sign : l.sign = if d.negative then some '-' else none)
    (cut : Cut (Digits.write d.coefficient) d.exponent l.whole l.fraction) :
    l.Writes (-d.exponent).toNat d.value := by
  refine ⟨value_of_cut sign cut, ?_, cut.places, cut.leads⟩
  have below : d.value < 0 ↔ d.negative = true := by
    have turned : d.neg.negative = false ↔ d.negative = true := by rw [neg, Bool.not_eq_false']
    have some : d.negative = true → d.isZero = false := by
      intro negative
      cases zero : d.isZero with
      | false => rfl
      | true =>
        rw [unsigned zero] at negative
        cases negative
    rw [← neg_pos, ← value_neg, value_pos_iff, turned]
    exact and_iff_left_of_imp some
  simp only [sign, below]

theorem shows_toFixed {d : Decimal} (low : d.isZero = true → d.exponent ≤ 0)
    (unsigned : d.isZero = true → d.negative = false) :
    Shows d.toFixed (-d.exponent).toNat d.value := by
  obtain ⟨l, text, sign, cut⟩ := exists_literal low
  exact ⟨l, congrArg String.ofList text, writes_of_cut unsigned sign cut⟩

theorem Stripped.low {d : Decimal} (stripped : d.Stripped) (zero : d.isZero = true) :
    d.exponent ≤ 0 := by
  rw [Stripped, if_pos zero] at stripped
  exact stripped.le

/-- Without trailing zeros no place is written that is not needed. -/
theorem showsShort_toFixed {d : Decimal} (stripped : d.Stripped)
    (unsigned : d.isZero = true → d.negative = false) : ShowsShort d.toFixed d.value := by
  obtain ⟨l, text, sign, cut⟩ := exists_literal stripped.low
  refine ⟨l, congrArg String.ofList text, cut.places ▸ writes_of_cut unsigned sign cut, ?_⟩
  intro last
  obtain ⟨more, filled⟩ := List.getLast?_eq_some_iff.mp last
  have places := cut.places
  have read := cut.read
  rw [filled, List.length_append, List.length_singleton] at places
  have whole : d.exponent.toNat = 0 := by omega
  rw [filled, ← List.append_assoc, Numeral.readNat_append, Digits.readNat_write, whole, Nat.pow_zero,
    Nat.mul_one] at read
  have tenfold : d.coefficient % 10 = 0 := by
    rw [← read]
    exact Nat.mul_mod_left _ 10
  cases zero : d.isZero with
  | true =>
    have nothing := stripped
    rw [Stripped, if_pos zero] at nothing
    omega
  | false =>
    rw [Stripped, zero, if_neg Bool.false_ne_true] at stripped
    exact stripped tenfold

end Decimal

/-! One text a number -/

/-- Of one length, there is one run of digits to a value. -/
theorem Numeral.eq_of_readNat {xs ys : List Char} (digits : ∀ c ∈ xs, Text.isDigit c = true)
    (digits' : ∀ c ∈ ys, Text.isDigit c = true) (length : xs.length = ys.length)
    (value : readNat xs = readNat ys) : xs = ys := by
  induction xs using List.reverseRecOn generalizing ys with
  | nil => exact (List.length_eq_zero_iff.mp length.symm).symm
  | append_singleton xs x ih =>
    rcases List.eq_nil_or_concat ys with rfl | ⟨ys, y, rfl⟩
    · cases xs <;> cases length
    rw [List.concat_eq_append] at *
    have last : ∀ c, readNat [c] = c.toNat - '0'.toNat := by
      intro c
      simp [readNat, digitsOf, Digits.read]
    have zero : '0'.toNat = 48 := rfl
    have bounds := (Text.isDigit_iff x).mp (digits x (by simp))
    have bounds' := (Text.isDigit_iff y).mp (digits' y (by simp))
    rw [readNat_append, readNat_append, last, last, List.length_singleton, List.length_singleton] at value
    simp only [List.length_append, List.length_singleton] at length
    have code : x.toNat = y.toNat := by omega
    have rest : xs = ys := by
      apply ih
      · exact fun c member => digits c (List.mem_append_left _ member)
      · exact fun c member => digits' c (List.mem_append_left _ member)
      · omega
      · omega
    rw [rest, Char.toNat_inj.mp code]

/-- Where no zero leads, none was put in front. -/
theorem LeadsWell.unpadded {ds ds' : List Char} {k : ℕ} (leads : LeadsWell ds)
    (leads' : LeadsWell ds') (padded : ds' = List.replicate k '0' ++ ds) : k = 0 := by
  cases k with
  | zero => rfl
  | succ k =>
    rw [List.replicate_succ, List.cons_append] at padded
    rcases leads' with single | ⟨c, more, first, some⟩
    · rw [single] at padded
      have none := (List.cons.inj padded).2
      rcases leads with rfl | ⟨c, more, rfl, _⟩ <;> simp at none
    · rw [first] at padded
      exact absurd (List.cons.inj padded).1 some

theorem eq_of_padded {ds ds' : List Char} {k k' : ℕ} (one : k = 0 ∨ k' = 0) (leads : LeadsWell ds)
    (leads' : LeadsWell ds')
    (same : List.replicate k '0' ++ ds = List.replicate k' '0' ++ ds') : ds = ds' := by
  rcases one with rfl | rfl
  · rw [leads'.unpadded leads same] at same
    exact same
  · rw [leads.unpadded leads' same.symm] at same
    exact same

/-- Where no zero is the last, none was put behind. -/
theorem unfilled {ds ds' : List Char} {k : ℕ} (last : ds'.getLast? ≠ some '0')
    (filled : ds' = ds ++ List.replicate k '0') : k = 0 := by
  cases k with
  | zero => rfl
  | succ k =>
    rw [List.replicate_succ', ← List.append_assoc] at filled
    exact absurd (by rw [filled, List.getLast?_concat]) last

theorem eq_of_filled {ds ds' : List Char} {k k' : ℕ} (one : k = 0 ∨ k' = 0)
    (last : ds.getLast? ≠ some '0') (last' : ds'.getLast? ≠ some '0')
    (same : ds ++ List.replicate k '0' = ds' ++ List.replicate k' '0') : ds = ds' := by
  rcases one with rfl | rfl
  · rw [List.replicate_zero, List.append_nil] at same
    rwa [unfilled last same, List.replicate_zero, List.append_nil] at same
  · rw [List.replicate_zero, List.append_nil] at same
    rwa [unfilled last' same.symm, List.replicate_zero, List.append_nil] at same

namespace Literal

theorem abs_value_value (l : Literal) :
    |l.value.value| = Numeral.readNat (l.whole ++ l.fraction) / 10 ^ l.fraction.length := by
  rw [Decimal.abs_value, value, zpow_neg, zpow_natCast, div_eq_mul_inv]

/-- With as many zeros as the other has more places, the digits of one number are the same. -/
theorem readNat_filled {l l' : Literal} (same : l.value.value = l'.value.value) :
    Numeral.readNat (l.whole ++ l.fraction) * 10 ^ (l'.fraction.length - l.fraction.length) =
      Numeral.readNat (l'.whole ++ l'.fraction) * 10 ^ (l.fraction.length - l'.fraction.length) := by
  have sizes := congrArg abs same
  rw [abs_value_value, abs_value_value] at sizes
  generalize l.fraction.length = k at sizes ⊢
  generalize l'.fraction.length = k' at sizes ⊢
  rw [div_eq_div_iff (by positivity) (by positivity)] at sizes
  have sizes : Numeral.readNat (l.whole ++ l.fraction) * 10 ^ k' =
      Numeral.readNat (l'.whole ++ l'.fraction) * 10 ^ k := by exact_mod_cast sizes
  have less : k' - k + min k k' = k' := by omega
  have less' : k - k' + min k k' = k := by omega
  apply Nat.eq_of_mul_eq_mul_right (Nat.pow_pos (by decide) : 0 < 10 ^ min k k')
  rw [Nat.mul_assoc, Nat.mul_assoc, ← Nat.pow_add, ← Nat.pow_add, less, less']
  exact sizes

/-- Brought to the same length at both ends, the digits of one number are the same. -/
theorem aligned {l l' : Literal} (same : l.value.value = l'.value.value) :
    List.replicate (l'.whole.length - l.whole.length) '0' ++ l.whole =
        List.replicate (l.whole.length - l'.whole.length) '0' ++ l'.whole ∧
      l.fraction ++ List.replicate (l'.fraction.length - l.fraction.length) '0' =
        l'.fraction ++ List.replicate (l.fraction.length - l'.fraction.length) '0' := by
  have digits : ∀ (l : Literal) (j k : ℕ), ∀ c ∈ (List.replicate j '0' ++ l.whole) ++
      (l.fraction ++ List.replicate k '0'), Text.isDigit c = true := by
    intro l j k c member
    rw [List.mem_append, List.mem_append, List.mem_append] at member
    rcases member with (zero | whole) | fraction | zero
    · exact Decimal.isDigit_zeros j c zero
    · exact l.wholeDigits c whole
    · exact l.fractionDigits c fraction
    · exact Decimal.isDigit_zeros k c zero
  have read : ∀ (l : Literal) (j k : ℕ), Numeral.readNat ((List.replicate j '0' ++ l.whole) ++
      (l.fraction ++ List.replicate k '0')) = Numeral.readNat (l.whole ++ l.fraction) * 10 ^ k := by
    intro l j k
    have nothing := Numeral.readNat_zeros k []
    rw [List.append_nil] at nothing
    rw [← List.append_assoc, List.append_assoc _ l.whole, Numeral.readNat_append,
      Numeral.readNat_zeros, nothing, List.length_replicate]
    rfl
  apply List.append_inj
  · apply Numeral.eq_of_readNat (digits l _ _) (digits l' _ _)
    · simp only [List.length_append, List.length_replicate]
      omega
    · rw [read, read, readNat_filled same]
  · simp only [List.length_append, List.length_replicate]
    omega

/-- What a text of a number in reach says can be read, if it has not too many places. -/
theorem admissible_of_reach {l : Literal} (below : |l.value.value| < Decimal.reach)
    (places : Decimal.lowestExponent ≤ -l.fraction.length) : l.value.admissible = true := by
  have exponent : l.value.exponent = -l.fraction.length := rfl
  rw [Decimal.admissible, Bool.and_eq_true, decide_eq_true_eq]
  refine ⟨places, ?_⟩
  cases zero : l.value.isZero with
  | true =>
    have far : (0 : ℤ) ≤ Decimal.farthestPlace := by decide
    rw [if_pos rfl, decide_eq_true_eq]
    omega
  | false =>
    have far : Decimal.emax ≤ Decimal.farthestPlace := by decide
    rw [Decimal.reach, Decimal.lt_zpow_iff (Decimal.value_ne_zero zero), Decimal.place_value zero] at below
    rw [if_neg Bool.false_ne_true, decide_eq_true_eq]
    omega

end Literal

/-- Two literals of a number that have the same places are one. -/
theorem Literal.Writes.eq_of_fraction {l l' : Literal} {places places' : ℕ} {q : ℚ}
    (writes : l.Writes places q) (writes' : l'.Writes places' q)
    (fractions : l.fraction = l'.fraction) : l = l' := by
  obtain ⟨wholes, _⟩ := aligned (writes.value.trans writes'.value.symm)
  ext1
  · rw [writes.sign, writes'.sign]
  · exact eq_of_padded (by omega) writes.whole writes'.whole wholes
  · exact fractions

/-- With so many places a number has one text. -/
theorem Shows.unique {s s' : String} {places : ℕ} {q : ℚ} (shown : Shows s places q)
    (shown' : Shows s' places q) : s = s' := by
  obtain ⟨l, rfl, writes⟩ := shown
  obtain ⟨l', rfl, writes'⟩ := shown'
  obtain ⟨_, fractions⟩ := Literal.aligned (writes.value.trans writes'.value.symm)
  have lengths : l.fraction.length = l'.fraction.length := writes.places.trans writes'.places.symm
  rw [lengths, Nat.sub_self, List.replicate_zero, List.append_nil, List.append_nil] at fractions
  rw [writes.eq_of_fraction writes' fractions]

/-- A number has one text with no more places than it takes. -/
theorem ShowsShort.unique {s s' : String} {q : ℚ} (shown : ShowsShort s q)
    (shown' : ShowsShort s' q) : s = s' := by
  obtain ⟨l, rfl, writes, last⟩ := shown
  obtain ⟨l', rfl, writes', last'⟩ := shown'
  obtain ⟨_, fractions⟩ := Literal.aligned (writes.value.trans writes'.value.symm)
  rw [writes.eq_of_fraction writes' (eq_of_filled (by omega) last last' fractions)]

theorem showsShort_zero : ShowsShort "0" 0 := by
  have text : (⟨false, 0, 0⟩ : Decimal).toFixed = "0" := by decide +kernel
  have shown := Decimal.showsShort_toFixed (d := ⟨false, 0, 0⟩) rfl fun _ => rfl
  rwa [text, (Decimal.value_eq_zero_iff _).mpr rfl] at shown

theorem ShowsShort.of_zero {s : String} (shown : ShowsShort s 0) : s = "0" :=
  shown.unique showsShort_zero

namespace Decimal

/-- The text of a number that keeps all its digits is that number. -/
theorem plainText_shows {d : Decimal} (below : |d.value| < reach)
    (grid : OnGrid (bottom d) d.value) : ∃ s, d.plainText = .ok s ∧ ShowsShort s d.value := by
  cases zero : d.isZero with
  | true =>
    refine ⟨_, plainText_zero d zero, ?_⟩
    rw [(value_eq_zero_iff d).mpr zero]
    exact showsShort_zero
  | false =>
    obtain ⟨r, done, stripped, rounded⟩ := normalize_of_room below
    rw [rounds_halfEven.of_grid grid] at rounded
    have some : r.isZero = false := by
      rw [← Bool.not_eq_true, ← value_eq_zero_iff, rounded]
      exact value_ne_zero zero
    have shown := showsShort_toFixed stripped fun nothing => by
      rw [some] at nothing
      cases nothing
    rw [rounded] at shown
    exact ⟨_, by rw [plainText_of_some zero, done]; rfl, shown⟩

theorem Inside.plainText_shows {d : Decimal} (inside : d.Inside) :
    ∃ s, d.plainText = .ok s ∧ ShowsShort s d.value :=
  Decimal.plainText_shows (lt_reach_of_adjusted inside.most.le) (onGrid_bottom inside.least.le)

end Decimal
end QuoteDesk
