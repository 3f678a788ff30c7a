import QuoteDesk.Proofs.Decimal.Reduced

/-
Which texts are amounts, and of which number. A text that is no number, or none above zero, is
refused with its reason. A number that is read may be far out of the range of places in which
arithmetic works, though: above it the amount ends in a defect, and below it digits are lost, in the
end all of them, so that a positive number is taken as zero.
-/
namespace QuoteDesk

open Decimal

/-- What a positive number is taken as: it loses the zeros at its end and the digits below the last
place that there is. A number that has none there stays what it is, and one of at most half a unit
of that place comes to nothing. -/
structure TakenAs (d r : Decimal) : Prop where
  stripped : r.Stripped
  rounded : r.value = wholeNearest (d.value / 10 ^ bottom d) * 10 ^ bottom d
  exact : r.value = d.value ↔ OnGrid (bottom d) d.value
  kept : emin ≤ d.adjusted → r.value = d.value
  positive : 0 < r.value ↔ 10 ^ bottom d / 2 < d.value

theorem wholeNearest_pos_iff (x : ℚ) : 0 < wholeNearest x ↔ 1 / 2 < x := by
  have reflected := wholeNearest_lt_iff (n := 0) (by decide) (-x)
  rw [wholeNearest_neg, neg_lt_zero] at reflected
  rw [reflected, Int.cast_zero]
  constructor <;> intro above <;> linarith

theorem takenAs_of_rounded {d r : Decimal} (stripped : r.Stripped)
    (rounded : r.value = wholeNearest (d.value / 10 ^ bottom d) * 10 ^ bottom d) : TakenAs d r := by
  have unit := ten_zpow_pos (bottom d)
  have exact : r.value = d.value ↔ OnGrid (bottom d) d.value := by
    constructor
    · intro same
      exact ⟨_, same.symm.trans rounded⟩
    · intro grid
      rw [rounded, rounds_halfEven.of_grid grid]
  refine ⟨stripped, rounded, exact, fun least => exact.mpr (onGrid_bottom least), ?_⟩
  rw [rounded, mul_pos_iff_of_pos_right unit, Int.cast_pos, wholeNearest_pos_iff, lt_div_iff₀ unit,
    one_div_mul_eq_div]

/-- With room for all digits only numbers out of reach are refused. -/
theorem normalize_cases (d : Decimal) :
    (reach ≤ |d.value| ∧ normalize (widePrecision d) d = .error .overflow) ∨
      (|d.value| < reach ∧ ∃ r, normalize (widePrecision d) d = .ok r ∧ TakenAs d r) := by
  rcases lt_or_ge |d.value| reach with below | beyond
  · obtain ⟨r, done, stripped, rounded⟩ := normalize_of_room below
    exact .inr ⟨below, r, done, takenAs_of_rounded stripped rounded⟩
  · exact .inl ⟨beyond, normalize_refused beyond⟩

theorem Decimal.read_eq_some_iff {s : String} {d : Decimal} :
    Decimal.read s = some d ↔ Numeral.read s = some (.finite d) := by
  unfold Decimal.read
  cases Numeral.read s with
  | none => simp
  | some n => cases n <;> simp [Numeral.finite?]

/-- The four ways in which a text is read. -/
theorem readAmount_cases (raw : String) :
    (Decimal.read (Text.trim raw) = none ∧
        readAmount raw = .error (.fault (.input (.unreadableAmount raw)))) ∨
      ∃ d, Decimal.read (Text.trim raw) = some d ∧
        ((d.value ≤ 0 ∧ readAmount raw = .error (.fault (.input (.amountNotPositive raw)))) ∨
          (0 < d.value ∧ reach ≤ d.value ∧
            readAmount raw = .error (.defect (.arithmetic .overflow))) ∨
          (0 < d.value ∧ d.value < reach ∧ ∃ r, readAmount raw = .ok r ∧ TakenAs d r)) := by
  cases read : Decimal.read (Text.trim raw) with
  | none =>
    refine .inl ⟨rfl, ?_⟩
    unfold readAmount
    split
    · rename_i d numeral
      rw [Decimal.read_eq_some_iff.mpr numeral] at read
      cases read
    · rfl
  | some d =>
    refine .inr ⟨d, rfl, ?_⟩
    simp only [readAmount, Decimal.read_eq_some_iff.mp read]
    have sign : d.positive = true ↔ 0 < d.value := by
      rw [value_pos_iff, positive, Bool.and_eq_true, Bool.not_eq_true', Bool.not_eq_true']
    rcases le_or_gt d.value 0 with low | positive
    · refine .inl ⟨low, if_neg ?_⟩
      rw [sign]
      exact not_lt.mpr low
    · have cases := normalize_cases d
      rw [abs_of_pos positive] at cases
      rw [if_pos (sign.mpr positive)]
      rcases cases with ⟨beyond, refused⟩ | ⟨below, r, done, taken⟩
      · exact .inr (.inl ⟨positive, beyond, by rw [refused]; rfl⟩)
      · exact .inr (.inr ⟨positive, below, r, by rw [done]; rfl, taken⟩)

/-- A text is an amount exactly if it denotes a positive number in reach, and then it is taken as
that number. The user is told exactly of the texts that denote no number, and of those whose number
is not positive. The numbers out of reach, and they only, end in a defect. -/
theorem readAmount_iff (raw : String) :
    ((∃ r, readAmount raw = .ok r) ↔
      ∃ d, Decimal.read (Text.trim raw) = some d ∧ 0 < d.value ∧ d.value < reach) ∧
    (∀ d r, Decimal.read (Text.trim raw) = some d → readAmount raw = .ok r → TakenAs d r) ∧
    (∀ f, readAmount raw = .error (.fault f) ↔
      (Decimal.read (Text.trim raw) = none ∧ f = .input (.unreadableAmount raw)) ∨
        ∃ d, Decimal.read (Text.trim raw) = some d ∧ d.value ≤ 0 ∧
          f = .input (.amountNotPositive raw)) ∧
    (∀ k, readAmount raw = .error (.defect k) ↔
      k = .arithmetic .overflow ∧ ∃ d, Decimal.read (Text.trim raw) = some d ∧ reach ≤ d.value) := by
  rcases readAmount_cases raw with ⟨read, told⟩ | ⟨d, read, ⟨low, told⟩ | ⟨positive, beyond, told⟩ |
    ⟨positive, below, r, done, taken⟩⟩
  · simp [read, told, eq_comm]
  · have near : ¬ reach ≤ d.value := not_le.mpr (low.trans_lt reach_pos)
    simp [read, told, low, near, eq_comm]
  · simp [read, told, positive, beyond, eq_comm]
  · simp [read, done, positive, below, taken, eq_comm]

/-- Two positive numbers: the one has no digit that is kept, and the other is out of reach. -/
theorem small_amount_nothing :
    Decimal.read (Text.trim "1e-2000000") = some ⟨false, 1, -2000000⟩ ∧
      (∃ r, readAmount "1e-2000000" = .ok r ∧ r.value = 0) ∧
      Decimal.read (Text.trim "1e1000000") = some ⟨false, 1, 1000000⟩ ∧
      readAmount "1e1000000" = .error (.defect (.arithmetic .overflow)) := by
  have read : Decimal.read (Text.trim "1e-2000000") = some ⟨false, 1, -2000000⟩ := by decide +kernel
  have read' : Decimal.read (Text.trim "1e1000000") = some ⟨false, 1, 1000000⟩ := by decide +kernel
  have small : (⟨false, 1, -2000000⟩ : Decimal).value = 10 ^ (-2000000 : ℤ) := by
    simp [value, signed]
  have large : (⟨false, 1, 1000000⟩ : Decimal).value = 10 ^ (1000000 : ℤ) := by
    simp [value, signed]
  have power := ten_zpow_pos (-2000000)
  obtain ⟨amounts, taken, _, _⟩ := readAmount_iff "1e-2000000"
  obtain ⟨_, _, _, defects⟩ := readAmount_iff "1e1000000"
  refine ⟨read, ?_, read', ?_⟩
  · have below : (10 : ℚ) ^ (-2000000 : ℤ) < reach :=
      zpow_lt_zpow_right₀ (by norm_num) (by decide)
    obtain ⟨r, done⟩ := amounts.mpr ⟨_, read, by rwa [small], by rwa [small]⟩
    have rounded := (taken _ r read done).rounded
    have last : bottom ⟨false, 1, -2000000⟩ = -1000026 := by decide +kernel
    have none : wholeNearest (10 ^ (-2000000 : ℤ) / 10 ^ (-1000026 : ℤ)) = 0 := by
      apply rounds_halfEven.eq_of_near
      have tenth : (10 : ℚ) ^ (-2000000 - -1000026 : ℤ) ≤ 10 ^ (-1 : ℤ) :=
        zpow_le_zpow_right₀ (by norm_num) (by decide)
      rw [Int.cast_zero, sub_zero, ← zpow_sub₀ (by norm_num), abs_of_pos (ten_zpow_pos _)]
      exact tenth.trans_lt (by norm_num)
    rw [small, last, none, Int.cast_zero, zero_mul] at rounded
    exact ⟨r, done, rounded⟩
  · have beyond : reach ≤ 10 ^ (1000000 : ℤ) := zpow_le_zpow_right₀ (by norm_num) (by decide)
    exact (defects _).mpr ⟨rfl, _, read', by rwa [large]⟩

end QuoteDesk
