import QuoteDesk.Moment

/-
Days and dates. The guess at the year of a day is off by one at most, and a day of the year
lies in just one month; so the date of a day is a date, and its day number is the day.
-/
namespace QuoteDesk.Moment

-- The zero that the sums of the calendar start from.
attribute [local instance (high)] Zero.ofOfNat0

theorem isLeap_iff (y : Nat) : isLeap y = true ↔ 4 ∣ y ∧ (¬ 100 ∣ y ∨ 400 ∣ y) := by
  simp only [isLeap, Bool.and_eq_true, Bool.or_eq_true, beq_iff_eq, bne_iff_ne, ne_eq,
    Nat.dvd_iff_mod_eq_zero]

theorem sum_monthLengths (leap : Bool) : (monthLengths leap).sum = if leap then 366 else 365 := by
  cases leap <;> rfl

theorem daysBeforeYear_succ {y : Nat} (positive : 1 ≤ y) :
    daysBeforeYear (y + 1) = daysBeforeYear y + (monthLengths (isLeap y)).sum := by
  obtain ⟨k, rfl⟩ := Nat.exists_eq_add_of_le' positive
  have fours : (k + 1) / 4 = k / 4 + if 4 ∣ k + 1 then 1 else 0 := Nat.succ_div
  have hundreds : (k + 1) / 100 = k / 100 + if 100 ∣ k + 1 then 1 else 0 := Nat.succ_div
  have wholes : (k + 1) / 400 = k / 400 + if 400 ∣ k + 1 then 1 else 0 := Nat.succ_div
  have order : k / 100 ≤ k / 4 := Nat.div_le_div_left (by decide) (by decide)
  simp only [daysBeforeYear, Nat.add_sub_cancel, fours, hundreds, wholes, sum_monthLengths, isLeap_iff]
  -- every fourth year is leap, but of whole centuries every fourth one only
  by_cases whole : 400 ∣ k + 1
  · have hundred : 100 ∣ k + 1 := Nat.dvd_trans (by decide) whole
    have four : 4 ∣ k + 1 := Nat.dvd_trans (by decide) whole
    simp only [whole, hundred, four, or_true, and_self, ↓reduceIte]
    omega
  · by_cases hundred : 100 ∣ k + 1
    · have four : 4 ∣ k + 1 := Nat.dvd_trans (by decide) hundred
      simp only [whole, hundred, four, not_true_eq_false, or_self, and_false, ↓reduceIte]
      omega
    · by_cases four : 4 ∣ k + 1
      · simp only [whole, hundred, four, not_false_eq_true, or_false, and_self, ↓reduceIte]
        omega
      · simp only [whole, hundred, four, false_and, ↓reduceIte]
        omega

theorem yearOfDay_spec (n : Nat) :
    1 ≤ yearOfDay n ∧ daysBeforeYear (yearOfDay n) ≤ n ∧ n < daysBeforeYear (yearOfDay n + 1) := by
  unfold yearOfDay
  dsimp only
  split
  · rename_i early
    simp only [daysBeforeYear] at early ⊢
    omega
  · rename_i notEarly
    split
    · rename_i late
      simp only [daysBeforeYear] at notEarly late ⊢
      omega
    · rename_i notLate
      simp only [daysBeforeYear] at notEarly notLate ⊢
      omega

theorem year_lt_of_days {y n : Nat} (low : daysBeforeYear y ≤ n) (high : n < daysBeforeYear 10000) :
    y < 10000 := by
  simp only [daysBeforeYear] at low high
  omega

/-- Months before the one of the day, and what is left of the day. -/
theorem monthAndDay_spec {lens : List Nat} {n : Nat} (inside : n < lens.sum) (m : Nat) :
    ∃ i < lens.length, monthAndDay lens m n = (m + i, n - (lens.take i).sum + 1) ∧
      (lens.take i).sum ≤ n ∧ n < (lens.take i).sum + lens.getD i 0 := by
  induction lens generalizing m n with
  | nil => cases inside
  | cons len more ih =>
    rw [List.sum_cons] at inside
    rw [monthAndDay]
    split
    · rename_i here
      exact ⟨0, by simp, rfl, by simp, by simpa using here⟩
    · rename_i beyond
      obtain ⟨i, bound, same, low, high⟩ := ih (n := n - len) (by omega) (m + 1)
      refine ⟨i + 1, by simpa using bound, ?_, ?_, ?_⟩
      · rw [same, List.take_succ_cons, List.sum_cons, Prod.mk.injEq]
        omega
      · rw [List.take_succ_cons, List.sum_cons]
        omega
      · rw [List.take_succ_cons, List.sum_cons, List.getD_cons_succ]
        omega

structure IsDate (y m d : Nat) : Prop where
  year : 1 ≤ y ∧ y < 10000
  month : 1 ≤ m ∧ m ≤ 12
  day : 1 ≤ d ∧ d ≤ daysInMonth y m

theorem dateOfDay_spec {n : Nat} (inside : n < daysBeforeYear 10000) :
    ∃ y m d, dateOfDay n = (y, m, d) ∧ IsDate y m d ∧ dayNumber y m d = n := by
  obtain ⟨year, low, high⟩ := yearOfDay_spec n
  rw [daysBeforeYear_succ year] at high
  have days : n - daysBeforeYear (yearOfDay n) < (monthLengths (isLeap (yearOfDay n))).sum := by omega
  obtain ⟨i, bound, same, before, last⟩ := monthAndDay_spec days 1
  have twelve : (monthLengths (isLeap (yearOfDay n))).length = 12 := rfl
  have date : dateOfDay n = (yearOfDay n, 1 + i, n - daysBeforeYear (yearOfDay n) -
      ((monthLengths (isLeap (yearOfDay n))).take i).sum + 1) := by
    rw [dateOfDay, same]
  refine ⟨_, _, _, date, ⟨⟨year, year_lt_of_days low inside⟩, by omega, ?_⟩, ?_⟩
  · rw [daysInMonth, Nat.add_sub_cancel_left]
    omega
  · rw [dayNumber, daysBeforeMonth, Nat.add_sub_cancel_left]
    omega

end QuoteDesk.Moment
