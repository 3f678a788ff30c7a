import QuoteDesk.Moment.Reader
import QuoteDesk.Proofs.Decimal.Written
import QuoteDesk.Proofs.Moment.Age
import QuoteDesk.Proofs.Moment.Calendar

/-
A moment that is written out is read back. Date and time are runs of digits of fixed length;
the part of a second and the distance from universal time may be missing, and what follows
them cannot be taken for a digit.
-/
namespace QuoteDesk.Moment

/-! Runs of digits -/

section Digits

variable (width n : Nat)

theorem isDigit_digits : ∀ c ∈ digits width n, Text.isDigit c = true := by
  intro c member
  rcases List.mem_append.mp member with zero | digit
  · rw [List.eq_of_mem_replicate zero]
    rfl
  · exact Digits.isDigit_write n c digit

theorem length_digits (positive : 0 < width) (below : n < 10 ^ width) :
    (digits width n).length = width := by
  have length := Digits.length_write_le positive below
  rw [digits, List.length_append, List.length_replicate]
  omega

theorem readNat_digits : Numeral.readNat (digits width n) = n := by
  rw [digits, Numeral.readNat_zeros, Digits.readNat_write]

theorem takeDigits_digits (positive : 0 < width) (below : n < 10 ^ width) (rest : List Char) :
    takeDigits width (digits width n ++ rest) = some (n, rest) := by
  have length := length_digits width n positive below
  have run : (digits width n ++ rest).take width = digits width n := List.take_left' length
  have left : (digits width n ++ rest).drop width = rest := List.drop_left' length
  have all := List.all_eq_true.mpr (isDigit_digits width n)
  simp only [takeDigits, run, left, length, all, and_self, ↓reduceIte, readNat_digits]

end Digits

/-! Parts of a moment -/

theorem daysInMonth_le (y m : Nat) : daysInMonth y m ≤ 31 := by
  have each : ∀ leap, ∀ days ∈ monthLengths leap, days ≤ 31 := by decide
  rw [daysInMonth, List.getD_eq_getElem?_getD]
  cases found : (monthLengths (isLeap y))[m - 1]? with
  | none => exact Nat.zero_le 31
  | some days => exact each _ days (List.mem_of_getElem? found)

theorem readDate_digits {y m d : Nat} (date : IsDate y m d) (rest : List Char) :
    readDate (digits 4 y ++ '-' :: (digits 2 m ++ '-' :: (digits 2 d ++ rest))) =
      some ((y, m, d), rest) := by
  have days := daysInMonth_le y m
  obtain ⟨⟨year, year'⟩, ⟨month, month'⟩, ⟨day, day'⟩⟩ := date
  have four := takeDigits_digits 4 y (by decide) (by omega)
  have two := takeDigits_digits 2 m (by decide) (by omega)
  have last := takeDigits_digits 2 d (by decide) (by omega)
  have sound : (1 ≤ y && 1 ≤ m && m ≤ 12 && 1 ≤ d && d ≤ daysInMonth y m) = true := by
    simp [year, month, month', day, day']
  simp only [readDate, four, two, last, takeChar, List.contains_cons, beq_self_eq_true, Bool.true_or,
    ↓reduceIte, Option.bind_eq_bind, Option.bind_some, sound]

/-- What follows a time goes on neither with a digit nor with a point. -/
def EndsTime (cs : List Char) : Prop :=
  Text.Stops (fun c => Text.isDigit c || c == '.' || c == ',') cs

/-- The part of a second, if there is any. -/
def fractionText (micro : Nat) : List Char := if micro = 0 then [] else '.' :: digits 6 micro

theorem readTime_digits {hour minute second micro : Nat} (hours : hour < 24) (minutes : minute < 60)
    (seconds : second < 60) (part : micro < 1000000) {rest : List Char} (stops : EndsTime rest) :
    readTime (digits 2 hour ++ ':' :: (digits 2 minute ++ ':' :: (digits 2 second ++
      (fractionText micro ++ rest)))) =
      some (((hour * 3600 + minute * 60 + second : Nat) : Int) * ticksPerSecond + micro, rest) := by
  have first := takeDigits_digits 2 hour (by decide) (by omega)
  have then' := takeDigits_digits 2 minute (by decide) (by omega)
  have last := takeDigits_digits 2 second (by decide) (by omega)
  have sound : (23 < hour || 59 < minute) = false := by
    simp only [Bool.or_eq_false_iff, decide_eq_false_iff_not]
    omega
  simp only [readTime, first, then', last, takeChar, List.contains_cons, beq_self_eq_true, Bool.true_or,
    ↓reduceIte, Option.bind_eq_bind, Option.bind_some, sound, Bool.false_eq_true,
    Nat.not_lt.mpr (Nat.le_of_lt_succ seconds)]
  by_cases whole : micro = 0
  · subst whole
    rw [fractionText, if_pos rfl, List.nil_append]
    split
    · rename_i more
      cases stops '.' more rfl
    · rename_i more
      cases stops ',' more rfl
    · simp only [ticksPerSecond, Option.some.injEq, Prod.mk.injEq, and_true]
      omega
  · rw [fractionText, if_neg whole, List.cons_append]
    have outside : Text.Stops Text.isDigit rest :=
      Text.stops_mono (fun c digit => by rw [digit]; rfl) stops
    change (if (digits 6 micro ++ rest).takeWhile Text.isDigit = [] then none else some (_, _)) = _
    rw [Text.takeWhile_run (isDigit_digits 6 micro) outside,
      Text.dropWhile_run (isDigit_digits 6 micro) outside]
    have length := length_digits 6 micro (by decide) part
    have some : digits 6 micro ≠ [] := by
      intro empty
      rw [empty] at length
      cases length
    have value : microOf (digits 6 micro) = micro := by
      rw [microOf, List.take_of_length_le length.le, length, readNat_digits]
      exact Nat.mul_one micro
    simp only [some, ↓reduceIte, value, ticksPerSecond, Option.some.injEq, Prod.mk.injEq, and_true]
    omega

/-- The end of a text: how far it is from universal time. -/
def offsetText : Option Int → List Char
  | none => []
  | some 0 => ['Z']
  | some minutes => writeOffset minutes

theorem offsetText_cases (offset : Option Int) :
    offset = none ∧ offsetText offset = [] ∨ offset = some 0 ∧ offsetText offset = ['Z'] ∨
      ∃ minutes, offset = some minutes ∧ offsetText offset = writeOffset minutes := by
  unfold offsetText
  split
  · exact .inl ⟨rfl, rfl⟩
  · exact .inr (.inl ⟨rfl, rfl⟩)
  · exact .inr (.inr ⟨_, rfl, rfl⟩)

theorem endsTime_offsetText (offset : Option Int) : EndsTime (offsetText offset) := by
  rcases offsetText_cases offset with ⟨_, same⟩ | ⟨_, same⟩ | ⟨minutes, _, same⟩
  · rw [same]
    exact Text.stops_nil _
  · rw [same]
    exact Text.stops_cons (by decide) _
  · rw [same, writeOffset]
    apply Text.stops_cons
    split <;> decide

/-- A signed distance, as hours and minutes. -/
theorem readOffset_signed {sign : Char} (factor : Int) {hours minutes : Nat}
    (signed : sign = '+' ∧ factor = 1 ∨ sign = '-' ∧ factor = -1) (few : hours < 24)
    (few' : minutes < 60) :
    readOffset (sign :: (digits 2 hours ++ ':' :: digits 2 minutes)) =
      some (some (factor * (hours * 60 + minutes : Nat))) := by
  have first := takeDigits_digits 2 hours (by decide) (by omega)
  have last := takeDigits_digits 2 minutes (by decide) (by omega) []
  rw [List.append_nil] at last
  unfold readOffset
  split
  · rename_i absurd
    cases absurd
  · rename_i absurd
    rcases signed with ⟨rfl, _⟩ | ⟨rfl, _⟩ <;> cases absurd
  · rename_i absurd
    rcases signed with ⟨rfl, _⟩ | ⟨rfl, _⟩ <;> cases absurd
  · rename_i same
    cases same
    rcases signed with ⟨rfl, rfl⟩ | ⟨rfl, rfl⟩
    · simp [first, last, few, few']
    · simp [first, last, few, few']

theorem readOffset_offsetText {offset : Option Int}
    (distance : ∀ minutes, offset = some minutes → minutes.natAbs < 24 * 60) :
    readOffset (offsetText offset) = some offset := by
  rcases offsetText_cases offset with ⟨rfl, same⟩ | ⟨rfl, same⟩ | ⟨minutes, rfl, same⟩
  · rw [same]
    rfl
  · rw [same]
    rfl
  · have small := distance minutes rfl
    rw [same, writeOffset, List.cons_append]
    split
    · rename_i past
      rw [readOffset_signed (-1) (.inr ⟨rfl, rfl⟩) (by omega) (by omega)]
      simp only [Option.some.injEq]
      omega
    · rename_i ahead
      rw [readOffset_signed 1 (.inl ⟨rfl, rfl⟩) (by omega) (by omega)]
      simp only [Option.some.injEq]
      omega

/-- The day of a moment of the calendar, and the time since its midnight. -/
theorem day_of_proper {t : Moment} (calendar : inCalendar t.ticks = true) :
    (t.ticks / ticksPerDay).toNat < daysBeforeYear 10000 ∧
      t.ticks = (t.ticks / ticksPerDay).toNat * ticksPerDay +
        ((t.ticks % ticksPerDay / ticksPerSecond).toNat * ticksPerSecond +
          (t.ticks % ticksPerSecond).toNat) ∧
      (t.ticks % ticksPerDay / ticksPerSecond).toNat < 86400 ∧
      (t.ticks % ticksPerSecond).toNat < 1000000 := by
  simp only [inCalendar, Bool.and_eq_true, decide_eq_true_eq] at calendar
  simp only [endOfCalendar, ticksPerDay, ticksPerSecond] at calendar ⊢
  omega

theorem toList_toText {t : Moment} {y m d s : Nat}
    (date : dateOfDay (t.ticks / ticksPerDay).toNat = (y, m, d))
    (second : (t.ticks % ticksPerDay / ticksPerSecond).toNat = s) :
    t.toText.toList = digits 4 y ++ '-' :: (digits 2 m ++ '-' :: (digits 2 d ++
      'T' :: (digits 2 (s / 3600) ++ ':' :: (digits 2 (s / 60 % 60) ++ ':' :: (digits 2 (s % 60) ++
        (fractionText (t.ticks % ticksPerSecond).toNat ++ offsetText t.offset)))))) := by
  simp only [toText, String.toList_ofList, writeSeconds, date, second, writeFraction,
    List.append_assoc, List.cons_append]
  rfl

/-- A moment of the calendar that is written out is read back. -/
theorem read_toText {t : Moment} (proper : t.Proper) : read t.toText = some t := by
  obtain ⟨days, ticks, seconds, part⟩ := day_of_proper proper.calendar
  obtain ⟨y, m, d, date, real, day⟩ := dateOfDay_spec days
  have text := toList_toText date rfl
  generalize (t.ticks % ticksPerDay / ticksPerSecond).toNat = s at ticks seconds text
  have time := readTime_digits (by omega : s / 3600 < 24) (by omega : s / 60 % 60 < 60)
    (by omega : s % 60 < 60) part (endsTime_offsetText t.offset)
  have sum : s / 3600 * 3600 + s / 60 % 60 * 60 + s % 60 = s := by omega
  rw [sum] at time
  -- each part stops where the next one begins, with a character that is no digit
  have separator : ∀ rest, takeChar ['T', 't', ' ', '_'] ('T' :: rest) = some rest := fun _ => rfl
  have found : readDateTime t.toText.toList = some t := by
    simp only [readDateTime, text, readDate_digits real, Option.bind_eq_bind, Option.bind_some,
      separator, time, readOffset_offsetText proper.distance, day, ← ticks]
  rw [read, found]
  rfl

end QuoteDesk.Moment
