import Mathlib.Data.List.TakeWhile
import QuoteDesk.Text.Blank
import QuoteDesk.Text.Letter

/-
Runs of characters of one class. A text that starts with a run of a class and goes on
with a character outside it can be cut there in one way only. The classes of blanks,
digits, letters and the signs of arithmetic have no character in common.
-/
namespace QuoteDesk.Text

/-- The text is at its end or goes on with a character outside the class. -/
def Stops (p : Char → Bool) (cs : List Char) : Prop := ∀ c more, cs = c :: more → p c = false

theorem stops_nil (p : Char → Bool) : Stops p [] := by
  intro c more absurd
  cases absurd

theorem stops_cons {p : Char → Bool} {c : Char} (outside : p c = false) (more : List Char) :
    Stops p (c :: more) := by
  intro d rest same
  cases same
  exact outside

theorem stops_append {p : Char → Bool} {xs ys : List Char} (outside : ∀ c ∈ xs, p c = false)
    (stops : Stops p ys) : Stops p (xs ++ ys) := by
  cases xs with
  | nil => exact stops
  | cons x xs => exact stops_cons (outside x (by simp)) _

theorem stops_mono {p q : Char → Bool} (wider : ∀ c, q c = true → p c = true) {cs : List Char}
    (stops : Stops p cs) : Stops q cs := by
  intro c more same
  have outside := stops c more same
  cases inside : q c with
  | false => rfl
  | true => rw [wider c inside] at outside; cases outside

theorem stops_dropWhile (p : Char → Bool) (cs : List Char) : Stops p (cs.dropWhile p) := by
  induction cs with
  | nil => exact stops_nil p
  | cons c cs ih =>
    rw [List.dropWhile_cons]
    split
    · exact ih
    · rename_i outside
      exact stops_cons (by simpa using outside) cs

theorem takeWhile_of_stops {p : Char → Bool} {cs : List Char} (stops : Stops p cs) :
    cs.takeWhile p = [] := by
  cases cs with
  | nil => rfl
  | cons c cs => simp [stops c cs rfl]

theorem dropWhile_of_stops {p : Char → Bool} {cs : List Char} (stops : Stops p cs) :
    cs.dropWhile p = cs := by
  cases cs with
  | nil => rfl
  | cons c cs => simp [stops c cs rfl]

theorem takeWhile_run {p : Char → Bool} {xs ys : List Char} (run : ∀ c ∈ xs, p c = true)
    (stops : Stops p ys) : (xs ++ ys).takeWhile p = xs := by
  rw [List.takeWhile_append_of_pos run, takeWhile_of_stops stops, List.append_nil]

theorem dropWhile_run {p : Char → Bool} {xs ys : List Char} (run : ∀ c ∈ xs, p c = true)
    (stops : Stops p ys) : (xs ++ ys).dropWhile p = ys := by
  rw [List.dropWhile_append_of_pos run, dropWhile_of_stops stops]

theorem run_unique {p : Char → Bool} {xs ys xs' ys' : List Char}
    (run : ∀ c ∈ xs, p c = true) (run' : ∀ c ∈ xs', p c = true) (stops : Stops p ys)
    (stops' : Stops p ys') (same : xs ++ ys = xs' ++ ys') : xs = xs' ∧ ys = ys' := by
  constructor
  · rw [← takeWhile_run run stops, same, takeWhile_run run' stops']
  · rw [← dropWhile_run run stops, same, dropWhile_run run' stops']

/-! Classes of characters, by their numbers -/

theorem isDigit_iff (c : Char) : isDigit c = true ↔ 48 ≤ c.toNat ∧ c.toNat ≤ 57 := by
  simp only [isDigit, Bool.and_eq_true, decide_eq_true_eq, Char.le_def, UInt32.le_iff_toNat_le]
  exact Iff.rfl

theorem isLetter_iff (c : Char) :
    isLetter c = true ↔ (97 ≤ c.toNat ∧ c.toNat ≤ 122) ∨ (65 ≤ c.toNat ∧ c.toNat ≤ 90) := by
  simp only [isLetter, Bool.or_eq_true, Bool.and_eq_true, decide_eq_true_eq, Char.le_def,
    UInt32.le_iff_toNat_le]
  exact Iff.rfl

theorem isAlphanumeric_iff (c : Char) :
    isAlphanumeric c = true ↔ isDigit c = true ∨ isLetter c = true := by
  simp [isAlphanumeric]

theorem isBlank_of_visible {c : Char} (low : 33 ≤ c.toNat) (high : c.toNat ≤ 126) :
    isBlank c = false := by
  cases blank : isBlank c with
  | false => rfl
  | true =>
    simp only [isBlank, Bool.or_eq_true, Bool.and_eq_true, decide_eq_true_eq, beq_iff_eq] at blank
    omega

theorem isBlank_of_isAlphanumeric {c : Char} (inside : isAlphanumeric c = true) :
    isBlank c = false := by
  rw [isAlphanumeric_iff, isDigit_iff, isLetter_iff] at inside
  exact isBlank_of_visible (by omega) (by omega)

theorem isAlphanumeric_of_isDigit {c : Char} (digit : isDigit c = true) :
    isAlphanumeric c = true := by simp [isAlphanumeric, digit]

theorem isDigit_of_isLetter {c : Char} (letter : isLetter c = true) : isDigit c = false := by
  cases digit : isDigit c with
  | false => rfl
  | true =>
    rw [isLetter_iff] at letter
    rw [isDigit_iff] at digit
    omega

theorem isLetter_of_isDigit {c : Char} (digit : isDigit c = true) : isLetter c = false := by
  cases letter : isLetter c with
  | false => rfl
  | true => rw [isDigit_of_isLetter letter] at digit; cases digit

theorem isAlphanumeric_of_isBlank {c : Char} (blank : isBlank c = true) :
    isAlphanumeric c = false := by
  cases inside : isAlphanumeric c with
  | false => rfl
  | true => rw [isBlank_of_isAlphanumeric inside] at blank; cases blank

theorem isLetter_of_toLower {c : Char} (letter : isLetter c.toLower = true) :
    isLetter c = true := by
  unfold Char.toLower at letter
  split at letter
  · rename_i capital
    rw [isLetter_iff]
    have bounds : 65 ≤ c.toNat ∧ c.toNat ≤ 90 := by
      simpa [UInt32.le_iff_toNat_le] using capital
    exact .inr bounds
  · exact letter

end QuoteDesk.Text
