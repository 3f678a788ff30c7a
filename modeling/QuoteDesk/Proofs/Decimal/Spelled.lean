import QuoteDesk.Proofs.Decimal.Written

/-
The texts that denote a finite number: in plain digits a sign, digits with a point among them, and
a power of ten, of which all but one digit may be missing. No other text is read as a finite number,
and of these only those out of the bounds of decimal numbers are refused.
-/
namespace QuoteDesk

namespace Numeral

inductive SignText : List Char → Bool → Prop where
  | none : SignText [] false
  | plus : SignText ['+'] false
  | minus : SignText ['-'] true

/-- The point with the digits behind it, if there is one. -/
inductive PointText : List Char → List Char → Prop where
  | none : PointText [] []
  | point {fraction : List Char} (digits : ∀ c ∈ fraction, Text.isDigit c = true) :
    PointText ('.' :: fraction) fraction

/-- The power of ten, if one is written. -/
inductive PowerText : List Char → Int → Prop where
  | none : PowerText [] 0
  | power {mark : Char} {sign ds : List Char} {negative : Bool} (marked : mark = 'e' ∨ mark = 'E')
    (signed : SignText sign negative) (filled : ds ≠ []) (digits : ∀ c ∈ ds, Text.isDigit c = true) :
    PowerText (mark :: (sign ++ ds)) (if negative then -(readNat ds : Int) else readNat ds)

/-- The digits and the power of ten of a number without its sign. -/
inductive BodyText (negative : Bool) : List Char → Decimal → Prop where
  | body {whole point fraction power : List Char} {e : Int}
    (digits : ∀ c ∈ whole, Text.isDigit c = true) (pointed : PointText point fraction)
    (filled : ¬ (whole = [] ∧ fraction = [])) (powered : PowerText power e)
    (inside : (⟨negative, readNat (whole ++ fraction), e - fraction.length⟩ : Decimal).admissible) :
    BodyText negative (whole ++ (point ++ power))
      ⟨negative, readNat (whole ++ fraction), e - fraction.length⟩

/-- A finite number in plain digits. -/
inductive Spells : List Char → Decimal → Prop where
  | number {sign body : List Char} {negative : Bool} {d : Decimal} (signed : SignText sign negative)
    (rest : BodyText negative body d) : Spells (sign ++ body) d

/-! Parts -/

theorem ne_sign_of_isDigit {c : Char} (digit : Text.isDigit c = true) : c ≠ '-' ∧ c ≠ '+' := by
  constructor
  · intro same
    subst same
    cases digit
  · intro same
    subst same
    cases digit

theorem PowerText.stops {power : List Char} {e : Int} (powered : PowerText power e) :
    Text.Stops Text.isDigit power ∧ ∀ more, power ≠ '.' :: more := by
  cases powered with
  | none => exact ⟨Text.stops_nil _, fun _ absurd => (by cases absurd)⟩
  | power marked signed filled digits =>
    rcases marked with rfl | rfl
    · exact ⟨Text.stops_cons (by decide) _, fun _ absurd => (by cases absurd)⟩
    · exact ⟨Text.stops_cons (by decide) _, fun _ absurd => (by cases absurd)⟩

theorem PointText.stops {point fraction power : List Char} (pointed : PointText point fraction)
    (stops : Text.Stops Text.isDigit power) : Text.Stops Text.isDigit (point ++ power) := by
  cases pointed with
  | none => exact stops
  | point => exact Text.stops_cons (by decide) _

/-- Digits or the point come first, so that the sign can be told from them. -/
theorem BodyText.unsigned {negative : Bool} {body : List Char} {d : Decimal}
    (spelled : BodyText negative body d) : ∀ c more, body = c :: more → c ≠ '-' ∧ c ≠ '+' := by
  cases spelled with
  | @body whole point fraction power e digits pointed filled powered inside =>
    intro c more same
    cases whole with
    | cons d ds =>
      cases same
      exact ne_sign_of_isDigit (digits _ (by simp))
    | nil =>
      cases pointed with
      | none => exact absurd ⟨rfl, rfl⟩ filled
      | point decimals =>
        cases same
        decide

end Numeral

end QuoteDesk
