import QuoteDesk.Expression.Reader
import QuoteDesk.Proofs.Decimal.Digits
import QuoteDesk.Proofs.Expression.Grammar

/-
The decimal number that a literal denotes: its digits as one coefficient, the length of
the fraction as the exponent. Reading refuses it only when it lies out of the bounds of
decimal numbers, for which a literal needs more than 10 ^ 18 characters.
-/
namespace QuoteDesk

theorem Text.trimChars_of_visible {cs : List Char} (visible : ∀ c ∈ cs, isBlank c = false) :
    trimChars cs = cs := by
  have untouched : ∀ ds : List Char, (∀ c ∈ ds, isBlank c = false) → ds.dropWhile isBlank = ds := by
    intro ds visible
    apply dropWhile_of_stops
    have stops := stops_append visible (stops_nil isBlank)
    simpa using stops
  rw [trimChars, untouched cs visible, untouched cs.reverse (by simpa using visible),
    List.reverse_reverse]

namespace Numeral

/-- Reading a text to its plain form takes one character at a time. -/
def plainChar (c : Char) : Option Char :=
  match Text.digitValue? c with
  | some d => some (Digits.ofNat d)
  | none => if c != '\x00' && c.toNat < 128 then some c else none

theorem plainChar_digit {c : Char} (digit : Text.isDigit c = true) : plainChar c = some c := by
  have bounds := (Text.isDigit_iff c).mp digit
  have value : Text.digitValue? c = some (c.toNat - 48) := by
    have first : (48 ≤ c.toNat && c.toNat < 48 + 10) = true := by
      simp only [Bool.and_eq_true, decide_eq_true_eq]
      omega
    simp [Text.digitValue?, Text.digitZeros, first]
  have back : 48 + (c.toNat - 48) % 10 = c.toNat := by omega
  simp only [plainChar, value, Digits.ofNat]
  rw [show '0'.toNat = 48 from rfl, back, Char.ofNat_toNat]

theorem plain_of_digit {c : Char} (digit : Text.isDigit c = true) :
    Text.isBlank c = false ∧ c ≠ '_' ∧ plainChar c = some c := by
  refine ⟨Text.isBlank_of_isAlphanumeric (Text.isAlphanumeric_of_isDigit digit), ?_,
    plainChar_digit digit⟩
  rintro rfl
  cases digit

/-- A text of characters that are plain already, none of them blank or an underscore. -/
theorem plainForm_eq_self {cs : List Char}
    (plain : ∀ c ∈ cs, Text.isBlank c = false ∧ c ≠ '_' ∧ plainChar c = some c) :
    plainForm cs = some cs := by
  have kept : cs.filter (· != '_') = cs :=
    List.filter_eq_self.mpr fun c member => by simpa using (plain c member).2.1
  have mapped : cs.mapM plainChar = some cs := by
    clear kept
    induction cs with
    | nil => rfl
    | cons c cs ih =>
      have rest := ih fun d member => plain d (List.mem_cons_of_mem c member)
      simp [List.mapM_cons, (plain c (by simp)).2.2, rest]
  unfold plainForm
  rw [Text.trimChars_of_visible fun c member => (plain c member).1, kept]
  exact mapped

theorem finite?_readSpecial (negative : Bool) (cs : List Char) :
    (readSpecial negative cs).bind finite? = none := by
  unfold readSpecial
  dsimp only
  split
  · rfl
  · split
    · split <;> rfl
    · rfl

end Numeral

/-- Only the digits after the sign of a plain text can make it a number. -/
theorem Decimal.read_of_plain {cs body : List Char} {negative : Bool}
    (plain : Numeral.plainForm cs = some cs) (sign : Numeral.splitSign cs = (negative, body)) :
    Decimal.read (String.ofList cs) = Numeral.readFinite negative body := by
  have chars : Numeral.readChars cs =
      ((Numeral.readFinite negative body).map Numeral.finite <|> Numeral.readSpecial negative body) := by
    unfold Numeral.readChars
    rw [plain]
    simp only [Option.bind_eq_bind, Option.bind_some, sign]
  rw [Decimal.read, Numeral.read, String.toList_ofList, chars]
  cases Numeral.readFinite negative body with
  | some d => rfl
  | none => exact Numeral.finite?_readSpecial negative body

namespace Literal

theorem plain_text (l : Literal) :
    ∀ c ∈ l.text, Text.isBlank c = false ∧ c ≠ '_' ∧ Numeral.plainChar c = some c := by
  intro c member
  simp only [text, body, point, List.mem_append, Option.mem_toList] at member
  rcases member with sign | whole | fraction
  · have known := l.signed c sign
    simp only [Token.isSign, Bool.or_eq_true, beq_iff_eq] at known
    rcases known with rfl | rfl <;> decide
  · exact Numeral.plain_of_digit (l.wholeDigits c whole)
  · split at fraction
    · cases fraction
    · rcases List.mem_cons.mp fraction with rfl | member
      · decide
      · exact Numeral.plain_of_digit (l.fractionDigits c member)

theorem splitSign_text (l : Literal) :
    Numeral.splitSign l.text = (l.value.negative, l.body) := by
  unfold text value
  cases sign : l.sign with
  | some c =>
    have known := l.signed c sign
    simp only [Token.isSign, Bool.or_eq_true, beq_iff_eq] at known
    rcases known with rfl | rfl <;> rfl
  | none =>
    have stops := l.stops_sign []
    rw [List.append_nil] at stops
    simp only [Option.toList_none, List.nil_append, reduceCtorEq, decide_false]
    unfold Numeral.splitSign
    split
    · rename_i cs body
      cases stops '-' cs body
    · rename_i cs body
      cases stops '+' cs body
    · rfl

theorem readFinite_body (l : Literal) :
    Numeral.readFinite l.value.negative l.body =
      if l.value.admissible then some l.value else none := by
  have stops : Text.Stops Text.isDigit l.point := by
    unfold point
    split
    · exact Text.stops_nil _
    · exact Text.stops_cons (by decide) _
  unfold Numeral.readFinite body
  rw [Text.takeWhile_run l.wholeDigits stops, Text.dropWhile_run l.wholeDigits stops]
  by_cases empty : l.fraction = []
  · have whole : l.whole ≠ [] := by simpa [empty] using l.digits
    simp [point, empty, whole, Numeral.readExponent, value]
  · have decimals := Text.takeWhile_run l.fractionDigits (Text.stops_nil Text.isDigit)
    have rest := Text.dropWhile_run l.fractionDigits (Text.stops_nil Text.isDigit)
    rw [List.append_nil] at decimals rest
    simp [point, empty, decimals, rest, Numeral.readExponent, value]
    rfl

/-- Reading a literal gives the number as it is written, if there is one. -/
theorem read_text (l : Literal) :
    Decimal.read (String.ofList l.text) = if l.value.admissible then some l.value else none := by
  rw [Decimal.read_of_plain (Numeral.plainForm_eq_self l.plain_text) l.splitSign_text,
    readFinite_body]

theorem literalValue_text (l : Literal) :
    Expression.literalValue l.text = if l.value.admissible then .ok l.value
      else .error (.numberLiteral (String.ofList l.text)) := by
  unfold Expression.literalValue
  rw [read_text]
  by_cases small : l.value.admissible <;> simp [small]

theorem digitCount_value (l : Literal) :
    l.value.digitCount ≤ l.whole.length + l.fraction.length := by
  have digits : ∀ d ∈ Numeral.digitsOf (l.whole ++ l.fraction), d < 10 := by
    intro d member
    obtain ⟨c, inside, rfl⟩ := List.mem_map.mp member
    have digit : Text.isDigit c = true := by
      rcases List.mem_append.mp inside with whole | fraction
      · exact l.wholeDigits c whole
      · exact l.fractionDigits c fraction
    have bounds := (Text.isDigit_iff c).mp digit
    rw [show '0'.toNat = 48 from rfl]
    omega
  have below := Digits.read_lt_pow _ digits
  rw [Numeral.digitsOf, List.length_map, List.length_append] at below
  refine Digits.count_le_of_lt_pow ?_ below
  rcases l.digits with whole | fraction
  · have positive := List.length_pos_iff.mpr whole
    omega
  · have positive := List.length_pos_iff.mpr fraction
    omega

theorem length_le_text (l : Literal) : l.whole.length + l.fraction.length ≤ l.text.length := by
  have point : l.fraction.length ≤ l.point.length := by
    unfold point
    split
    · rename_i empty
      simp [empty]
    · simp
  simp only [text, body, List.length_append]
  omega

/-- No literal that a machine can hold lies out of the bounds of decimal numbers. -/
theorem admissible_value (l : Literal) (short : l.text.length ≤ 10 ^ 18) :
    l.value.admissible = true := by
  have digits := l.digitCount_value
  have length := l.length_le_text
  have exponent : l.value.exponent = -l.fraction.length := rfl
  simp only [Decimal.admissible, Decimal.adjusted, Decimal.lowestExponent, Decimal.farthestPlace,
    exponent, Bool.and_eq_true, decide_eq_true_eq]
  refine ⟨by omega, ?_⟩
  split
  · simp only [decide_eq_true_eq]
    omega
  · simp only [decide_eq_true_eq]
    omega

end Literal
end QuoteDesk
