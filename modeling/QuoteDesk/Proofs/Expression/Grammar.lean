import QuoteDesk.Expression.Token
import QuoteDesk.Expression.Basic
import QuoteDesk.Symbol
import QuoteDesk.Proofs.Text.Run

/-
The grammar of expressions, as trees that keep every character of the text. A phrase is
a sum or product of amounts with gaps of blanks between its parts; it is numeric if all
amounts are bare numbers, and a portfolio if all carry a symbol and only plus and minus
join them, and then it may name a target. A text has at most one such phrase.
-/
namespace QuoteDesk

/-! Trees -/

@[ext]
structure Gap where
  chars : List Char
  blank : ∀ c ∈ chars, Text.isBlank c = true

/-- An optional sign, digits, a point and digits. Without a point there is no fraction,
and one of the two runs of digits may be missing. -/
@[ext]
structure Literal where
  sign : Option Char
  whole : List Char
  fraction : List Char
  signed : ∀ c ∈ sign, Token.isSign c = true
  wholeDigits : ∀ c ∈ whole, Text.isDigit c = true
  fractionDigits : ∀ c ∈ fraction, Text.isDigit c = true
  digits : whole ≠ [] ∨ fraction ≠ []

/-- The symbol of an amount: letters if they touch the number, else letters and digits. -/
@[ext]
structure Suffix where
  gap : Gap
  word : List Char
  formed : (gap.chars = [] ∧ ∀ c ∈ word, Text.isLetter c = true) ∨
    (gap.chars ≠ [] ∧ ∀ c ∈ word, Text.isAlphanumeric c = true)
  atLeast : 2 ≤ word.length
  atMost : word.length ≤ 10
  free : Token.isTo word = false

@[ext]
structure Amount where
  literal : Literal
  suffix : Option Suffix

@[ext]
structure Link where
  before : Gap
  operator : Char
  after : Gap
  amount : Amount
  known : Token.isOperatorChar operator = true

@[ext]
structure Target where
  before : Gap
  keyword : List Char
  between : Gap
  code : List Char
  apart : before.chars ≠ []
  spelled : Token.isTo keyword = true
  parted : between.chars ≠ []
  three : code.length = 3
  letters : ∀ c ∈ code, Text.isLetter c = true

@[ext]
structure Phrase where
  lead : Gap
  head : Amount
  links : List Link
  target : Option Target
  trail : Gap

/-! Texts -/

namespace Literal

def point (l : Literal) : List Char := if l.fraction = [] then [] else '.' :: l.fraction

def body (l : Literal) : List Char := l.whole ++ l.point

def text (l : Literal) : List Char := l.sign.toList ++ l.body

/-- The number as it is written: no digit is dropped. -/
def value (l : Literal) : Decimal :=
  ⟨l.sign = some '-', Numeral.readNat (l.whole ++ l.fraction), -l.fraction.length⟩

end Literal

def Suffix.text (s : Suffix) : List Char := s.gap.chars ++ s.word

def Suffix.symbol (s : Suffix) : String := String.ofList (s.word.map Char.toUpper)

def Amount.text (a : Amount) : List Char := a.literal.text ++ a.suffix.elim [] Suffix.text

def Amount.term (a : Amount) : Term :=
  match a.suffix with
  | none => .number a.literal.value
  | some s => .asset a.literal.value s.symbol

def Link.text (l : Link) : List Char :=
  l.before.chars ++ l.operator :: (l.after.chars ++ l.amount.text)

def Target.text (t : Target) : List Char :=
  t.before.chars ++ (t.keyword ++ (t.between.chars ++ t.code))

def Target.fiat (t : Target) : String := String.ofList (t.code.map Char.toUpper)

namespace Phrase

def amounts (p : Phrase) : List Amount := p.head :: p.links.map (·.amount)

def operators (p : Phrase) : List Char := p.links.map (·.operator)

def tail (p : Phrase) : List Char := p.target.elim [] Target.text ++ p.trail.chars

def text (p : Phrase) : List Char :=
  p.lead.chars ++ (p.head.text ++ (p.links.flatMap Link.text ++ p.tail))

structure IsNumeric (p : Phrase) : Prop where
  bare : ∀ a ∈ p.amounts, a.suffix = none
  untargeted : p.target = none

structure IsPortfolio (p : Phrase) : Prop where
  held : ∀ a ∈ p.amounts, a.suffix ≠ none
  added : ∀ c ∈ p.operators, Token.isSign c = true

/-- A text of the grammar, by its tree. -/
def Derives (p : Phrase) (text : String) : Prop :=
  (p.IsNumeric ∨ p.IsPortfolio) ∧ p.text = text.toList

/-- The expression that the tree spells out. -/
def expression (p : Phrase) (defaultTarget : String) : Expression :=
  { terms := p.amounts.map Amount.term
    operators := p.operators.map fun c => .ofText (String.singleton c)
    target := p.target.elim defaultTarget Target.fiat
    explicit := p.target.isSome }

/-- Every number of the phrase is one that decimal numbers can hold. -/
def Representable (p : Phrase) : Prop := ∀ a ∈ p.amounts, a.literal.value.admissible = true

end Phrase

/-! What may stand after an amount -/

namespace Token

theorem isOperatorChar_iff (c : Char) :
    isOperatorChar c = true ↔ c = '+' ∨ c = '-' ∨ c = '*' ∨ c = '/' := by
  simp [isOperatorChar, or_assoc]

theorem isBlank_of_isOperatorChar {c : Char} (operator : isOperatorChar c = true) :
    Text.isBlank c = false := by
  rcases (isOperatorChar_iff c).mp operator with rfl | rfl | rfl | rfl <;> decide

theorem isAlphanumeric_of_isOperatorChar {c : Char} (operator : isOperatorChar c = true) :
    Text.isAlphanumeric c = false := by
  rcases (isOperatorChar_iff c).mp operator with rfl | rfl | rfl | rfl <;> decide

theorem ne_point_of_isOperatorChar {c : Char} (operator : isOperatorChar c = true) : c ≠ '.' := by
  rcases (isOperatorChar_iff c).mp operator with rfl | rfl | rfl | rfl <;> decide

theorem isOperatorChar_of_isAlphanumeric {c : Char} (inside : Text.isAlphanumeric c = true) :
    isOperatorChar c = false := by
  cases operator : isOperatorChar c with
  | false => rfl
  | true => rw [isAlphanumeric_of_isOperatorChar operator] at inside; cases inside

theorem isLetter_of_isTo {word : List Char} (spelled : isTo word = true) :
    ∀ c ∈ word, Text.isLetter c = true := by
  intro c member
  have lowered : c.toLower ∈ ['t', 'o'] := by
    rw [← beq_iff_eq.mp spelled]
    exact List.mem_map_of_mem member
  refine Text.isLetter_of_toLower ?_
  simp only [List.mem_cons, List.not_mem_nil, or_false] at lowered
  rcases lowered with low | low <;> rw [low] <;> decide

theorem isOperatorChar_of_isSign {c : Char} (sign : isSign c = true) :
    isOperatorChar c = true := by
  simp only [isSign, Bool.or_eq_true, beq_iff_eq] at sign
  rcases sign with rfl | rfl <;> decide

end Token

open Text (Stops)

/-- No digit or point follows: a number does not go on. -/
structure EndsNumber (r : List Char) : Prop where
  digits : Stops Text.isDigit r
  point : Stops (· == '.') r

/-- No letter, digit or point follows: neither a number nor a word goes on. -/
structure EndsAmount (r : List Char) : Prop where
  word : Stops Text.isAlphanumeric r
  point : Stops (· == '.') r

theorem EndsAmount.number {r : List Char} (ends : EndsAmount r) : EndsNumber r :=
  ⟨Text.stops_mono (fun _ => Text.isAlphanumeric_of_isDigit) ends.word, ends.point⟩

theorem endsAmount_nil : EndsAmount [] := ⟨Text.stops_nil _, Text.stops_nil _⟩

theorem endsAmount_blank {c : Char} (blank : Text.isBlank c = true) (r : List Char) :
    EndsAmount (c :: r) := by
  refine ⟨Text.stops_cons (Text.isAlphanumeric_of_isBlank blank) r, Text.stops_cons ?_ r⟩
  by_cases point : c = '.'
  · subst point
    cases blank
  · simpa using point

theorem endsAmount_operator {c : Char} (operator : Token.isOperatorChar c = true) (r : List Char) :
    EndsAmount (c :: r) :=
  ⟨Text.stops_cons (Token.isAlphanumeric_of_isOperatorChar operator) r,
    Text.stops_cons (by simpa using Token.ne_point_of_isOperatorChar operator) r⟩

theorem endsAmount_gap (g : Gap) {r : List Char} (ends : EndsAmount r) :
    EndsAmount (g.chars ++ r) := by
  cases here : g.chars with
  | nil => exact ends
  | cons c cs => exact endsAmount_blank (g.blank c (by simp [here])) (cs ++ r)

theorem endsAmount_target (t : Target) (r : List Char) : EndsAmount (t.text ++ r) := by
  cases here : t.before.chars with
  | nil => exact absurd here t.apart
  | cons c cs =>
    rw [Target.text, here, List.append_assoc, List.cons_append]
    exact endsAmount_blank (t.before.blank c (by simp [here])) _

theorem Phrase.endsAmount_tail (p : Phrase) : EndsAmount p.tail := by
  unfold tail
  cases p.target with
  | none =>
    have trail := endsAmount_gap p.trail endsAmount_nil
    simpa using trail
  | some t => exact endsAmount_target t p.trail.chars

theorem endsAmount_links (ls : List Link) {tail : List Char} (ends : EndsAmount tail) :
    EndsAmount (ls.flatMap Link.text ++ tail) := by
  cases ls with
  | nil => exact ends
  | cons l ls =>
    rw [List.flatMap_cons, List.append_assoc, Link.text, List.append_assoc]
    exact endsAmount_gap l.before (endsAmount_operator l.known _)

/-! Where the parts begin -/

theorem Literal.stops_body (l : Literal) {p : Char → Bool}
    (digits : ∀ c, Text.isDigit c = true → p c = false) (point : p '.' = false) (r : List Char) :
    Stops p (l.body ++ r) ∧ l.body ≠ [] := by
  unfold body Literal.point
  cases whole : l.whole with
  | cons c cs =>
    refine ⟨Text.stops_cons (digits c (l.wholeDigits c (by simp [whole]))) _, by simp⟩
  | nil =>
    have decimals : l.fraction ≠ [] := by simpa [whole] using l.digits
    simp only [decimals, ↓reduceIte, List.nil_append]
    exact ⟨Text.stops_cons point _, by simp⟩

theorem Literal.stops_sign (l : Literal) (r : List Char) : Stops Token.isSign (l.body ++ r) := by
  refine (l.stops_body ?_ (by decide) r).1
  intro c digit
  cases sign : Token.isSign c with
  | false => rfl
  | true =>
    have outside := Token.isAlphanumeric_of_isOperatorChar (Token.isOperatorChar_of_isSign sign)
    rw [Text.isAlphanumeric_of_isDigit digit] at outside
    cases outside

/-- A number begins with a character that is not blank. -/
theorem Literal.text_eq_cons (l : Literal) : ∃ c cs, l.text = c :: cs ∧ Text.isBlank c = false := by
  unfold text
  cases sign : l.sign with
  | some c =>
    refine ⟨c, l.body, rfl, ?_⟩
    exact Token.isBlank_of_isOperatorChar (Token.isOperatorChar_of_isSign (l.signed c sign))
  | none =>
    have visible := l.stops_body (fun c digit =>
      Text.isBlank_of_isAlphanumeric (Text.isAlphanumeric_of_isDigit digit)) (by decide) []
    cases body : l.body with
    | nil => exact absurd body visible.2
    | cons c cs => exact ⟨c, cs, rfl, visible.1 c cs (by simp [body])⟩

theorem Literal.stops_text (l : Literal) (r : List Char) : Stops Text.isBlank (l.text ++ r) := by
  obtain ⟨c, cs, text, visible⟩ := l.text_eq_cons
  rw [text]
  exact Text.stops_cons visible _

theorem Amount.stops_text (a : Amount) (r : List Char) : Stops Text.isBlank (a.text ++ r) := by
  rw [text, List.append_assoc]
  exact a.literal.stops_text _

theorem Suffix.alphanumeric (s : Suffix) : ∀ c ∈ s.word, Text.isAlphanumeric c = true := by
  intro c member
  rcases s.formed with ⟨_, letters⟩ | ⟨_, inside⟩
  · exact Symbol.isAlphanumeric_of_isLetter (letters c member)
  · exact inside c member

theorem Suffix.word_ne_nil (s : Suffix) : s.word ≠ [] := by
  intro empty
  have long := s.atLeast
  simp [empty] at long

theorem Suffix.endsNumber_text (s : Suffix) (r : List Char) : EndsNumber (s.text ++ r) := by
  rw [text, List.append_assoc]
  rcases s.formed with ⟨touching, letters⟩ | ⟨apart, _⟩
  · rw [touching, List.nil_append]
    cases word : s.word with
    | nil => exact absurd word s.word_ne_nil
    | cons c cs =>
      have letter := letters c (by simp [word])
      refine ⟨Text.stops_cons (Text.isDigit_of_isLetter letter) _, Text.stops_cons ?_ _⟩
      by_cases point : c = '.'
      · subst point
        cases letter
      · simpa using point
  · cases gap : s.gap.chars with
    | nil => exact absurd gap apart
    | cons c cs => exact (endsAmount_blank (s.gap.blank c (by simp [gap])) _).number

theorem Suffix.stops_word (s : Suffix) (r : List Char) : Stops Text.isBlank (s.word ++ r) := by
  cases word : s.word with
  | nil => exact absurd word s.word_ne_nil
  | cons c cs =>
    exact Text.stops_cons (Text.isBlank_of_isAlphanumeric (s.alphanumeric c (by simp [word]))) _

namespace Target

theorem keyword_eq_cons (t : Target) :
    ∃ c cs, t.keyword = c :: cs ∧ Text.isLetter c = true := by
  cases keyword : t.keyword with
  | nil => simpa [keyword, Token.isTo] using t.spelled
  | cons c cs => exact ⟨c, cs, rfl, Token.isLetter_of_isTo t.spelled c (by simp [keyword])⟩

theorem stops_keyword (t : Target) (r : List Char) : Stops Text.isBlank (t.keyword ++ r) := by
  obtain ⟨c, cs, keyword, letter⟩ := t.keyword_eq_cons
  rw [keyword]
  exact Text.stops_cons (Text.isBlank_of_isAlphanumeric
    (Symbol.isAlphanumeric_of_isLetter letter)) _

theorem code_eq_cons (t : Target) : ∃ c cs, t.code = c :: cs ∧ Text.isLetter c = true := by
  cases code : t.code with
  | nil => simpa [code] using t.three
  | cons c cs => exact ⟨c, cs, rfl, t.letters c (by simp [code])⟩

theorem stops_code (t : Target) (r : List Char) : Stops Text.isBlank (t.code ++ r) := by
  obtain ⟨c, cs, code, letter⟩ := t.code_eq_cons
  rw [code]
  exact Text.stops_cons (Text.isBlank_of_isAlphanumeric
    (Symbol.isAlphanumeric_of_isLetter letter)) _

/-- The blanks after the keyword end it. -/
theorem endsAmount_between (t : Target) (r : List Char) :
    EndsAmount (t.between.chars ++ r) := by
  cases between : t.between.chars with
  | nil => exact absurd between t.parted
  | cons c cs => exact endsAmount_blank (t.between.blank c (by simp [between])) _

theorem stops_between (t : Target) (r : List Char) :
    Stops Text.isLetter (t.between.chars ++ r) :=
  Text.stops_mono (fun _ => Symbol.isAlphanumeric_of_isLetter) (t.endsAmount_between r).word

end Target
end QuoteDesk
