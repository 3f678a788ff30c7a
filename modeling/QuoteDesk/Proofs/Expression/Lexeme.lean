import QuoteDesk.Proofs.Expression.Grammar
import QuoteDesk.Proofs.Steps

/-
The token at one place of a text. From the left it is known which token a literal, an
operator or a word gives where it stands; from the right, what a token that was read
says about the characters behind it.
-/
namespace QuoteDesk.Token

open Text (Stops)

/-! From characters to tokens -/

theorem opensNumber_body (l : Literal) (r : List Char) : opensNumber (l.body ++ r) = true := by
  unfold Literal.body Literal.point
  cases whole : l.whole with
  | cons c cs =>
    have digit := l.wholeDigits c (by simp [whole])
    simp [opensNumber, digit]
  | nil =>
    cases fraction : l.fraction with
    | nil => simpa [whole, fraction] using l.digits
    | cons c cs =>
      have digit := l.fractionDigits c (by simp [fraction])
      simp [opensNumber, digit]

theorem unsignedNumber_body (l : Literal) {r : List Char} (ends : EndsNumber r)
    (whole : List Char) : unsignedNumber whole (l.body ++ r) = .ok l.body := by
  have stops : Stops Text.isDigit (l.point ++ r) := by
    unfold Literal.point
    split
    · exact ends.digits
    · exact Text.stops_cons (by decide) _
  unfold unsignedNumber
  rw [Literal.body, List.append_assoc, Text.takeWhile_run l.wholeDigits stops,
    Text.dropWhile_run l.wholeDigits stops]
  by_cases empty : l.fraction = []
  · have digits : l.whole.isEmpty = false := by simpa [empty] using l.digits
    simp only [Literal.point, empty, ↓reduceIte, List.nil_append, List.append_nil, digits,
      Bool.false_eq_true]
    split
    · have absurd := ends.point _ _ rfl
      cases absurd
    · rfl
  · have digits : l.fraction.isEmpty = false := by simpa using empty
    simp [Literal.point, empty, Text.takeWhile_run l.fractionDigits ends.digits]

theorem opens_of_body {l : Literal} {c : Char} {cs : List Char} (body : l.body = c :: cs) :
    Text.isDigit c = true ∨ c = '.' := by
  unfold Literal.body Literal.point at body
  cases whole : l.whole with
  | cons d ds =>
    rw [whole, List.cons_append] at body
    rw [← (List.cons.inj body).1]
    exact .inl (l.wholeDigits d (by simp [whole]))
  | nil =>
    rw [whole, List.nil_append] at body
    split at body
    · cases body
    · exact .inr (List.cons.inj body).1.symm

/-- No sign is admitted behind a number. -/
theorem isNumber_of_admitsSign {before : Before} (free : before.admitsSign = true) :
    before.isNumber = false ∧ before.touchesNumber = false := by
  cases before with
  | start => exact ⟨rfl, rfl⟩
  | operator => exact ⟨rfl, rfl⟩
  | number touching => cases free
  | word => cases free

/-- A number behind a number begins with its point, and only where a sign is admitted it has one. -/
theorem first_number {before : Before} {l : Literal}
    (signed : l.sign ≠ none → before.admitsSign = true)
    (pointed : before.isNumber = true → l.whole = []) (position : Nat) {r : List Char}
    (ends : EndsNumber r) :
    first before position (l.text ++ r) = .ok ⟨.number, l.text, position, false⟩ := by
  unfold Literal.text
  cases sign : l.sign with
  | some c =>
    have free := signed (by simp [sign])
    have number := isNumber_of_admitsSign free
    have signed := l.signed c sign
    have word := isAlphanumeric_of_isOperatorChar (isOperatorChar_of_isSign signed)
    simp [first, signed, free, opensNumber_body, number, word, signedNumber,
      unsignedNumber_body l ends, Except.map]
  | none =>
    have read := unsignedNumber_body l ends (l.body ++ r)
    cases body : l.body with
    | nil =>
      have opens := opensNumber_body l []
      simp [body, opensNumber] at opens
    | cons c cs =>
      have opens := opens_of_body body
      have operator : isOperatorChar c = false := by
        rcases opens with digit | rfl
        · exact isOperatorChar_of_isAlphanumeric (Text.isAlphanumeric_of_isDigit digit)
        · rfl
      have sign : isSign c = false := by
        cases sign : isSign c with
        | false => rfl
        | true => rw [isOperatorChar_of_isSign sign] at operator; cases operator
      have letter : Text.isLetter c = false := by
        rcases opens with digit | rfl
        · exact Text.isLetter_of_isDigit digit
        · rfl
      have begins : (c == '.' || Text.isDigit c) = true := by
        rcases opens with digit | rfl
        · simp [digit]
        · rfl
      have alone : (Text.isAlphanumeric c && before.isNumber) = false := by
        cases number : before.isNumber with
        | false => rw [Bool.and_false]
        | true =>
          have point : l.body = l.point := by rw [Literal.body, pointed number, List.nil_append]
          rw [point, Literal.point] at body
          split at body
          · cases body
          · rw [← (List.cons.inj body).1]
            rfl
      rw [body, List.cons_append] at read
      simp [first, operator, letter, sign, begins, alone, signedNumber, read, Except.map]

theorem first_literal {before : Before} (free : before.admitsSign = true) (position : Nat)
    (l : Literal) {r : List Char} (ends : EndsNumber r) :
    first before position (l.text ++ r) = .ok ⟨.number, l.text, position, false⟩ := by
  apply first_number (fun _ => free) _ position ends
  intro number
  rw [(isNumber_of_admitsSign free).1] at number
  cases number

theorem first_operator {before : Before} (bound : before.admitsSign = false) (position : Nat)
    {c : Char} (operator : isOperatorChar c = true) (r : List Char) :
    first before position (c :: r) = .ok ⟨.operator, [c], position, false⟩ := by
  simp [first, operator, bound]

theorem first_touching (position : Nat) {word r : List Char} (nonempty : word ≠ [])
    (letters : ∀ c ∈ word, Text.isLetter c = true) (stops : Stops Text.isAlphanumeric r) :
    first (.number true) position (word ++ r) = .ok (ofWord word position true) := by
  have ended : Stops Text.isLetter r :=
    Text.stops_mono (fun _ => Symbol.isAlphanumeric_of_isLetter) stops
  have read : touchingWord (word ++ r) = .ok word := by
    unfold touchingWord
    rw [Text.takeWhile_run letters ended, Text.dropWhile_run letters ended]
    cases r with
    | nil => rfl
    | cons d ds =>
      have digit := Text.stops_mono (fun _ => Text.isAlphanumeric_of_isDigit) stops d ds rfl
      simp [digit]
  cases word with
  | nil => exact absurd rfl nonempty
  | cons c cs =>
    have letter := letters c (by simp)
    have operator := isOperatorChar_of_isAlphanumeric (Symbol.isAlphanumeric_of_isLetter letter)
    rw [List.cons_append] at read ⊢
    simp [first, operator, Before.touchesNumber, letter, read, Except.map]

theorem first_word {before : Before} (apart : before.touchesNumber = false) (position : Nat)
    {word r : List Char} (nonempty : word ≠ [])
    (inside : ∀ c ∈ word, Text.isAlphanumeric c = true)
    (opens : before.isNumber = true ∨ ∀ c ∈ word.head?, Text.isLetter c = true)
    (stops : Stops Text.isAlphanumeric r) :
    first before position (word ++ r) = .ok (ofWord word position false) := by
  have run := Text.takeWhile_run inside stops
  cases word with
  | nil => exact absurd rfl nonempty
  | cons c cs =>
    have here := inside c (by simp)
    have operator := isOperatorChar_of_isAlphanumeric here
    have opens : (before.isNumber || Text.isLetter c) = true := by
      rcases opens with number | letters
      · simp [number]
      · simp [letters c (by simp)]
    rw [List.cons_append] at run ⊢
    simp only [first, operator, apart, here, opens, run, Bool.false_and, Bool.and_self,
      Bool.false_eq_true, ↓reduceIte]

/-! From tokens to characters -/

/-- What a token tells of the characters it was read from, and of those after them. A word
that touches a number is all letters unless its digits go on that number. -/
inductive Lexeme (before : Before) : Token → List Char → List Char → Prop where
  | operator {c : Char} (known : isOperatorChar c = true) (position : Nat) (r : List Char) :
    Lexeme before ⟨.operator, [c], position, false⟩ [c] r
  | number (l : Literal) {r : List Char} (stops : Stops Text.isDigit r) (position : Nat) :
    Lexeme before ⟨.number, l.text, position, false⟩ l.text r
  | word {word r : List Char} (nonempty : word ≠ [])
    (inside : ∀ c ∈ word, Text.isAlphanumeric c = true) (stops : Stops Text.isAlphanumeric r)
    (touching : before.touchesNumber = true → Stops Text.isDigit (word ++ r) →
      ∀ c ∈ word, Text.isLetter c = true) (position : Nat) (attached : Bool) :
    Lexeme before (ofWord word position attached) word r

theorem literal_of_unsigned {whole cs body : List Char}
    (read : unsignedNumber whole cs = .ok body) (sign : Option Char)
    (signed : ∀ c ∈ sign, isSign c = true) :
    ∃ (l : Literal) (r : List Char), l.sign = sign ∧ l.body = body ∧ cs = body ++ r ∧
      Stops Text.isDigit r := by
  have digits : ∀ xs : List Char, ∀ c ∈ xs.takeWhile Text.isDigit, Text.isDigit c = true :=
    fun _ _ member => List.mem_takeWhile_imp member
  have split : cs = cs.takeWhile Text.isDigit ++ cs.dropWhile Text.isDigit :=
    List.takeWhile_append_dropWhile.symm
  have stops := Text.stops_dropWhile Text.isDigit cs
  unfold unsignedNumber at read
  dsimp only at read
  split at read
  · rename_i more rest
    split at read
    · rename_i decimals
      have fraction : more.takeWhile Text.isDigit ≠ [] := by simpa using decimals
      cases read
      refine ⟨⟨sign, cs.takeWhile Text.isDigit, more.takeWhile Text.isDigit, signed, digits cs,
        digits more, .inr fraction⟩, more.dropWhile Text.isDigit, rfl, ?_, ?_,
        Text.stops_dropWhile Text.isDigit more⟩
      · simp only [Literal.body, Literal.point, fraction, ↓reduceIte]
      · rw [List.append_assoc, List.cons_append, List.takeWhile_append_dropWhile, ← rest,
          List.takeWhile_append_dropWhile]
    · split at read <;> cases read
  · split at read
    · cases read
    · rename_i decimals
      have whole : cs.takeWhile Text.isDigit ≠ [] := by simpa using decimals
      cases read
      refine ⟨⟨sign, cs.takeWhile Text.isDigit, [], signed, digits cs, by simp, .inl whole⟩,
        cs.dropWhile Text.isDigit, rfl, ?_, split, stops⟩
      simp [Literal.body, Literal.point]

theorem literal_of_signed {cs literal : List Char} (read : signedNumber cs = .ok literal) :
    ∃ (l : Literal) (r : List Char), l.text = literal ∧ cs = literal ++ r ∧
      Stops Text.isDigit r := by
  cases cs with
  | nil => cases read
  | cons c cs =>
    rw [signedNumber] at read
    split at read
    · rename_i sign
      obtain ⟨body, unsigned, rfl⟩ := ok_of_map read
      obtain ⟨l, r, signs, bodies, text, stops⟩ :=
        literal_of_unsigned unsigned (some c) (by simpa using sign)
      refine ⟨l, r, ?_, by rw [text]; rfl, stops⟩
      rw [Literal.text, signs, bodies]
      rfl
    · obtain ⟨l, r, signs, bodies, text, stops⟩ :=
        literal_of_unsigned read none (by simp)
      refine ⟨l, r, ?_, text, stops⟩
      rw [Literal.text, signs, bodies]
      rfl

theorem letters_of_touchingWord {cs word : List Char} (read : touchingWord cs = .ok word) :
    ∃ r : List Char, cs = word ++ r ∧ (∀ c ∈ word, Text.isLetter c = true) ∧
      Stops Text.isAlphanumeric r := by
  have stops := Text.stops_dropWhile Text.isLetter cs
  have word_eq : word = cs.takeWhile Text.isLetter ∧
      Stops Text.isAlphanumeric (cs.dropWhile Text.isLetter) := by
    unfold touchingWord at read
    dsimp only at read
    split at read
    · rename_i d ds rest
      split at read
      · cases read
      · rename_i digit
        cases read
        have letter := stops d ds rest
        have outside : Text.isAlphanumeric d = false := by
          simpa [Text.isAlphanumeric, letter] using digit
        exact ⟨rfl, rest ▸ Text.stops_cons outside ds⟩
    · rename_i rest
      cases read
      exact ⟨rfl, rest ▸ Text.stops_nil _⟩
  obtain ⟨rfl, ended⟩ := word_eq
  exact ⟨cs.dropWhile Text.isLetter, List.takeWhile_append_dropWhile.symm,
    fun _ member => List.mem_takeWhile_imp member, ended⟩

/-- The ways in which a token is read at the start of a text, and the two parts into which the text
falls there. -/
inductive Reads (before : Before) (position : Nat) : Token → List Char → List Char → Prop where
  | operator {c : Char} (known : isOperatorChar c = true) (r : List Char) :
    Reads before position ⟨.operator, [c], position, false⟩ [c] r
  | touching {word r : List Char} (touches : before.touchesNumber = true) (nonempty : word ≠ [])
    (letters : ∀ c ∈ word, Text.isLetter c = true) (stops : Stops Text.isAlphanumeric r) :
    Reads before position (ofWord word position true) word r
  | apart {word r : List Char} (nonempty : word ≠ [])
    (inside : ∀ c ∈ word, Text.isAlphanumeric c = true) (stops : Stops Text.isAlphanumeric r)
    (bound : before.touchesNumber = true → ∀ c ∈ word.head?, Text.isDigit c = true)
    (opens : before.isNumber = true ∨ ∀ c ∈ word.head?, Text.isLetter c = true) :
    Reads before position (ofWord word position false) word r
  | number (l : Literal) {r : List Char} (stops : Stops Text.isDigit r)
    (signed : l.sign ≠ none → before.admitsSign = true)
    (pointed : before.isNumber = true → l.whole = []) :
    Reads before position ⟨.number, l.text, position, false⟩ l.text r

/-- A sign is read as that of a number where it is admitted, and digits behind a number are those
of a word. -/
theorem reads_number {before : Before} {l : Literal} {c : Char} {cs r : List Char}
    (begins : c :: cs = l.text ++ r) (stops : Stops Text.isDigit r)
    (signed : isSign c = true → before.admitsSign = true)
    (digits : before.isNumber = true → Text.isDigit c = false) (position : Nat) :
    Reads before position ⟨.number, l.text, position, false⟩ l.text r := by
  have sign : l.sign ≠ none → before.admitsSign = true := by
    intro some
    obtain ⟨d, sign⟩ := Option.ne_none_iff_exists'.mp some
    rw [Literal.text, sign] at begins
    have same : c = d := (List.cons.inj begins).1
    rw [same] at signed
    exact signed (l.signed d sign)
  refine .number l stops sign ?_
  intro number
  have bare : l.sign = none := by
    by_contra some
    rw [(isNumber_of_admitsSign (sign some)).1] at number
    cases number
  rw [Literal.text, bare, Literal.body] at begins
  cases whole : l.whole with
  | nil => rfl
  | cons d ds =>
    rw [whole] at begins
    have same : c = d := (List.cons.inj begins).1
    have digit := digits number
    rw [same, l.wholeDigits d (by rw [whole]; exact List.mem_cons_self)] at digit
    cases digit

theorem reads_of_first {before : Before} {position : Nat} {cs : List Char} {t : Token}
    (read : first before position cs = .ok t) :
    ∃ lexeme r : List Char, cs = lexeme ++ r ∧ Reads before position t lexeme r := by
  cases cs with
  | nil => cases read
  | cons c cs =>
    rw [first] at read
    split at read
    · rename_i operator
      cases read
      rw [Bool.and_eq_true] at operator
      exact ⟨[c], cs, rfl, .operator operator.1 cs⟩
    rename_i bound
    split at read
    · rename_i touching
      obtain ⟨word, found, rfl⟩ := ok_of_map read
      rw [Bool.and_eq_true] at touching
      obtain ⟨r, text, letters, stops⟩ := letters_of_touchingWord found
      refine ⟨word, r, text, .touching touching.1 ?_ letters stops⟩
      rintro rfl
      have outside := stops c cs text.symm
      rw [Symbol.isAlphanumeric_of_isLetter touching.2] at outside
      cases outside
    rename_i apart
    split at read
    · rename_i opens
      cases read
      rw [Bool.and_eq_true, Bool.or_eq_true] at opens
      refine ⟨(c :: cs).takeWhile Text.isAlphanumeric, (c :: cs).dropWhile Text.isAlphanumeric,
        List.takeWhile_append_dropWhile.symm, .apart ?_ (fun _ member => List.mem_takeWhile_imp member)
          (Text.stops_dropWhile _ _) ?_ ?_⟩
      · simp [opens.1]
      · intro touches
        have letter : Text.isLetter c = false := by simpa [touches] using apart
        have digit : Text.isDigit c = true := by
          simpa [Text.isAlphanumeric, letter] using opens.1
        simp [opens.1, digit]
      · simpa [opens.1] using opens.2
    rename_i closed
    split at read
    · obtain ⟨literal, found, rfl⟩ := ok_of_map read
      obtain ⟨l, r, rfl, text, stops⟩ := literal_of_signed found
      refine ⟨l.text, r, text, reads_number text stops ?_ ?_ position⟩
      · intro sign
        by_contra refused
        rw [Bool.not_eq_true] at refused
        rw [isOperatorChar_of_isSign sign, refused] at bound
        simp at bound
      · intro number
        by_contra digit
        rw [Bool.not_eq_false] at digit
        rw [Text.isAlphanumeric_of_isDigit digit, number] at closed
        simp at closed
    · cases read

theorem Reads.lexeme {before : Before} {position : Nat} {t : Token} {lexeme r : List Char}
    (reads : Reads before position t lexeme r) : Lexeme before t lexeme r := by
  cases reads with
  | operator known r => exact .operator known position r
  | touching touches nonempty letters stops =>
    have inside := fun c member => Symbol.isAlphanumeric_of_isLetter (letters c member)
    exact .word nonempty inside stops (fun _ _ => letters) position true
  | apart nonempty inside stops bound opens =>
    refine .word nonempty inside stops ?_ position false
    -- the digits of the number before it would have gone on here
    intro touches digits
    cases lexeme with
    | nil => exact absurd rfl nonempty
    | cons c cs =>
      have digit := digits c (cs ++ r) rfl
      rw [bound touches c rfl] at digit
      cases digit
  | number l stops signed pointed => exact .number l stops position

theorem lexeme_of_first {before : Before} {position : Nat} {cs : List Char} {t : Token}
    (read : first before position cs = .ok t) :
    ∃ lexeme r : List Char, cs = lexeme ++ r ∧ Lexeme before t lexeme r := by
  obtain ⟨lexeme, r, text, reads⟩ := reads_of_first read
  exact ⟨lexeme, r, text, reads.lexeme⟩

end QuoteDesk.Token
