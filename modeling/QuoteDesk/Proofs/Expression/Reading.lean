import QuoteDesk.Expression.Reader
import QuoteDesk.Proofs.Expression.Literal
import QuoteDesk.Proofs.Expression.Scan

/-
Terms and operators from tokens, in both directions: the reader finds in the tokens of
amounts and links the terms that these stand for, and where it finds terms, the scanned
text is made of such amounts and links.
-/
namespace QuoteDesk

open Text (Stops)

/-! Capital letters of a word -/

namespace Text

theorem toNat_lt_of_isAlphanumeric {c : Char} (inside : isAlphanumeric c = true) :
    c.toNat < 128 := by
  rw [isAlphanumeric_iff, isDigit_iff, isLetter_iff] at inside
  omega

theorem upper_of_small : ∀ n < 128, isAlphanumeric (Char.ofNat n) = true →
    capitalChar (Char.ofNat n) = [(Char.ofNat n).toUpper] ∧
      isAlphanumeric (Char.ofNat n).toUpper = true ∧
      isLetter (Char.ofNat n).toUpper = isLetter (Char.ofNat n) := by
  decide +kernel

theorem upper_of_isAlphanumeric {c : Char} (inside : isAlphanumeric c = true) :
    capitalChar c = [c.toUpper] ∧ isAlphanumeric c.toUpper = true ∧
      isLetter c.toUpper = isLetter c := by
  have small := upper_of_small c.toNat (toNat_lt_of_isAlphanumeric inside)
  rw [Char.ofNat_toNat] at small
  exact small inside

theorem capitals_of_alphanumeric {word : List Char}
    (inside : ∀ c ∈ word, isAlphanumeric c = true) : capitals word = word.map Char.toUpper := by
  induction word with
  | nil => rfl
  | cons c cs ih =>
    have rest := ih fun d member => inside d (List.mem_cons_of_mem c member)
    unfold capitals at rest ⊢
    rw [List.flatMap_cons, (upper_of_isAlphanumeric (inside c (by simp))).1, rest]
    rfl

end Text

namespace Expression

theorem assetSymbol_word {word : List Char} (inside : ∀ c ∈ word, Text.isAlphanumeric c = true) :
    assetSymbol word = if 2 ≤ word.length ∧ word.length ≤ 10 then
      .ok (String.ofList (word.map Char.toUpper)) else .error (.assetToken (String.ofList word)) := by
  have upper : (word.map Char.toUpper).all Text.isAlphanumeric = true := by
    rw [List.all_eq_true]
    intro d member
    obtain ⟨c, here, rfl⟩ := List.mem_map.mp member
    exact (Text.upper_of_isAlphanumeric (inside c here)).2.1
  simp [assetSymbol, Text.capitals_of_alphanumeric inside, Symbol.isAsset, upper]

theorem assetSymbol_suffix (s : Suffix) : assetSymbol s.word = .ok s.symbol := by
  rw [assetSymbol_word s.alphanumeric, if_pos ⟨s.atLeast, s.atMost⟩]
  rfl

theorem readCurrency_word (field : String) {word : List Char}
    (inside : ∀ c ∈ word, Text.isAlphanumeric c = true) :
    Symbol.readCurrency field (String.ofList word) =
      if word.length = 3 ∧ word.all Text.isLetter = true then
        .ok (String.ofList (word.map Char.toUpper))
      else .error (.symbol field (String.ofList word) .currency) := by
  have form : Symbol.normalForm (String.ofList word) = word.map Char.toUpper := by
    rw [Symbol.normalForm, String.toList_ofList, Text.trimChars_of_visible
      fun c member => Text.isBlank_of_isAlphanumeric (inside c member)]
    exact Text.capitals_of_alphanumeric inside
  have letters : (word.map Char.toUpper).all Text.isLetter = word.all Text.isLetter := by
    rw [Bool.eq_iff_iff, List.all_map, List.all_eq_true, List.all_eq_true]
    refine forall₂_congr fun c member => ?_
    rw [Function.comp_apply, (Text.upper_of_isAlphanumeric (inside c member)).2.2]
  simp [Symbol.readCurrency, form, Symbol.isCurrency, letters]

/-! From a phrase to its terms -/

theorem readTerm_amount {a : Amount} (admissible : a.literal.value.admissible = true)
    (position : Nat) {ts : List Token} (ends : ∀ t us, ts = t :: us → t.kind ≠ .identifier) :
    readTerm (a.tokens position ++ ts) = .ok (a.term, ts) := by
  have value : literalValue a.literal.text = .ok a.literal.value := by
    rw [a.literal.literalValue_text, admissible]
    rfl
  cases suffix : a.suffix with
  | none =>
    simp only [Amount.tokens, Amount.term, suffix, Option.elim_none, List.singleton_append]
    rw [readTerm]
    simp only [ne_eq, not_true_eq_false, ↓reduceIte, value]
    cases ts with
    | nil => rfl
    | cons t us =>
      have other := ends t us rfl
      simp only [bind, Except.bind, other, ↓reduceIte]
      rfl
  | some s =>
    simp only [Amount.tokens, Amount.term, suffix, Option.elim_some, List.cons_append,
      List.nil_append]
    rw [readTerm]
    simp only [ne_eq, not_true_eq_false, ↓reduceIte, value, assetSymbol_suffix]
    rfl

theorem readTerms_links {fuel : Nat} {a : Amount} {ls : List Link} (enough : ls.length < fuel)
    (admissible : ∀ b ∈ a :: ls.map (·.amount), b.literal.value.admissible = true)
    (position next : Nat) :
    readTerms fuel (a.tokens position ++ linkTokens next ls) =
      .ok ((a :: ls.map (·.amount)).map Amount.term,
        ls.map fun l => .ofText (String.singleton l.operator)) := by
  induction fuel generalizing a ls position next with
  | zero => cases enough
  | succ fuel ih =>
    have here := admissible a (by simp)
    rw [readTerms]
    cases ls with
    | nil =>
      rw [linkTokens, readTerm_amount here position (by simp)]
      rfl
    | cons l ls =>
      have more := ih (a := l.amount) (Nat.lt_of_succ_lt_succ enough)
        (fun b member => admissible b (List.mem_cons_of_mem a member))
        (next + l.before.chars.length + 1 + l.after.chars.length) (next + l.text.length)
      rw [linkTokens, readTerm_amount here position (by simp)]
      simp only [bind, Except.bind, ne_eq, not_true_eq_false, ↓reduceIte, more]
      rfl

/-! From terms to a phrase -/

/-- The text scans to the tokens, wherever it stands. -/
def Scans (cs : List Char) (ts : List Token) : Prop :=
  ∃ before position, Token.scan before position cs = .ok ts

theorem literal_of_scan {before : Before} {position : Nat} {cs : List Char} {t : Token}
    {ts : List Token} (scanned : Token.scan before position cs = .ok (t :: ts))
    (number : t.kind = .number) :
    ∃ (g : Gap) (l : Literal) (r : List Char) (next : Nat), cs = g.chars ++ (l.text ++ r) ∧
      t.text = l.text ∧ Stops Text.isDigit r ∧ Token.scan (.number true) next r = .ok ts := by
  obtain ⟨g, lexeme, r, next, text, read, rest⟩ := Token.lexeme_of_scan scanned
  cases read with
  | operator known position r => cases number
  | word nonempty inside stops touching position attached =>
    unfold Token.ofWord at number
    split at number <;> cases number
  | number l stops position => exact ⟨g, l, r, next, text, rfl, stops, rest⟩

theorem suffix_of_scan {position : Nat} {cs : List Char} {t : Token} {ts : List Token}
    {symbol : String} (scanned : Token.scan (.number true) position cs = .ok (t :: ts))
    (word : t.kind = .identifier) (stops : Stops Text.isDigit cs)
    (named : assetSymbol t.text = .ok symbol) :
    ∃ (s : Suffix) (r : List Char), cs = s.text ++ r ∧ s.symbol = symbol ∧
      Stops Text.isAlphanumeric r ∧ Scans r ts := by
  obtain ⟨g, lexeme, r, next, rfl, read, rest⟩ := Token.lexeme_of_scan scanned
  cases read with
  | operator known position r => cases word
  | number l digits position => cases word
  | word nonempty inside ended touching position attached =>
    cases free : Token.isTo lexeme with
    | true =>
      rw [Token.ofWord_of_to free] at word
      cases word
    | false =>
      rw [Token.ofWord_of_free free] at named
      rw [assetSymbol_word inside] at named
      split at named
      · rename_i lengths
        cases named
        have formed : (g.chars = [] ∧ ∀ c ∈ lexeme, Text.isLetter c = true) ∨
            (g.chars ≠ [] ∧ ∀ c ∈ lexeme, Text.isAlphanumeric c = true) := by
          by_cases touches : g.chars = []
          · -- the digits of the word would have gone on the number
            rw [touches, List.nil_append] at stops
            have past : ((Before.number true).past g).touchesNumber = true := by
              simp [Before.past, touches, Before.touchesNumber]
            exact .inl ⟨touches, touching past stops⟩
          · exact .inr ⟨touches, inside⟩
        refine ⟨⟨g, lexeme, formed, lengths.1, lengths.2, free⟩, r, ?_, rfl, ended, _, _, rest⟩
        simp [Suffix.text]
      · cases named

/-- Where a term is read, the text goes on with the amount it stands for. -/
theorem amount_of_readTerm {cs : List Char} {ts us tail : List Token} {term : Term}
    (scanned : Scans cs (ts ++ tail)) (read : readTerm ts = .ok (term, us)) :
    ∃ (g : Gap) (a : Amount) (r : List Char), cs = g.chars ++ (a.text ++ r) ∧ a.term = term ∧
      a.literal.value.admissible = true ∧ (a.suffix ≠ none → Stops Text.isAlphanumeric r) ∧
      Scans r (us ++ tail) := by
  obtain ⟨before, position, scanned⟩ := scanned
  cases ts with
  | nil => cases read
  | cons t ts =>
    rw [readTerm] at read
    split at read
    · cases read
    · rename_i number
      obtain ⟨g, l, r, next, text, same, stops, rest⟩ :=
        literal_of_scan scanned (by simpa using number)
      rw [same, l.literalValue_text] at read
      obtain ⟨value, valued, read⟩ := ok_of_bind read
      split at valued
      · rename_i admissible
        cases valued
        cases ts with
        | nil =>
          cases read
          refine ⟨g, ⟨l, none⟩, r, ?_, rfl, admissible, fun held => absurd rfl held, _, _, rest⟩
          simpa [Amount.text] using text
        | cons u ts =>
          dsimp only at read
          split at read
          · rename_i word
            obtain ⟨symbol, named, read⟩ := ok_of_bind read
            cases read
            obtain ⟨s, r', more, symbols, ended, scans⟩ := suffix_of_scan rest word stops named
            refine ⟨g, ⟨l, some s⟩, r', ?_, ?_, admissible, fun _ => ended, scans⟩
            · simp [Amount.text, text, more]
            · rw [← symbols]
              rfl
          · cases read
            refine ⟨g, ⟨l, none⟩, r, ?_, rfl, admissible, fun held => absurd rfl held, _, _,
              rest⟩
            simpa [Amount.text] using text
      · cases valued

theorem operator_of_scan {before : Before} {position : Nat} {cs : List Char} {t : Token}
    {ts : List Token} (scanned : Token.scan before position cs = .ok (t :: ts))
    (operator : t.kind = .operator) :
    ∃ (g : Gap) (c : Char) (r : List Char), cs = g.chars ++ c :: r ∧
      Token.isOperatorChar c = true ∧ t.text = [c] ∧ Scans r ts := by
  obtain ⟨g, lexeme, r, next, text, read, rest⟩ := Token.lexeme_of_scan scanned
  cases read with
  | operator known position r => exact ⟨g, _, r, text, known, rfl, _, _, rest⟩
  | number l stops position => cases operator
  | word nonempty inside stops touching position attached =>
    unfold Token.ofWord at operator
    split at operator <;> cases operator

/-- What a text has when terms and operators were read in it: an amount and links that
stand for them. The tail goes on behind, apart from the last symbol. -/
structure Joined (cs : List Char) (terms : List Term) (operators : List Operator)
    (tail : List Token) where
  lead : Gap
  head : Amount
  links : List Link
  rest : List Char
  text_eq : cs = lead.chars ++ (head.text ++ (links.flatMap Link.text ++ rest))
  terms_eq : terms = (head :: links.map (·.amount)).map Amount.term
  operators_eq : operators = links.map fun l => .ofText (String.singleton l.operator)
  admissible : ∀ a ∈ head :: links.map (·.amount), a.literal.value.admissible = true
  apart : (∀ a ∈ head :: links.map (·.amount), a.suffix ≠ none) →
    Stops Text.isAlphanumeric rest
  scans : Scans rest tail

theorem joined_of_readTerms {fuel : Nat} {cs : List Char} {ts tail : List Token}
    {terms : List Term} {operators : List Operator} (scanned : Scans cs (ts ++ tail))
    (read : readTerms fuel ts = .ok (terms, operators)) :
    Nonempty (Joined cs terms operators tail) := by
  -- each round of the reader gives one amount, and a link before all but the first
  induction fuel generalizing cs ts terms operators with
  | zero => cases read
  | succ fuel ih =>
    rw [readTerms] at read
    obtain ⟨⟨term, us⟩, first, read⟩ := ok_of_bind read
    obtain ⟨g, a, r, text, same, admissible, apart, scans⟩ := amount_of_readTerm scanned first
    cases us with
    | nil =>
      cases read
      exact ⟨{
        lead := g
        head := a
        links := []
        rest := r
        text_eq := text
        terms_eq := by simp [same]
        operators_eq := rfl
        admissible := by simpa using admissible
        apart := fun held => apart (held a (by simp))
        scans := scans }⟩
    | cons t more =>
      dsimp only at read
      split at read
      · cases read
      · rename_i operator
        obtain ⟨⟨terms, operators⟩, rest, read⟩ := ok_of_bind read
        cases read
        obtain ⟨before, position, scans⟩ := scans
        obtain ⟨g', c, r', rfl, known, sign, scans⟩ :=
          operator_of_scan scans (by simpa using operator)
        obtain ⟨⟨lead, head, links, ended, rfl, rfl, rfl, every, behind, remain⟩⟩ :=
          ih scans rest
        exact ⟨{
          lead := g
          head := a
          links := ⟨g', c, lead, head, known⟩ :: links
          rest := ended
          text_eq := by simp [text, Link.text]
          terms_eq := by
            rw [← same]
            rfl
          operators_eq := by
            rw [sign]
            rfl
          admissible := by
            intro b member
            rcases List.mem_cons.mp member with rfl | member
            · exact admissible
            · exact every b member
          apart := fun held => behind fun b member => held b (List.mem_cons_of_mem a member)
          scans := remain }⟩

end Expression
end QuoteDesk
