import Mathlib.Data.List.Forall2
import QuoteDesk.Proofs.Expression.Acceptance
import QuoteDesk.Proofs.Text.Case

/-
Texts with the same tokens. Blanks between two tokens may be more or fewer as long as one is left,
and none has to be left between a number and a word of letters; the case of letters never matters.
However the tokens of a text are written, they are found again, and the same is read from them.
-/
namespace QuoteDesk

open Text (Stops SameLetters)

/-! Tokens in their places -/

/-- What a token is that was read at a place: a sign and the digits before the point of a number,
or the digits in front of a word, are admitted at some places only. -/
inductive Placed (before : Before) : Token → Prop where
  | operator {c : Char} (known : Token.isOperatorChar c = true) (position : Nat) :
    Placed before ⟨.operator, [c], position, false⟩
  | number {l : Literal} (signed : l.sign ≠ none → before.admitsSign = true)
    (pointed : before.isNumber = true → l.whole = []) (position : Nat) :
    Placed before ⟨.number, l.text, position, false⟩
  | word {word : List Char} (nonempty : word ≠ [])
    (inside : ∀ c ∈ word, Text.isAlphanumeric c = true)
    (opens : before.isNumber = true ∨ ∀ c ∈ word.head?, Text.isLetter c = true)
    (position : Nat) (attached : Bool) : Placed before (Token.ofWord word position attached)

/-- Two tokens of one kind, of which words may differ in the case of their letters. -/
structure Token.Alike (t u : Token) : Prop where
  kind : t.kind = u.kind
  letters : SameLetters t.text u.text
  same : t.kind ≠ .identifier → t.text = u.text

theorem Token.Alike.symm {t u : Token} (alike : Alike t u) : Alike u t := by
  constructor
  · exact alike.kind.symm
  · exact alike.letters.symm
  · intro other
    rw [← alike.kind] at other
    exact (alike.same other).symm

/-- The tokens in their order, written behind a place: in any case, with blanks in front of each but
the first one of a text and words of letters behind a number, which need none. -/
inductive Spelled : Before → List Token → List Char → Prop where
  | done (before : Before) (trail : Gap) : Spelled before [] trail.chars
  | token {before : Before} {t : Token} {ts : List Token} {word rest : List Char} (gap : Gap)
    (apart : gap.chars ≠ [] ∨ before = .start ∨
      (before = .number true ∧ ∀ c ∈ t.text, Text.isLetter c = true))
    (letters : SameLetters t.text word) (more : Spelled (.after t.kind) ts rest) :
    Spelled before (t :: ts) (gap.chars ++ (word ++ rest))

/-! What a token tells of its place -/

theorem Placed.elsewhere {before other : Before} {t : Token} (placed : Placed before t)
    (sign : other.admitsSign = before.admitsSign) (number : other.isNumber = before.isNumber) :
    Placed other t := by
  cases placed with
  | operator known position => exact .operator known position
  | number signed pointed position =>
    rw [← sign] at signed
    rw [← number] at pointed
    exact .number signed pointed position
  | word nonempty inside opens position attached =>
    rw [← number] at opens
    exact .word nonempty inside opens position attached

theorem Before.isNumber_past (before : Before) (g : Gap) :
    (before.past g).isNumber = before.isNumber := by
  unfold past
  split
  · rfl
  · cases before <;> rfl

theorem Placed.ne_nil {before : Before} {t : Token} (placed : Placed before t) : t.text ≠ [] := by
  cases placed with
  | operator known position => exact List.cons_ne_nil _ _
  | number signed pointed position =>
    rename_i l
    obtain ⟨c, cs, text, _⟩ := l.text_eq_cons
    rw [text]
    exact List.cons_ne_nil c cs
  | word nonempty inside opens position attached =>
    unfold Token.ofWord
    split
    · exact List.cons_ne_nil _ _
    · exact nonempty

namespace Token

theorem placed_of_first {before : Before} {position : Nat} {cs : List Char} {t : Token}
    (read : first before position cs = .ok t) : Placed before t := by
  obtain ⟨lexeme, r, _, reads⟩ := reads_of_first read
  cases reads with
  | operator known r => exact .operator known position
  | touching touches nonempty letters stops =>
    have number : before.isNumber = true := by
      rw [beq_iff_eq.mp touches]
      rfl
    exact .word nonempty (fun c member => Symbol.isAlphanumeric_of_isLetter (letters c member))
      (.inl number) position true
  | apart nonempty inside stops bound opens => exact .word nonempty inside opens position false
  | number l stops signed pointed => exact .number signed pointed position

theorem placed_of_scan {before : Before} {position : Nat} {cs : List Char} {t : Token}
    {ts : List Token} (scanned : scan before position cs = .ok (t :: ts)) :
    Placed before t ∧ ∃ next r, scan (.after t.kind) next r = .ok ts := by
  obtain ⟨g, rest, _, read, scanned⟩ := first_behind_gap scanned
  have placed := placed_of_first read
  exact ⟨placed.elsewhere (before.admitsSign_past g).symm (before.isNumber_past g).symm, _, _, scanned⟩

/-! Words in another case -/

theorem isTo_iff (word : List Char) : isTo word = true ↔ SameLetters word ['t', 'o'] := by
  rw [isTo, beq_iff_eq]
  rfl

theorem isTo_of_sameLetters {word word' : List Char} (same : SameLetters word word') :
    isTo word = isTo word' := by
  unfold isTo
  rw [same]

theorem sameLetters_ofWord (word : List Char) (position : Nat) (attached : Bool) :
    SameLetters word (ofWord word position attached).text := by
  cases spelled : isTo word with
  | true =>
    rw [ofWord_of_to spelled]
    exact (isTo_iff word).mp spelled
  | false =>
    rw [ofWord_of_free spelled]
    exact .refl word

theorem alike_ofWord {word word' : List Char} (same : SameLetters word word')
    (position position' : Nat) (attached attached' : Bool) :
    Alike (ofWord word position attached) (ofWord word' position' attached') := by
  have both := isTo_of_sameLetters same
  cases spelled : isTo word with
  | true =>
    rw [ofWord_of_to spelled, ofWord_of_to (both ▸ spelled)]
    exact ⟨rfl, .refl _, fun _ => rfl⟩
  | false =>
    rw [ofWord_of_free spelled, ofWord_of_free (both ▸ spelled)]
    exact ⟨rfl, same, fun other => absurd rfl other⟩

end Token

theorem Literal.mem_text (l : Literal) : ∀ c ∈ l.text,
    Token.isSign c = true ∨ Text.isDigit c = true ∨ c = '.' := by
  intro c member
  rw [Literal.text, Literal.body, List.mem_append, List.mem_append] at member
  rcases member with sign | whole | point
  · exact .inl (l.signed c (Option.mem_toList.mp sign))
  · exact .inr (.inl (l.wholeDigits c whole))
  · unfold Literal.point at point
    split at point
    · cases point
    · rcases List.mem_cons.mp point with same | fraction
      · exact .inr (.inr same)
      · exact .inr (.inl (l.fractionDigits c fraction))

theorem Literal.others (l : Literal) : ∀ c ∈ l.text, Text.isLetter c = false := by
  intro c member
  rcases l.mem_text c member with signed | digit | rfl
  · have word := Token.isAlphanumeric_of_isOperatorChar (Token.isOperatorChar_of_isSign signed)
    rw [Text.isAlphanumeric, Bool.or_eq_false_iff] at word
    exact word.2
  · exact Text.isLetter_of_isDigit digit
  · rfl

theorem Literal.visible (l : Literal) : ∀ c ∈ l.text, Text.isBlank c = false := by
  intro c member
  rcases l.mem_text c member with signed | digit | rfl
  · exact Token.isBlank_of_isOperatorChar (Token.isOperatorChar_of_isSign signed)
  · exact Text.isBlank_of_isAlphanumeric (Text.isAlphanumeric_of_isDigit digit)
  · rfl

/-! What follows a token -/

/-- The text is at its end or goes on with a blank. -/
def Parted (r : List Char) : Prop := Stops (fun c => !Text.isBlank c) r

theorem parted_gap (g : Gap) {r : List Char} (apart : g.chars ≠ [] ∨ r = []) :
    Parted (g.chars ++ r) := by
  cases here : g.chars with
  | nil =>
    rw [apart.resolve_left (not_not.mpr here)]
    exact Text.stops_nil _
  | cons c cs =>
    have blank := g.blank c (by rw [here]; exact List.mem_cons_self)
    exact Text.stops_cons (by rw [blank]; rfl) _

theorem Parted.word {r : List Char} (parted : Parted r) : Stops Text.isAlphanumeric r := by
  apply Text.stops_mono _ parted
  intro c inside
  rw [Text.isBlank_of_isAlphanumeric inside]
  rfl

theorem Parted.opens {r : List Char} (parted : Parted r) : Token.opensNumber r = false := by
  cases r with
  | nil => rfl
  | cons c cs =>
    have outside := parted.word c cs rfl
    have digit : Text.isDigit c = false := by
      rw [Text.isAlphanumeric, Bool.or_eq_false_iff] at outside
      exact outside.1
    have point : (c == '.') = false := by
      rw [beq_eq_false_iff_ne]
      rintro rfl
      have blank := parted '.' cs rfl
      cases blank
    rw [Token.opensNumber, digit, point]
    rfl

namespace Spelled

theorem parted {before : Before} {ts : List Token} {r : List Char} (spelled : Spelled before ts r)
    (inside : before ≠ .start) (word : before ≠ .number true) : Parted r := by
  cases spelled with
  | done before trail =>
    rw [← List.append_nil trail.chars]
    exact parted_gap trail (.inr rfl)
  | token gap apart letters more =>
    apply parted_gap gap
    rcases apart with blanks | start | ⟨number, _⟩
    · exact .inl blanks
    · exact absurd start inside
    · exact absurd number word

theorem endsNumber {ts : List Token} {r : List Char} (spelled : Spelled (.number true) ts r)
    (nonempty : ∀ t ∈ ts, t.text ≠ []) : EndsNumber r := by
  cases spelled with
  | done before trail =>
    have ends := endsAmount_gap trail endsAmount_nil
    rw [List.append_nil] at ends
    exact ends.number
  | token gap apart letters more =>
    rename_i t ts word rest
    cases here : gap.chars with
    | cons c cs =>
      exact (endsAmount_blank (gap.blank c (by rw [here]; exact List.mem_cons_self)) _).number
    | nil =>
      -- then a word of letters touches the number
      rcases apart with blanks | start | ⟨_, small⟩
      · exact absurd here blanks
      · cases start
      · have small := (letters.all_iff Text.isLetter_toLower).mp small
        cases word with
        | nil =>
          have length := letters.length_eq
          exact absurd (List.length_eq_zero_iff.mp length) (nonempty t List.mem_cons_self)
        | cons c cs =>
          have letter := small c List.mem_cons_self
          constructor
          · exact Text.stops_cons (Text.isDigit_of_isLetter letter) _
          · apply Text.stops_cons
            rw [beq_eq_false_iff_ne]
            rintro rfl
            cases letter

end Spelled

/-! The same tokens again -/

namespace Token

theorem kind_ofWord (word : List Char) (position : Nat) (attached : Bool) :
    (ofWord word position attached).kind ≠ .number := by
  unfold ofWord
  split
  · exact TokenKind.noConfusion
  · exact TokenKind.noConfusion

theorem first_spelled {before : Before} {t : Token} {word rest : List Char}
    (placed : Placed before t) (letters : SameLetters t.text word)
    (touching : before.touchesNumber = true → ∀ c ∈ t.text, Text.isLetter c = true)
    (number : t.kind = .number → EndsNumber rest) (other : t.kind ≠ .number → Parted rest)
    (position : Nat) :
    ∃ u, first before position (word ++ rest) = .ok u ∧ t.Alike u ∧ u.text.length = word.length ∧
      Stops Text.isBlank (word ++ rest) := by
  cases placed with
  | operator known origin =>
    rename_i c
    have outside := isAlphanumeric_of_isOperatorChar known
    rw [Text.isAlphanumeric, Bool.or_eq_false_iff] at outside
    obtain rfl := letters.eq_of_others (List.forall_mem_singleton.mpr outside.2)
    have opens := (other TokenKind.noConfusion).opens
    refine ⟨⟨.operator, [c], position, false⟩, ?_, ⟨rfl, letters, fun _ => rfl⟩, rfl,
      Text.stops_cons (isBlank_of_isOperatorChar known) rest⟩
    simp [first, known, opens]
  | number signed pointed origin =>
    rename_i l
    obtain rfl := letters.eq_of_others l.others
    exact ⟨_, first_number signed pointed position (number rfl), ⟨rfl, letters, fun _ => rfl⟩, rfl,
      l.stops_text rest⟩
  | word nonempty inside opens origin attached =>
    rename_i written
    have same : SameLetters written word := (sameLetters_ofWord written origin attached).trans letters
    have inside := (same.all_iff Text.isAlphanumeric_toLower).mp inside
    have opens := opens.imp_right (same.head_iff Text.isLetter_toLower).mp
    have parted := other (kind_ofWord written origin attached)
    have nonempty : word ≠ [] := by
      intro empty
      have length := same.length_eq
      rw [empty] at length
      exact nonempty (List.length_eq_zero_iff.mp length)
    have visible : Stops Text.isBlank (word ++ rest) := by
      cases word with
      | nil => exact absurd rfl nonempty
      | cons c cs =>
        exact Text.stops_cons (Text.isBlank_of_isAlphanumeric (inside c List.mem_cons_self)) _
    cases touches : before.touchesNumber with
    | true =>
      have small := (letters.all_iff Text.isLetter_toLower).mp (touching touches)
      refine ⟨ofWord word position true, ?_, alike_ofWord same _ _ _ _,
        (sameLetters_ofWord word position true).length_eq.symm, visible⟩
      rw [beq_iff_eq.mp touches]
      exact first_touching position nonempty small parted.word
    | false =>
      exact ⟨ofWord word position false, first_word touches position nonempty inside opens parted.word,
        alike_ofWord same _ _ _ _, (sameLetters_ofWord word position false).length_eq.symm, visible⟩

theorem text_ne_nil_of_scan {before : Before} {position : Nat} {cs : List Char} {ts : List Token}
    (scanned : scan before position cs = .ok ts) : ∀ t ∈ ts, t.text ≠ [] := by
  induction ts generalizing before position cs with
  | nil =>
    intro t member
    cases member
  | cons t ts ih =>
    obtain ⟨placed, next, r, rest⟩ := placed_of_scan scanned
    intro u member
    rcases List.mem_cons.mp member with rfl | member
    · exact placed.ne_nil
    · exact ih rest u member

/-- The tokens that a text is spelled from are found in it. -/
theorem scan_spelled {before : Before} {ts : List Token} {cs original : List Char} {origin : Nat}
    (spelled : Spelled before ts cs) (scanned : scan before origin original = .ok ts)
    (position : Nat) :
    ∃ us, scan before position cs = .ok us ∧ List.Forall₂ Alike ts us := by
  induction spelled generalizing origin original position with
  | done before trail => exact ⟨[], scan_trail trail before position, .nil⟩
  | token gap apart letters more ih =>
    rename_i before t ts word rest
    obtain ⟨placed, next, r, scanned⟩ := placed_of_scan scanned
    have placed := placed.elsewhere (before.admitsSign_past gap) (before.isNumber_past gap)
    have touching : (before.past gap).touchesNumber = true → ∀ c ∈ t.text, Text.isLetter c = true := by
      intro touches
      rcases apart with blanks | start | ⟨_, small⟩
      · rw [Before.past_of_ne_nil before blanks] at touches
        cases before <;> cases touches
      · rw [start] at touches
        unfold Before.past at touches
        split at touches <;> cases touches
      · exact small
    have number : t.kind = .number → EndsNumber rest := by
      intro kind
      rw [kind] at more scanned
      exact more.endsNumber (text_ne_nil_of_scan scanned)
    have other : t.kind ≠ .number → Parted rest := by
      intro kind
      apply more.parted
      · cases same : t.kind <;> exact Before.noConfusion
      · cases same : t.kind <;> first | exact absurd same kind | exact Before.noConfusion
    obtain ⟨u, read, alike, length, visible⟩ :=
      first_spelled placed letters touching number other (position + gap.chars.length)
    have nonempty : word ≠ [] := by
      intro empty
      have length := letters.length_eq
      rw [empty] at length
      exact placed.ne_nil (List.length_eq_zero_iff.mp length)
    obtain ⟨us, rescanned, others⟩ := ih scanned (position + gap.chars.length + word.length)
    refine ⟨u :: us, ?_, .cons alike others⟩
    rw [scan_gap, scan_lexeme read visible nonempty length, ← alike.kind, rescanned]
    rfl

end Token

/-! The same reading -/

namespace Expression

variable {ts us : List Token}

theorem assetSymbol_of_sameLetters {word word' : List Char} {s : String}
    (same : SameLetters word word') (read : assetSymbol word = .ok s) :
    assetSymbol word' = .ok s := by
  unfold assetSymbol at read ⊢
  rw [← same.capitals_eq]
  dsimp only at read ⊢
  split at read
  · rename_i asset
    rw [if_pos asset]
    exact read
  · cases read

theorem readTerm_alike (alike : List.Forall₂ Token.Alike ts us) {term : Term} {rest : List Token}
    (found : readTerm ts = .ok (term, rest)) :
    ∃ rest', readTerm us = .ok (term, rest') ∧ List.Forall₂ Token.Alike rest rest' := by
  cases alike with
  | nil => cases found
  | cons first more =>
    rw [readTerm] at found ⊢
    rw [← first.kind]
    split at found
    · cases found
    · rename_i number
      rw [if_neg number]
      rw [not_not] at number
      rw [← first.same (by rw [number]; exact TokenKind.noConfusion)]
      obtain ⟨value, literal, found⟩ := ok_of_bind found
      rw [literal]
      cases more with
      | nil =>
        cases found
        exact ⟨[], rfl, .nil⟩
      | cons second rest =>
        dsimp only [bind, Except.bind] at found ⊢
        rw [← second.kind]
        split at found
        · rename_i word
          rw [if_pos word]
          obtain ⟨symbol, asset, found⟩ := ok_of_bind found
          cases found
          rw [assetSymbol_of_sameLetters second.letters asset]
          exact ⟨_, rfl, rest⟩
        · rename_i other
          rw [if_neg other]
          cases found
          exact ⟨_, rfl, .cons second rest⟩

theorem readTerms_alike {fuel : Nat} (alike : List.Forall₂ Token.Alike ts us) {terms : List Term}
    {operators : List Operator} (found : readTerms fuel ts = .ok (terms, operators)) :
    readTerms fuel us = .ok (terms, operators) := by
  induction fuel generalizing ts us terms operators with
  | zero => cases found
  | succ fuel ih =>
    rw [readTerms] at found ⊢
    obtain ⟨⟨term, rest⟩, first, found⟩ := ok_of_bind found
    obtain ⟨rest', first', alike⟩ := readTerm_alike alike first
    rw [first']
    cases alike with
    | nil => exact found
    | cons operator more =>
      dsimp only [bind, Except.bind] at found ⊢
      rw [← operator.kind]
      split at found
      · cases found
      · rename_i kind
        rw [if_neg kind]
        rw [not_not] at kind
        obtain ⟨⟨terms', operators'⟩, later, found⟩ := ok_of_bind found
        rw [ih more later, ← operator.same (by rw [kind]; exact TokenKind.noConfusion)]
        exact found

/-- No keyword is left in front of the target. -/
theorem plain_of_split {head : List Token} {target : Option String}
    (split : splitTarget ts = .ok (head, target)) : ∀ t ∈ head, t.kind ≠ .keyword := by
  unfold splitTarget at split
  dsimp only at split
  split at split
  · rename_i behind
    cases split
    rw [List.dropWhile_eq_nil_iff] at behind
    intro t member
    simpa using behind t member
  · split at split
    · cases split
    · split at split
      · cases split
      · split at split
        · cases split
        · split at split
          · cases split
          · split at split
            · cases split
            · cases split
              intro t member
              simpa using List.mem_takeWhile_imp member
      · cases split

theorem plain_alike (alike : List.Forall₂ Token.Alike ts us) (plain : ∀ t ∈ ts, t.kind ≠ .keyword) :
    ∀ u ∈ us, u.kind ≠ .keyword := by
  induction alike with
  | nil =>
    intro u member
    cases member
  | cons first more ih =>
    intro u member
    rcases List.mem_cons.mp member with rfl | member
    · rw [← first.kind]
      exact plain _ List.mem_cons_self
    · exact ih (fun t inside => plain t (List.mem_cons_of_mem _ inside)) u member

theorem splitTarget_alike (alike : List.Forall₂ Token.Alike ts us) {head : List Token}
    {target : Option String} (split : splitTarget ts = .ok (head, target)) (some : head ≠ []) :
    ∃ head', splitTarget us = .ok (head', target) ∧ List.Forall₂ Token.Alike head head' := by
  have plain := plain_of_split split
  rcases target_of_split split with ⟨rfl, rfl⟩ | ⟨mark, code, fiat, rfl, keyword, word, read, rfl⟩
  · exact ⟨us, splitTarget_plain (plain_alike alike plain), alike⟩
  · have before := List.forall₂_take head.length alike
    have behind := List.forall₂_drop head.length alike
    rw [List.take_left] at before
    rw [List.drop_left] at behind
    rw [← List.take_append_drop head.length us]
    generalize us.take head.length = head' at before ⊢
    generalize us.drop head.length = rest at behind ⊢
    cases behind with
    | cons first more =>
      cases more with
      | cons second none =>
        cases none
        rename_i mark' code'
        have some' : head' ≠ [] := by
          intro empty
          rw [empty] at before
          cases before
          exact some rfl
        have read' : Symbol.readCurrency "target" (String.ofList code'.text) = .ok fiat := by
          apply Symbol.readCurrency_of_sameLetters _ read
          rw [String.toList_ofList, String.toList_ofList]
          exact second.letters
        refine ⟨head', ?_, before⟩
        exact splitTarget_target (plain_alike before plain) some' (first.kind ▸ keyword)
          (second.kind ▸ word) read'

theorem passes_alike {text text' : String} {terms : List Term} {operators : List Operator}
    {target : Option String} (alike : List.Forall₂ Token.Alike ts us)
    (scanned : Token.ofText text = .ok ts) (scanned' : Token.ofText text' = .ok us)
    (passes : Passes text terms operators target) : Passes text' terms operators target := by
  obtain ⟨written, ⟨ts', head, scanned'', split, found⟩, added, held⟩ := passes
  rw [scanned] at scanned''
  cases scanned''
  have some : head ≠ [] := by
    rintro rfl
    cases found
  obtain ⟨head', split', heads⟩ := splitTarget_alike alike split some
  refine ⟨?_, ⟨us, head', scanned', split', ?_⟩, added, held⟩
  · by_contra unwritten
    rw [Bool.not_eq_false] at unwritten
    have blank : ∀ c ∈ text'.toList, Text.isBlank c = true := by
      intro c member
      by_contra visible
      rw [Bool.not_eq_true] at visible
      rw [trimChars_of_visible member visible] at unwritten
      cases unwritten
    -- without a character of its own the text has no token
    have nothing := Token.scan_trail ⟨text'.toList, blank⟩ .start 0
    rw [← Token.ofText, scanned'] at nothing
    cases nothing
    cases split'
    cases heads
    exact some rfl
  · rw [← heads.length_eq]
    exact readTerms_alike heads found

/-- Of two texts with the same tokens the same is read. -/
theorem read_alike {text text' default : String} {e : Expression}
    (alike : List.Forall₂ Token.Alike ts us) (scanned : Token.ofText text = .ok ts)
    (scanned' : Token.ofText text' = .ok us) (found : read text default = .ok e) :
    read text' default = .ok e := by
  rcases read_cases text default with ⟨terms, operators, target, passes⟩ | ⟨cause, failed⟩
  · have passes' := passes_alike alike scanned scanned' passes
    rw [read_eq_of_passes passes] at found
    rw [read_eq_of_passes passes']
    exact found
  · rw [failed] at found
    cases found

/-- Spacing and case do not matter: if a text has tokens, any text that is spelled from them has
tokens of the same kinds, of which only words differ, and only in the case of their letters; and
with any default target both texts are read to the same expressions. -/
theorem read_spelled {text text' : String} {ts : List Token} (scanned : Token.ofText text = .ok ts)
    (spelled : Spelled .start ts text'.toList) :
    (∃ us, Token.ofText text' = .ok us ∧ List.Forall₂ Token.Alike ts us) ∧
      ∀ default e, read text' default = .ok e ↔ read text default = .ok e := by
  obtain ⟨us, scanned', alike⟩ := Token.scan_spelled spelled scanned 0
  refine ⟨⟨us, scanned', alike⟩, ?_⟩
  intro default e
  constructor
  · have back : List.Forall₂ Token.Alike us ts := (alike.imp fun _ _ both => both.symm).flip
    exact read_alike back scanned' scanned
  · exact read_alike alike scanned scanned'

/-- The tokens of `2 btc-.5 1inch`. -/
def coins : List Token :=
  [⟨.number, ['2'], 0, false⟩, ⟨.identifier, ['b', 't', 'c'], 2, false⟩,
    ⟨.operator, ['-'], 5, false⟩, ⟨.number, ['.', '5'], 6, false⟩,
    ⟨.identifier, ['1', 'i', 'n', 'c', 'h'], 9, false⟩]

theorem coins_spelled : Token.ofText "2 btc-.5 1inch" = .ok coins ∧
    Spelled .start coins "2BTC -\t.5 1Inch".toList ∧
    read "2BTC -\t.5 1Inch" "usd" =
      .ok ⟨[.asset ⟨false, 2, 0⟩ "BTC", .asset ⟨false, 5, -1⟩ "1INCH"], [.minus], "USD", false⟩ := by
  have scanned : Token.ofText "2 btc-.5 1inch" = .ok coins := ok_of_toOption (by decide +kernel)
  have blank : ∀ c ∈ [' '], Text.isBlank c = true := List.all_eq_true.mp rfl
  have tab : ∀ c ∈ ['\t'], Text.isBlank c = true := List.all_eq_true.mp rfl
  have symbol : Spelled (.number true) (coins.drop 4) ([' '] ++ ("1Inch".toList ++ [])) :=
    .token ⟨[' '], blank⟩ (.inl (List.cons_ne_nil _ _)) rfl (.done .word ⟨[], by simp⟩)
  have number : Spelled .operator (coins.drop 3) (['\t'] ++ (['.', '5'] ++ _)) :=
    .token ⟨['\t'], tab⟩ (.inl (List.cons_ne_nil _ _)) rfl symbol
  have operator : Spelled .word (coins.drop 2) ([' '] ++ (['-'] ++ _)) :=
    .token ⟨[' '], blank⟩ (.inl (List.cons_ne_nil _ _)) rfl number
  have letters : ∀ c ∈ ['b', 't', 'c'], Text.isLetter c = true := List.all_eq_true.mp rfl
  have touching : Spelled (.number true) (coins.drop 1) ([] ++ (['B', 'T', 'C'] ++ _)) :=
    .token ⟨[], by simp⟩ (.inr (.inr ⟨rfl, letters⟩)) rfl operator
  have whole : Spelled .start coins ([] ++ (['2'] ++ _)) :=
    .token ⟨[], by simp⟩ (.inr (.inl rfl)) rfl touching
  have spelled : Spelled .start coins "2BTC -\t.5 1Inch".toList := whole
  obtain ⟨_, same⟩ := read_spelled scanned spelled
  refine ⟨scanned, spelled, (same "usd" _).mpr ?_⟩
  exact ok_of_toOption (by decide +kernel)

end Expression
end QuoteDesk
