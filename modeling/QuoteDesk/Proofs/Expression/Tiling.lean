import QuoteDesk.Proofs.Expression.Spelling

/-
The tokens of a text in their places. They stand one behind the other with nothing but blanks around
them. Whether a number has a sign, a word opens with a digit or touches a number is settled by the
token right before it.
-/
namespace QuoteDesk

open Text (Stops SameLetters)

namespace Token

/-- The place right behind a token. -/
def ending (t : Token) : Nat := t.position + t.text.length

/-- What a text has in the place of a token. -/
def written (t : Token) (cs : List Char) : List Char := (cs.drop t.position).take t.text.length

/-- The token has the characters of the text; of the keyword the case may differ. -/
structure Spells (t : Token) (lexeme : List Char) : Prop where
  letters : SameLetters lexeme t.text
  same : t.kind ≠ .keyword → lexeme = t.text

/-- What a token can be behind another one, or as the first of a text. -/
inductive Fits (previous : Option Token) : Token → Prop where
  | operator {c : Char} (known : isOperatorChar c = true) (position : Nat) :
    Fits previous ⟨.operator, [c], position, false⟩
  | keyword (position : Nat) : Fits previous ⟨.keyword, ['t', 'o'], position, false⟩
  | number (l : Literal) (signed : l.sign ≠ none → ∀ u ∈ previous, u.kind = .operator)
    (position : Nat) : Fits previous ⟨.number, l.text, position, false⟩
  | identifier {word : List Char} {position : Nat} {attached : Bool} (nonempty : word ≠ [])
    (inside : ∀ c ∈ word, Text.isAlphanumeric c = true) (free : isTo word = false)
    (opens : ∀ c ∈ word.head?, Text.isDigit c = true → ∃ u ∈ previous, u.kind = .number)
    (touches : attached = true ↔ ∃ u ∈ previous, u.kind = .number ∧ u.ending = position)
    (letters : attached = true → ∀ c ∈ word, Text.isLetter c = true) :
    Fits previous ⟨.identifier, word, position, attached⟩

/-- The tokens tell all of a text but its blanks, each in its place. -/
structure Tiling (cs : List Char) (ts : List Token) : Prop where
  ordered : ts.Pairwise fun t u => t.position < u.position ∧ t.ending ≤ u.position
  inside : ∀ t ∈ ts, t.ending ≤ cs.length
  covers : ∀ i c, cs[i]? = some c →
    Text.isBlank c = true ∨ ∃ t ∈ ts, t.position ≤ i ∧ i < t.ending
  visible : ∀ t ∈ ts, ∀ c ∈ t.text, Text.isBlank c = false
  spells : ∀ t ∈ ts, t.Spells (t.written cs)
  fits : ∀ earlier t later, ts = earlier ++ t :: later → t.Fits earlier.getLast?

/-! One token -/

theorem Spells.length_eq {t : Token} {lexeme : List Char} (spells : t.Spells lexeme) :
    lexeme.length = t.text.length := spells.letters.length_eq

theorem spells_text (t : Token) : t.Spells t.text := ⟨.refl t.text, fun _ => rfl⟩

theorem spells_ofWord (word : List Char) (position : Nat) (attached : Bool) :
    (ofWord word position attached).Spells word := by
  refine ⟨sameLetters_ofWord word position attached, ?_⟩
  intro identifier
  cases spelled : isTo word with
  | true =>
    rw [ofWord_of_to spelled] at identifier
    exact absurd rfl identifier
  | false => rw [ofWord_of_free spelled]

theorem position_ofWord (word : List Char) (position : Nat) (attached : Bool) :
    (ofWord word position attached).position = position := by
  unfold ofWord
  split
  · rfl
  · rfl

theorem Fits.visible {previous : Option Token} {t : Token} (fits : t.Fits previous) :
    ∀ c ∈ t.text, Text.isBlank c = false := by
  intro c member
  cases fits with
  | operator known position =>
    rw [List.mem_singleton.mp member]
    exact isBlank_of_isOperatorChar known
  | keyword position =>
    have inside : ∀ c ∈ ['t', 'o'], Text.isAlphanumeric c = true := List.all_eq_true.mp rfl
    exact Text.isBlank_of_isAlphanumeric (inside c member)
  | number l signed position => exact l.visible c member
  | identifier nonempty inside free opens touches letters =>
    exact Text.isBlank_of_isAlphanumeric (inside c member)

theorem Fits.length_pos {previous : Option Token} {t : Token} (fits : t.Fits previous) :
    0 < t.text.length := by
  cases fits with
  | operator known position => exact Nat.one_pos
  | keyword position => exact Nat.two_pos
  | number l signed position =>
    obtain ⟨c, cs, text, _⟩ := l.text_eq_cons
    rw [text]
    exact Nat.succ_pos cs.length
  | identifier nonempty inside free opens touches letters => exact List.length_pos_of_ne_nil nonempty

/-- The word that was read is the keyword, or an identifier if it is in order as one. -/
theorem fits_ofWord {previous : Option Token} {word : List Char} {position : Nat} {attached : Bool}
    (identifier : isTo word = false → Fits previous ⟨.identifier, word, position, attached⟩) :
    (ofWord word position attached).Fits previous := by
  cases spelled : isTo word with
  | true =>
    rw [ofWord_of_to spelled]
    exact .keyword position
  | false =>
    rw [ofWord_of_free spelled]
    exact identifier spelled

end Token

/-! The place behind a token -/

namespace Before

/-- What stands before a position that no token but this one reaches. -/
def behind (previous : Option Token) (position : Nat) : Before :=
  match previous with
  | none => .start
  | some u =>
    match u.kind with
    | .operator => .operator
    | .number => .number (u.ending == position)
    | .identifier => .word
    | .keyword => .word

variable {previous : Option Token} {position : Nat}

theorem behind_ending (t : Token) : behind (some t) t.ending = .after t.kind := by
  cases kind : t.kind <;> simp [behind, after, kind]

theorem behind_past (passed : ∀ u ∈ previous, u.ending ≤ position) (g : Gap) :
    (behind previous position).past g = behind previous (position + g.chars.length) := by
  by_cases blanks : g.chars = []
  · rw [past, if_pos blanks, blanks, List.length_nil, Nat.add_zero]
  · rw [past_of_ne_nil _ blanks]
    cases previous with
    | none => rfl
    | some u =>
      have passed := passed u rfl
      have some := List.length_pos_iff.mpr blanks
      have apart : (u.ending == position + g.chars.length) = false := beq_false_of_ne (by omega)
      cases kind : u.kind <;> simp [behind, spaced, kind, apart]

theorem operator_of_admitsSign (admits : (behind previous position).admitsSign = true) :
    ∀ u ∈ previous, u.kind = .operator := by
  rintro u rfl
  cases kind : u.kind with
  | operator => rfl
  | number => simp [behind, kind, admitsSign] at admits
  | identifier => simp [behind, kind, admitsSign] at admits
  | keyword => simp [behind, kind, admitsSign] at admits

theorem isNumber_behind :
    (behind previous position).isNumber = true ↔ ∃ u ∈ previous, u.kind = .number := by
  cases previous with
  | none => simp [behind, isNumber]
  | some u => cases kind : u.kind <;> simp [behind, isNumber, kind]

theorem touchesNumber_behind : (behind previous position).touchesNumber = true ↔
    ∃ u ∈ previous, u.kind = .number ∧ u.ending = position := by
  cases previous with
  | none => simp [behind, touchesNumber]
  | some u => cases kind : u.kind <;> simp [behind, touchesNumber, kind]

end Before

open Before (behind)

/-! A token that was read -/

namespace Token

variable {previous : Option Token} {position : Nat} {t : Token} {lexeme r : List Char}

theorem Reads.position_eq {before : Before} (reads : Reads before position t lexeme r) :
    t.position = position := by
  cases reads with
  | operator known r => rfl
  | touching touches nonempty letters stops => exact position_ofWord lexeme position true
  | apart nonempty inside stops bound opens => exact position_ofWord lexeme position false
  | number l stops signed pointed => rfl

theorem Reads.spells {before : Before} (reads : Reads before position t lexeme r) :
    t.Spells lexeme := by
  cases reads with
  | operator known r => exact spells_text _
  | touching touches nonempty letters stops => exact spells_ofWord lexeme position true
  | apart nonempty inside stops bound opens => exact spells_ofWord lexeme position false
  | number l stops signed pointed => exact spells_text _

/-- All digits of a number are read with it. -/
theorem Reads.stops {before : Before} (reads : Reads before position t lexeme r)
    (number : t.kind = .number) : Stops Text.isDigit r := by
  cases reads with
  | operator known r => cases number
  | touching touches nonempty letters stops => exact absurd number (kind_ofWord lexeme position true)
  | apart nonempty inside stops bound opens =>
    exact absurd number (kind_ofWord lexeme position false)
  | number l stops signed pointed => exact stops

theorem Reads.fits (reads : Reads (behind previous position) position t lexeme r)
    (ended : (behind previous position).touchesNumber = true → Stops Text.isDigit (lexeme ++ r)) :
    t.Fits previous := by
  cases reads with
  | operator known r => exact .operator known position
  | touching touches nonempty letters stops =>
    apply fits_ofWord
    intro free
    refine .identifier nonempty ?_ free ?_ ?_ (fun _ => letters)
    · exact fun c member => Symbol.isAlphanumeric_of_isLetter (letters c member)
    · intro c first digit
      rw [Text.isDigit_of_isLetter (letters c (List.mem_of_mem_head? first))] at digit
      cases digit
    · exact iff_of_true rfl (Before.touchesNumber_behind.mp touches)
  | apart nonempty inside stops bound opens =>
    apply fits_ofWord
    intro free
    have parted : ¬ (behind previous position).touchesNumber = true := by
      -- a word that touches a number here opens with a digit, and the number has them all
      intro touches
      cases lexeme with
      | nil => exact nonempty rfl
      | cons c cs =>
        have digit := ended touches c (cs ++ r) rfl
        rw [bound touches c rfl] at digit
        cases digit
    refine .identifier nonempty inside free ?_ ?_ (fun touching => absurd touching Bool.false_ne_true)
    · intro c first digit
      rcases opens with number | letters
      · exact Before.isNumber_behind.mp number
      · rw [Text.isDigit_of_isLetter (letters c first)] at digit
        cases digit
    · rw [Before.touchesNumber_behind] at parted
      exact iff_of_false Bool.false_ne_true parted
  | number l stops signed pointed =>
    exact .number l (fun sign => Before.operator_of_admitsSign (signed sign)) position

/-! All tokens of a text -/

/-- The tokens of a text along the scanner's way, from a position on and behind the token before
it. -/
inductive Tiled : Option Token → Nat → List Char → List Token → Prop where
  | done (previous : Option Token) (position : Nat) (trail : Gap) :
    Tiled previous position trail.chars []
  | token {previous : Option Token} {position : Nat} {t : Token} {ts : List Token}
    {lexeme rest : List Char} (gap : Gap) (place : t.position = position + gap.chars.length)
    (spells : t.Spells lexeme) (fits : t.Fits previous) (more : Tiled (some t) t.ending rest ts) :
    Tiled previous position (gap.chars ++ (lexeme ++ rest)) (t :: ts)

theorem tiled_of_scan {cs : List Char} {ts : List Token}
    (scanned : scan (behind previous position) position cs = .ok ts)
    (passed : ∀ u ∈ previous, u.ending ≤ position)
    (ended : (behind previous position).touchesNumber = true → Stops Text.isDigit cs) :
    Tiled previous position cs ts := by
  induction ts generalizing previous position cs with
  | nil => exact .done previous position ⟨cs, blank_of_scan scanned⟩
  | cons t ts ih =>
    obtain ⟨g, rest, rfl, read, scanned⟩ := first_behind_gap scanned
    obtain ⟨lexeme, r, rfl, reads⟩ := reads_of_first read
    rw [Before.behind_past passed] at reads
    have ended : (behind previous (position + g.chars.length)).touchesNumber = true →
        Stops Text.isDigit (lexeme ++ r) := by
      intro touches
      obtain ⟨u, last, number, ending⟩ := Before.touchesNumber_behind.mp touches
      have near := passed u last
      have blanks : g.chars = [] := List.length_eq_zero_iff.mp (by omega)
      rw [blanks, List.length_nil, Nat.add_zero] at touches
      rw [blanks] at ended
      exact ended touches
    have place := reads.position_eq
    have next : position + g.chars.length + t.text.length = t.ending := by rw [← place]; rfl
    rw [next, ← reads.spells.length_eq, List.drop_left, ← Before.behind_ending] at scanned
    refine .token g place reads.spells (reads.fits ended) (ih scanned ?_ ?_)
    · rintro u ⟨⟩
      exact Nat.le_refl t.ending
    · intro touches
      obtain ⟨u, ⟨⟩, number, _⟩ := Before.touchesNumber_behind.mp touches
      exact reads.stops number

namespace Tiled

variable {cs : List Char} {ts : List Token}

theorem within (tiled : Tiled previous position cs ts) :
    ∀ t ∈ ts, position ≤ t.position ∧ t.ending ≤ position + cs.length := by
  induction tiled with
  | done previous position trail =>
    intro t member
    cases member
  | token gap place spells fits more ih =>
    rename_i t ts lexeme rest
    have ending : t.ending = t.position + t.text.length := rfl
    have length := spells.length_eq
    simp only [List.length_append]
    intro u member
    rcases List.mem_cons.mp member with rfl | member
    · omega
    · have later := ih u member
      omega

theorem ordered (tiled : Tiled previous position cs ts) :
    ts.Pairwise fun t u => t.position < u.position ∧ t.ending ≤ u.position := by
  induction tiled with
  | done previous position trail => exact .nil
  | token gap place spells fits more ih =>
    rename_i t ts lexeme rest
    refine .cons ?_ ih
    intro u member
    have later := (more.within u member).1
    have some := fits.length_pos
    have ending : t.ending = t.position + t.text.length := rfl
    exact ⟨by omega, later⟩

theorem covers (tiled : Tiled previous position cs ts) {i : Nat} {c : Char}
    (here : cs[i]? = some c) : Text.isBlank c = true ∨
      ∃ t ∈ ts, t.position ≤ position + i ∧ position + i < t.ending := by
  induction tiled generalizing i with
  | done previous position trail => exact .inl (trail.blank c (List.mem_of_getElem? here))
  | token gap place spells fits more ih =>
    rename_i t ts lexeme rest
    have ending : t.ending = t.position + t.text.length := rfl
    have length := spells.length_eq
    by_cases before : i < gap.chars.length
    · rw [List.getElem?_append_left before] at here
      exact .inl (gap.blank c (List.mem_of_getElem? here))
    · rw [List.getElem?_append_right (by omega)] at here
      by_cases inside : i - gap.chars.length < lexeme.length
      · exact .inr ⟨t, List.mem_cons_self, by omega, by omega⟩
      · rw [List.getElem?_append_right (by omega)] at here
        rcases ih here with blank | ⟨u, member, starts, ends⟩
        · exact .inl blank
        · exact .inr ⟨u, List.mem_cons_of_mem t member, by omega, by omega⟩

/-- Each token has its place in the text, and is in order behind the one before it. -/
theorem place_of_split {earlier later : List Token}
    (tiled : Tiled previous position cs (earlier ++ t :: later)) :
    ∃ front lexeme rest : List Char, cs = front ++ (lexeme ++ rest) ∧
      t.position = position + front.length ∧ t.Spells lexeme ∧
      t.Fits (earlier.getLast?.or previous) := by
  induction earlier generalizing previous position cs with
  | nil =>
    cases tiled with
    | token gap place spells fits more => exact ⟨gap.chars, _, _, rfl, place, spells, fits⟩
  | cons e earlier ih =>
    cases tiled with
    | token gap place spells fits more =>
      rename_i word rest
      obtain ⟨front, lexeme, behind, rfl, place', spells', fits'⟩ := ih more
      have length := spells.length_eq
      have ending : e.ending = e.position + e.text.length := rfl
      refine ⟨gap.chars ++ (word ++ front), lexeme, behind, ?_, ?_, spells', ?_⟩
      · simp only [List.append_assoc]
      · simp only [List.length_append]
        omega
      · have last : (e :: earlier).getLast?.or previous = earlier.getLast?.or (some e) := by
          rw [List.getLast?_cons]
          cases earlier.getLast? <;> rfl
        rwa [last]

end Tiled

/-- The tokens of a text tile it: in their order they lie apart, each with the characters of the text
in its place and none of them a blank, and what no token covers is blank; and each is in order behind
the one before it. -/
theorem ofText_tiling {text : String} {ts : List Token} (read : ofText text = .ok ts) :
    Tiling text.toList ts := by
  have scanned : scan (behind none 0) 0 text.toList = .ok ts := read
  have tiled : Tiled none 0 text.toList ts := by
    apply tiled_of_scan scanned
    · intro u absurd
      cases absurd
    · intro absurd
      cases absurd
  have placed : ∀ earlier t later, ts = earlier ++ t :: later →
      t.Spells (t.written text.toList) ∧ t.Fits earlier.getLast? := by
    rintro earlier t later rfl
    obtain ⟨front, lexeme, rest, same, place, spells, fits⟩ := tiled.place_of_split
    rw [Nat.zero_add] at place
    rw [Option.or_none] at fits
    have written : t.written text.toList = lexeme := by
      rw [written, same, place, List.drop_left, ← spells.length_eq, List.take_left]
    exact ⟨written.symm ▸ spells, fits⟩
  constructor
  · exact tiled.ordered
  · intro t member
    have last := (tiled.within t member).2
    rwa [Nat.zero_add] at last
  · intro i c here
    have covered := tiled.covers here
    rwa [Nat.zero_add] at covered
  · intro t member
    obtain ⟨earlier, later, split⟩ := List.append_of_mem member
    exact (placed earlier t later split).2.visible
  · intro t member
    obtain ⟨earlier, later, split⟩ := List.append_of_mem member
    exact (placed earlier t later split).1
  · intro earlier t later split
    exact (placed earlier t later split).2

/-- The tokens of `1btc - -.5 1inch TO usd`. -/
def exchanged : List Token :=
  [⟨.number, ['1'], 0, false⟩, ⟨.identifier, ['b', 't', 'c'], 1, true⟩,
    ⟨.operator, ['-'], 5, false⟩, ⟨.number, ['-', '.', '5'], 7, false⟩,
    ⟨.identifier, ['1', 'i', 'n', 'c', 'h'], 11, false⟩, ⟨.keyword, ['t', 'o'], 17, false⟩,
    ⟨.identifier, ['u', 's', 'd'], 20, false⟩]

theorem exchanged_tiling : ofText "1btc - -.5 1inch TO usd" = .ok exchanged ∧
    Tiling "1btc - -.5 1inch TO usd".toList exchanged := by
  have scanned : ofText "1btc - -.5 1inch TO usd" = .ok exchanged :=
    ok_of_toOption (by decide +kernel)
  exact ⟨scanned, ofText_tiling scanned⟩

end Token

end QuoteDesk
