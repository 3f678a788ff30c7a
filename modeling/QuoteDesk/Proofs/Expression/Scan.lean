import QuoteDesk.Proofs.Expression.Lexeme

/-
The tokens of a whole text. The scanner goes over the gaps of a phrase and takes one
token for each of its parts; and the tokens it has read are those of lexemes with gaps
between them that make up the text.
-/
namespace QuoteDesk

open Text (Stops)

/-- The place behind a gap. -/
def Before.past (before : Before) (g : Gap) : Before :=
  if g.chars = [] then before else before.spaced

namespace Before

theorem past_of_ne_nil (before : Before) {g : Gap} (apart : g.chars ≠ []) :
    before.past g = before.spaced := by simp [past, apart]

theorem past_spaced (before : Before) (g : Gap) : before.spaced.past g = before.spaced := by
  unfold past
  split
  · rfl
  · cases before <;> rfl

theorem admitsSign_past (before : Before) (g : Gap) :
    (before.past g).admitsSign = before.admitsSign := by
  unfold past
  split
  · rfl
  · cases before <;> rfl

theorem word_past (g : Gap) : Before.word.past g = .word := by
  unfold past
  split <;> rfl

end Before

/-! The tokens of the parts of a phrase -/

namespace Amount

def tokens (a : Amount) (position : Nat) : List Token :=
  ⟨.number, a.literal.text, position, false⟩ :: a.suffix.elim [] fun s =>
    [⟨.identifier, s.word, position + a.literal.text.length + s.gap.chars.length,
      s.gap.chars.isEmpty⟩]

def after (a : Amount) : Before :=
  match a.suffix with
  | none => .number true
  | some _ => .word

theorem admitsSign_after (a : Amount) : a.after.admitsSign = false := by
  unfold after
  cases a.suffix <;> rfl

theorem after_of_held {a : Amount} (held : a.suffix ≠ none) : a.after = .word := by
  unfold after
  cases suffix : a.suffix with
  | none => exact absurd suffix held
  | some s => rfl

end Amount

def linkTokens (position : Nat) : List Link → List Token
  | [] => []
  | l :: ls =>
    ⟨.operator, [l.operator], position + l.before.chars.length, false⟩ ::
      (l.amount.tokens (position + l.before.chars.length + 1 + l.after.chars.length) ++
        linkTokens (position + l.text.length) ls)

def Target.tokens (t : Target) (position : Nat) : List Token :=
  [⟨.keyword, ['t', 'o'], position + t.before.chars.length, false⟩,
    ⟨.identifier, t.code,
      position + t.before.chars.length + t.keyword.length + t.between.chars.length, false⟩]

/-- The tokens before the target. -/
def Phrase.terms (p : Phrase) : List Token :=
  p.head.tokens p.lead.chars.length ++
    linkTokens (p.lead.chars.length + p.head.text.length) p.links

def Phrase.tokens (p : Phrase) : List Token :=
  p.terms ++ p.target.elim [] fun t =>
    t.tokens (p.lead.chars.length + p.head.text.length + (p.links.flatMap Link.text).length)

/-! Scanning a phrase -/

namespace Token

theorem scan_nil (before : Before) (position : Nat) : scan before position [] = .ok [] := by
  rw [scan.eq_def]

theorem scan_blank {c : Char} (blank : Text.isBlank c = true) (before : Before) (position : Nat)
    (cs : List Char) : scan before position (c :: cs) = scan before.spaced (position + 1) cs := by
  rw [scan.eq_def]
  dsimp only
  rw [if_pos blank]

theorem scan_blanks {cs : List Char} (blank : ∀ c ∈ cs, Text.isBlank c = true) (before : Before)
    (position : Nat) (r : List Char) :
    scan before position (cs ++ r) =
      scan (if cs = [] then before else before.spaced) (position + cs.length) r := by
  induction cs generalizing before position with
  | nil => rfl
  | cons c cs ih =>
    have rest := ih (fun d member => blank d (List.mem_cons_of_mem c member)) before.spaced
      (position + 1)
    have spaced : (if cs = [] then before.spaced else before.spaced.spaced) = before.spaced := by
      split
      · rfl
      · cases before <;> rfl
    rw [List.cons_append, scan_blank (blank c (by simp)), rest, spaced, if_neg (by simp),
      List.length_cons, Nat.add_comm cs.length 1, Nat.add_assoc]

theorem scan_gap (g : Gap) (before : Before) (position : Nat) (r : List Char) :
    scan before position (g.chars ++ r) = scan (before.past g) (position + g.chars.length) r :=
  scan_blanks g.blank before position r

theorem scan_visible {c : Char} (visible : Text.isBlank c = false) (before : Before)
    (position : Nat) (cs : List Char) :
    scan before position (c :: cs) = (first before position (c :: cs)).bind fun t =>
      (scan (.after t.kind) (position + t.text.length) (cs.drop (t.text.length - 1))).map
        (t :: ·) := by
  rw [scan.eq_def]
  dsimp only
  rw [if_neg (by simp [visible])]
  cases first before position (c :: cs) with
  | error e => rfl
  | ok t =>
    change (scan (.after t.kind) (position + t.text.length) (cs.drop (t.text.length - 1)) >>=
      fun rest => Except.ok (t :: rest)) = _
    cases rest : scan (.after t.kind) (position + t.text.length) (cs.drop (t.text.length - 1)) <;>
      simp only [Except.bind, rest] <;> rfl

theorem scan_lexeme {before : Before} {position : Nat} {lexeme r : List Char} {t : Token}
    (read : first before position (lexeme ++ r) = .ok t)
    (visible : Stops Text.isBlank (lexeme ++ r)) (nonempty : lexeme ≠ [])
    (length : t.text.length = lexeme.length) :
    scan before position (lexeme ++ r) =
      (scan (.after t.kind) (position + lexeme.length) r).map (t :: ·) := by
  cases lexeme with
  | nil => exact absurd rfl nonempty
  | cons c cs =>
    have rest : (cs ++ r).drop (t.text.length - 1) = r := by
      rw [length, List.length_cons, Nat.add_sub_cancel, List.drop_left]
    rw [List.cons_append] at read ⊢
    rw [scan_visible (visible c (cs ++ r) rfl), read, Except.bind, rest, length]

theorem ofWord_of_free {word : List Char} (free : isTo word = false) (position : Nat)
    (attached : Bool) : ofWord word position attached = ⟨.identifier, word, position, attached⟩ := by
  simp [ofWord, free]

theorem ofWord_of_to {word : List Char} (spelled : isTo word = true) (position : Nat)
    (attached : Bool) : ofWord word position attached = ⟨.keyword, ['t', 'o'], position, false⟩ := by
  simp [ofWord, spelled]

theorem scan_suffix (s : Suffix) (position : Nat) {r : List Char} (ends : EndsAmount r) :
    scan (.number true) position (s.text ++ r) =
      (scan .word (position + s.text.length) r).map
        (⟨.identifier, s.word, position + s.gap.chars.length, s.gap.chars.isEmpty⟩ :: ·) := by
  have visible := s.stops_word r
  rw [Suffix.text, List.append_assoc, scan_gap]
  have read : first ((Before.number true).past s.gap) (position + s.gap.chars.length)
      (s.word ++ r) = .ok ⟨.identifier, s.word, position + s.gap.chars.length,
        s.gap.chars.isEmpty⟩ := by
    rcases s.formed with ⟨touching, letters⟩ | ⟨apart, inside⟩
    · have past : (Before.number true).past s.gap = .number true := by
        simp [Before.past, touching]
      rw [past, first_touching _ s.word_ne_nil letters ends.word, ofWord_of_free s.free, touching]
      rfl
    · have attached : s.gap.chars.isEmpty = false := by simpa using apart
      rw [Before.past_of_ne_nil _ apart, attached, first_word rfl _ s.word_ne_nil inside
        (.inl rfl) ends.word, ofWord_of_free s.free]
  rw [scan_lexeme read visible s.word_ne_nil rfl, List.length_append, Nat.add_assoc]
  rfl

theorem scan_amount {before : Before} (free : before.admitsSign = true) (position : Nat)
    (a : Amount) {r : List Char} (ends : EndsAmount r) :
    scan before position (a.text ++ r) =
      (scan a.after (position + a.text.length) r).map (a.tokens position ++ ·) := by
  have nonempty : a.literal.text ≠ [] := by
    obtain ⟨c, cs, text, _⟩ := a.literal.text_eq_cons
    simp [text]
  have number : ∀ {s : List Char}, EndsNumber s → scan before position (a.literal.text ++ s) =
      (scan (.number true) (position + a.literal.text.length) s).map
        (⟨.number, a.literal.text, position, false⟩ :: ·) := by
    intro s ended
    exact scan_lexeme (first_literal free position a.literal ended) (a.literal.stops_text s)
      nonempty rfl
  cases suffix : a.suffix with
  | none =>
    simp only [Amount.text, Amount.after, Amount.tokens, suffix, Option.elim_none,
      List.append_nil, number ends.number]
    rfl
  | some s =>
    simp only [Amount.text, Amount.after, Amount.tokens, suffix, Option.elim_some,
      List.append_assoc, number (s.endsNumber_text r), scan_suffix s _ ends, List.length_append,
      Nat.add_assoc]
    cases scan .word (position + (a.literal.text.length + s.text.length)) r <;> rfl

theorem length_link (l : Link) :
    l.text.length = l.before.chars.length + 1 + l.after.chars.length + l.amount.text.length := by
  simp only [Link.text, List.length_append, List.length_cons]
  omega

theorem scan_link {before : Before} (bound : before.admitsSign = false) (position : Nat)
    (l : Link) {r : List Char} (ends : EndsAmount r) :
    scan before position (l.text ++ r) =
      (scan l.amount.after (position + l.text.length) r).map
        ((⟨.operator, [l.operator], position + l.before.chars.length, false⟩ ::
          l.amount.tokens (position + l.before.chars.length + 1 + l.after.chars.length)) ++ ·) := by
  have between : l.text ++ r =
      l.before.chars ++ ([l.operator] ++ (l.after.chars ++ (l.amount.text ++ r))) := by
    simp [Link.text]
  have read := first_operator ((before.admitsSign_past l.before).trans bound)
    (position + l.before.chars.length) l.known (l.after.chars ++ (l.amount.text ++ r))
  have visible : Stops Text.isBlank ([l.operator] ++ (l.after.chars ++ (l.amount.text ++ r))) :=
    Text.stops_cons (isBlank_of_isOperatorChar l.known) _
  have free : (Before.operator.past l.after).admitsSign = true :=
    Before.admitsSign_past .operator l.after
  rw [between, scan_gap, scan_lexeme read visible (by simp) rfl]
  simp only [Before.after, scan_gap, scan_amount free _ l.amount ends, List.length_singleton,
    length_link, Nat.add_assoc]
  cases scan l.amount.after (position + (l.before.chars.length +
    (1 + (l.after.chars.length + l.amount.text.length)))) r <;> rfl

theorem scan_links {before : Before} (bound : before.admitsSign = false) (position : Nat)
    (ls : List Link) {r : List Char} (ends : EndsAmount r) :
    scan before position (ls.flatMap Link.text ++ r) =
      (scan (ls.foldl (fun _ l => l.amount.after) before)
        (position + (ls.flatMap Link.text).length) r).map (linkTokens position ls ++ ·) := by
  induction ls generalizing before position with
  | nil =>
    simp only [List.flatMap_nil, List.nil_append, List.foldl_nil, List.length_nil, Nat.add_zero]
    cases scan before position r <;> rfl
  | cons l ls ih =>
    have rest := ih l.amount.admitsSign_after (position + l.text.length)
    simp only [List.flatMap_cons, List.append_assoc, List.foldl_cons, List.length_append,
      ← Nat.add_assoc]
    rw [scan_link bound position l (endsAmount_links ls ends), rest]
    cases scan (ls.foldl (fun _ l => l.amount.after) l.amount.after)
      (position + l.text.length + (ls.flatMap Link.text).length) r with
    | error e => rfl
    | ok ts => simp [Except.map, linkTokens]

theorem scan_trail (g : Gap) (before : Before) (position : Nat) :
    scan before position g.chars = .ok [] := by
  have scanned := scan_gap g before position []
  rw [List.append_nil] at scanned
  rw [scanned, scan_nil]

theorem scan_target (t : Target) (g : Gap) (position : Nat) :
    scan .word position (t.text ++ g.chars) = .ok (t.tokens position) := by
  have between : t.text ++ g.chars =
      t.before.chars ++ (t.keyword ++ (t.between.chars ++ (t.code ++ g.chars))) := by
    simp [Target.text]
  have keyword : t.keyword ≠ [] := by
    obtain ⟨c, cs, keyword, _⟩ := t.keyword_eq_cons
    simp [keyword]
  have code : t.code ≠ [] := by
    obtain ⟨c, cs, code, _⟩ := t.code_eq_cons
    simp [code]
  have two : t.keyword.length = 2 := by
    have lowered := congrArg List.length (beq_iff_eq.mp t.spelled)
    simpa using lowered
  have free : isTo t.code = false := by
    cases spelled : isTo t.code with
    | false => rfl
    | true =>
      have lowered := congrArg List.length (beq_iff_eq.mp spelled)
      simp [t.three] at lowered
  have inside : ∀ word : List Char, (∀ c ∈ word, Text.isLetter c = true) →
      ∀ c ∈ word, Text.isAlphanumeric c = true :=
    fun _ letters c member => Symbol.isAlphanumeric_of_isLetter (letters c member)
  have opens : ∀ word : List Char, (∀ c ∈ word, Text.isLetter c = true) →
      ∀ c ∈ word.head?, Text.isLetter c = true :=
    fun _ letters c first => letters c (List.mem_of_mem_head? first)
  have letters := isLetter_of_isTo t.spelled
  have ended : EndsAmount g.chars := by simpa using endsAmount_gap g endsAmount_nil
  rw [between, scan_gap, Before.word_past,
    scan_lexeme (first_word rfl _ keyword (inside _ letters) (.inr (opens _ letters))
      (t.endsAmount_between _).word) (t.stops_keyword _) keyword
      (by rw [ofWord_of_to t.spelled, two]; rfl),
    ofWord_of_to t.spelled]
  simp only [Before.after]
  rw [scan_gap, Before.word_past,
    scan_lexeme (first_word rfl _ code (inside _ t.letters) (.inr (opens _ t.letters)) ended.word)
      (t.stops_code _) code (by rw [ofWord_of_free free]),
    ofWord_of_free free]
  simp only [scan_trail]
  rfl

theorem after_links {p : Phrase} (portfolio : p.IsPortfolio) :
    p.links.foldl (fun _ l => l.amount.after) p.head.after = .word := by
  have held : ∀ l ∈ p.links, l.amount.suffix ≠ none := fun l member =>
    portfolio.held l.amount (List.mem_cons_of_mem _ (List.mem_map_of_mem member))
  have head : p.head.after = .word := Amount.after_of_held (portfolio.held p.head (by
    simp [Phrase.amounts]))
  rw [head]
  generalize p.links = ls at held
  induction ls with
  | nil => rfl
  | cons l ls ih =>
    rw [List.foldl_cons, Amount.after_of_held (held l (by simp))]
    exact ih fun m member => held m (List.mem_cons_of_mem l member)

/-- The scanner takes a phrase apart into the tokens of its parts. -/
theorem scan_phrase {p : Phrase} (kind : p.IsNumeric ∨ p.IsPortfolio) :
    scan .start 0 p.text = .ok p.tokens := by
  have free : (Before.start.past p.lead).admitsSign = true := Before.admitsSign_past .start p.lead
  have head := scan_amount free (0 + p.lead.chars.length) p.head
    (endsAmount_links p.links p.endsAmount_tail)
  have links := scan_links p.head.admitsSign_after
    (0 + p.lead.chars.length + p.head.text.length) p.links p.endsAmount_tail
  have tail : scan (p.links.foldl (fun _ l => l.amount.after) p.head.after)
      (0 + p.lead.chars.length + p.head.text.length + (p.links.flatMap Link.text).length) p.tail =
      .ok (p.target.elim [] fun t => t.tokens (0 + p.lead.chars.length + p.head.text.length +
        (p.links.flatMap Link.text).length)) := by
    unfold Phrase.tail
    cases target : p.target with
    | none => exact scan_trail p.trail _ _
    | some t =>
      rcases kind with numeric | portfolio
      · rw [numeric.untargeted] at target
        cases target
      · rw [after_links portfolio]
        exact scan_target t p.trail _
  rw [Phrase.text, scan_gap, head, links, tail]
  simp [Except.map, Phrase.tokens, Phrase.terms]

/-! From the tokens back to the text -/

theorem Lexeme.length_eq {before : Before} {t : Token} {lexeme r : List Char}
    (read : Lexeme before t lexeme r) : t.text.length = lexeme.length := by
  cases read with
  | operator known position r => rfl
  | number l stops position => rfl
  | word nonempty inside stops touching position attached =>
    cases spelled : isTo lexeme with
    | false => rw [ofWord_of_free spelled]
    | true =>
      have lowered := congrArg List.length (beq_iff_eq.mp spelled)
      rw [List.length_map] at lowered
      rw [ofWord_of_to spelled, lowered]

theorem Lexeme.ne_nil {before : Before} {t : Token} {lexeme r : List Char}
    (read : Lexeme before t lexeme r) : lexeme ≠ [] := by
  cases read with
  | operator known position r => simp
  | number l stops position =>
    obtain ⟨c, cs, text, _⟩ := l.text_eq_cons
    simp [text]
  | word nonempty inside stops touching position attached => exact nonempty

theorem first_of_scan {before : Before} {position : Nat} {c : Char} {cs : List Char}
    {ts : List Token} (visible : Text.isBlank c = false)
    (scanned : scan before position (c :: cs) = .ok ts) :
    ∃ t us, ts = t :: us ∧ first before position (c :: cs) = .ok t ∧
      scan (.after t.kind) (position + t.text.length) (cs.drop (t.text.length - 1)) = .ok us := by
  rw [scan_visible visible] at scanned
  obtain ⟨t, read, rest⟩ := ok_of_bind scanned
  obtain ⟨us, rest, same⟩ := ok_of_map rest
  exact ⟨t, us, same.symm, read, rest⟩

theorem blank_of_scan {before : Before} {position : Nat} {cs : List Char}
    (scanned : scan before position cs = .ok []) : ∀ c ∈ cs, Text.isBlank c = true := by
  induction cs generalizing before position with
  | nil =>
    intro c absurd
    cases absurd
  | cons c cs ih =>
    cases blank : Text.isBlank c with
    | false =>
      obtain ⟨t, us, absurd, _⟩ := first_of_scan blank scanned
      cases absurd
    | true =>
      rw [scan_blank blank] at scanned
      intro d member
      rcases List.mem_cons.mp member with rfl | member
      · exact blank
      · exact ih scanned d member

/-- The first token of a text is read behind a gap, and the others behind its characters. -/
theorem first_behind_gap {before : Before} {position : Nat} {cs : List Char} {t : Token}
    {ts : List Token} (scanned : scan before position cs = .ok (t :: ts)) :
    ∃ (g : Gap) (rest : List Char), cs = g.chars ++ rest ∧
      first (before.past g) (position + g.chars.length) rest = .ok t ∧
      scan (.after t.kind) (position + g.chars.length + t.text.length) (rest.drop t.text.length) =
        .ok ts := by
  -- blanks go to the gap one by one; the first other character begins the token
  induction cs generalizing before position with
  | nil =>
    rw [scan_nil] at scanned
    cases scanned
  | cons c cs ih =>
    cases blank : Text.isBlank c with
    | true =>
      rw [scan_blank blank] at scanned
      obtain ⟨g, rest, text, read, scanned⟩ := ih scanned
      have inside : ∀ d ∈ c :: g.chars, Text.isBlank d = true := List.forall_mem_cons.mpr ⟨blank, g.blank⟩
      have place : position + (c :: g.chars).length = position + 1 + g.chars.length := by
        rw [List.length_cons]
        omega
      refine ⟨⟨c :: g.chars, inside⟩, rest, by rw [text]; rfl, ?_, ?_⟩
      · rw [Before.past_spaced] at read
        rw [Before.past_of_ne_nil before (by simp), place]
        exact read
      · rw [place]
        exact scanned
    | false =>
      obtain ⟨u, us, same, read, scanned⟩ := first_of_scan blank scanned
      cases same
      obtain ⟨lexeme, r, text, found⟩ := lexeme_of_first read
      have nonempty := List.length_pos_iff.mpr found.ne_nil
      rw [← found.length_eq] at nonempty
      obtain ⟨n, length⟩ := Nat.exists_eq_succ_of_ne_zero nonempty.ne'
      refine ⟨⟨[], by simp⟩, c :: cs, rfl, read, ?_⟩
      rw [length] at scanned ⊢
      exact scanned

/-- The first token of a text is that of a lexeme behind a gap. -/
theorem lexeme_of_scan {before : Before} {position : Nat} {cs : List Char} {t : Token}
    {ts : List Token} (scanned : scan before position cs = .ok (t :: ts)) :
    ∃ (g : Gap) (lexeme r : List Char) (next : Nat), cs = g.chars ++ (lexeme ++ r) ∧
      Lexeme (before.past g) t lexeme r ∧ scan (.after t.kind) next r = .ok ts := by
  obtain ⟨g, rest, rfl, read, scanned⟩ := first_behind_gap scanned
  obtain ⟨lexeme, r, rfl, found⟩ := lexeme_of_first read
  rw [found.length_eq, List.drop_left] at scanned
  exact ⟨g, lexeme, r, _, rfl, found, scanned⟩

end Token
end QuoteDesk
