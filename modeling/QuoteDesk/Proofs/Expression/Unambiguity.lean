import QuoteDesk.Proofs.Expression.Grammar

/-
A text has at most one phrase. Two phrases with one text are compared from the left,
part by part: each part is a run of one class of characters, and what follows a part
never goes on in its class.
-/
namespace QuoteDesk

open Text (Stops)

theorem Literal.unique {l l' : Literal} {r r' : List Char} (ends : EndsNumber r)
    (ends' : EndsNumber r') (same : l.text ++ r = l'.text ++ r') : l = l' ∧ r = r' := by
  simp only [text, List.append_assoc] at same
  obtain ⟨signs, bodies⟩ := Text.run_unique
    (by intro c member; exact l.signed c (Option.mem_toList.mp member))
    (by intro c member; exact l'.signed c (Option.mem_toList.mp member))
    (l.stops_sign r) (l'.stops_sign r') same
  simp only [body, List.append_assoc] at bodies
  have stops : ∀ k : Literal, ∀ s, EndsNumber s → Stops Text.isDigit (k.point ++ s) := by
    intro k s ends
    unfold point
    split
    · exact ends.digits
    · exact Text.stops_cons (by decide) _
  obtain ⟨wholes, points⟩ := Text.run_unique l.wholeDigits l'.wholeDigits
    (stops l r ends) (stops l' r' ends') bodies
  have sign : l.sign = l'.sign := by
    cases here : l.sign <;> cases here' : l'.sign <;> simp_all
  by_cases empty : l.fraction = [] <;> by_cases empty' : l'.fraction = []
  · simp only [point, empty, empty', ↓reduceIte, List.nil_append] at points
    exact ⟨Literal.ext sign wholes (empty.trans empty'.symm), points⟩
  · simp only [point, empty, empty', ↓reduceIte, List.nil_append, List.cons_append] at points
    have absurd := ends.point _ _ points
    cases absurd
  · simp only [point, empty, empty', ↓reduceIte, List.nil_append, List.cons_append] at points
    have absurd := ends'.point _ _ points.symm
    cases absurd
  · simp only [point, empty, empty', ↓reduceIte, List.cons_append, List.cons.injEq,
      true_and] at points
    obtain ⟨fractions, rest⟩ := Text.run_unique l.fractionDigits l'.fractionDigits
      ends.digits ends'.digits points
    exact ⟨Literal.ext sign wholes fractions, rest⟩

theorem gap_unique {g g' : Gap} {r r' : List Char} (stops : Stops Text.isBlank r)
    (stops' : Stops Text.isBlank r') (same : g.chars ++ r = g'.chars ++ r') :
    g = g' ∧ r = r' := by
  obtain ⟨chars, rest⟩ := Text.run_unique g.blank g'.blank stops stops' same
  exact ⟨Gap.ext chars, rest⟩

theorem Suffix.unique {s s' : Suffix} {r r' : List Char} (ends : EndsAmount r)
    (ends' : EndsAmount r') (same : s.text ++ r = s'.text ++ r') : s = s' ∧ r = r' := by
  simp only [text, List.append_assoc] at same
  obtain ⟨gap, words⟩ := gap_unique (s.stops_word r) (s'.stops_word r') same
  obtain ⟨word, rest⟩ :=
    Text.run_unique s.alphanumeric s'.alphanumeric ends.word ends'.word words
  exact ⟨Suffix.ext gap word, rest⟩

/-- What follows an amount ends its last word, and brings no word after a gap if the
amount is bare. -/
structure Amount.Ends (a : Amount) (r : List Char) : Prop where
  amount : EndsAmount r
  wordless : a.suffix = none → Stops Text.isAlphanumeric (r.dropWhile Text.isBlank)

theorem Suffix.not_wordless (s : Suffix) (r : List Char)
    (wordless : Stops Text.isAlphanumeric ((s.text ++ r).dropWhile Text.isBlank)) : False := by
  rw [text, List.append_assoc, Text.dropWhile_run s.gap.blank (s.stops_word r)] at wordless
  cases word : s.word with
  | nil => exact s.word_ne_nil word
  | cons c cs =>
    have outside := wordless c (cs ++ r) (by rw [word]; rfl)
    rw [s.alphanumeric c (by simp [word])] at outside
    cases outside

theorem Amount.unique {a a' : Amount} {r r' : List Char} (ends : a.Ends r) (ends' : a'.Ends r')
    (same : a.text ++ r = a'.text ++ r') : a = a' ∧ r = r' := by
  simp only [text, List.append_assoc] at same
  -- a bare amount and one with a symbol cannot share a text: the symbol would follow the bare one
  cases bare : a.suffix with
  | none =>
    simp only [bare, Option.elim_none, List.nil_append] at same
    cases bare' : a'.suffix with
    | none =>
      simp only [bare', Option.elim_none, List.nil_append] at same
      obtain ⟨literal, rest⟩ := Literal.unique ends.amount.number ends'.amount.number same
      exact ⟨Amount.ext literal (bare.trans bare'.symm), rest⟩
    | some s' =>
      simp only [bare', Option.elim_some] at same
      obtain ⟨_, rest⟩ := Literal.unique ends.amount.number (s'.endsNumber_text r') same
      exact (s'.not_wordless r' (rest ▸ ends.wordless bare)).elim
  | some s =>
    simp only [bare, Option.elim_some] at same
    cases bare' : a'.suffix with
    | none =>
      simp only [bare', Option.elim_none, List.nil_append] at same
      obtain ⟨_, rest⟩ := Literal.unique (s.endsNumber_text r) ends'.amount.number same
      exact (s.not_wordless r (rest ▸ ends'.wordless bare')).elim
    | some s' =>
      simp only [bare', Option.elim_some] at same
      obtain ⟨literal, suffixes⟩ :=
        Literal.unique (s.endsNumber_text r) (s'.endsNumber_text r') same
      obtain ⟨suffix, rest⟩ := Suffix.unique ends.amount ends'.amount suffixes
      subst suffix
      exact ⟨Amount.ext literal (bare.trans bare'.symm), rest⟩

/-- An amount that may stand anywhere before the tail, whatever links come between. -/
def Amount.Closed (a : Amount) (tail : List Char) : Prop :=
  ∀ links : List Link, a.Ends (links.flatMap Link.text ++ tail)

theorem Link.stops_operator (l : Link) (r : List Char) :
    Stops Text.isBlank (l.operator :: (l.after.chars ++ (l.amount.text ++ r))) :=
  Text.stops_cons (Token.isBlank_of_isOperatorChar l.known) _

theorem Link.text_append (l : Link) (r : List Char) :
    l.text ++ r = l.before.chars ++ l.operator :: (l.after.chars ++ (l.amount.text ++ r)) := by
  simp [text]

theorem Link.not_over (l : Link) (r : List Char)
    (ended : Stops Token.isOperatorChar ((l.text ++ r).dropWhile Text.isBlank)) : False := by
  rw [l.text_append, Text.dropWhile_run l.before.blank (l.stops_operator r)] at ended
  have outside := ended _ _ rfl
  rw [l.known] at outside
  cases outside

theorem links_unique {ls ls' : List Link} {tail tail' : List Char}
    (closed : ∀ l ∈ ls, l.amount.Closed tail) (closed' : ∀ l ∈ ls', l.amount.Closed tail')
    (ended : Stops Token.isOperatorChar (tail.dropWhile Text.isBlank))
    (ended' : Stops Token.isOperatorChar (tail'.dropWhile Text.isBlank))
    (same : ls.flatMap Link.text ++ tail = ls'.flatMap Link.text ++ tail') :
    ls = ls' ∧ tail = tail' := by
  induction ls generalizing ls' with
  | nil =>
    cases ls' with
    | nil => exact ⟨rfl, same⟩
    | cons l' ls' =>
      simp only [List.flatMap_nil, List.nil_append, List.flatMap_cons, List.append_assoc] at same
      exact (l'.not_over _ (same ▸ ended)).elim
  | cons l ls ih =>
    cases ls' with
    | nil =>
      simp only [List.flatMap_nil, List.nil_append, List.flatMap_cons, List.append_assoc] at same
      exact (l.not_over _ (same ▸ ended')).elim
    | cons l' ls' =>
      simp only [List.flatMap_cons, Link.text, List.append_assoc, List.cons_append] at same
      obtain ⟨before, same⟩ := gap_unique (l.stops_operator _) (l'.stops_operator _) same
      obtain ⟨operator, same⟩ := List.cons.inj same
      obtain ⟨after, same⟩ := gap_unique (l.amount.stops_text _) (l'.amount.stops_text _) same
      obtain ⟨amount, same⟩ :=
        Amount.unique (closed l (by simp) ls) (closed' l' (by simp) ls') same
      obtain ⟨links, tails⟩ := ih (fun m member => closed m (by simp [member]))
        (fun m member => closed' m (by simp [member])) same
      exact ⟨by rw [Link.ext before operator after amount, links], tails⟩

/-! The end of a phrase -/

theorem Target.text_append (t : Target) (r : List Char) :
    t.text ++ r = t.before.chars ++ (t.keyword ++ (t.between.chars ++ (t.code ++ r))) := by
  simp [text]

theorem Target.stops_operator (t : Target) (r : List Char) :
    Stops Token.isOperatorChar ((t.text ++ r).dropWhile Text.isBlank) := by
  rw [t.text_append, Text.dropWhile_run t.before.blank (t.stops_keyword _)]
  obtain ⟨c, cs, keyword, letter⟩ := t.keyword_eq_cons
  rw [keyword]
  exact Text.stops_cons (Token.isOperatorChar_of_isAlphanumeric
    (Symbol.isAlphanumeric_of_isLetter letter)) _

theorem Target.not_blank (t : Target) (r : List Char)
    (blank : ∀ c ∈ t.text ++ r, Text.isBlank c = true) : False := by
  obtain ⟨c, cs, keyword, letter⟩ := t.keyword_eq_cons
  have inside := blank c (by simp [text, keyword])
  rw [Text.isBlank_of_isAlphanumeric (Symbol.isAlphanumeric_of_isLetter letter)] at inside
  cases inside

theorem Target.unique {t t' : Target} {g g' : Gap}
    (same : t.text ++ g.chars = t'.text ++ g'.chars) : t = t' ∧ g = g' := by
  simp only [text_append] at same
  obtain ⟨before, same⟩ := gap_unique (t.stops_keyword _) (t'.stops_keyword _) same
  obtain ⟨keyword, same⟩ := Text.run_unique (Token.isLetter_of_isTo t.spelled)
    (Token.isLetter_of_isTo t'.spelled) (t.stops_between _) (t'.stops_between _) same
  obtain ⟨between, same⟩ := gap_unique (t.stops_code _) (t'.stops_code _) same
  have trail : ∀ k : Gap, Stops Text.isLetter k.chars := fun k =>
    Text.stops_mono (fun _ => Symbol.isAlphanumeric_of_isLetter)
      (by simpa using (endsAmount_gap k endsAmount_nil).word)
  obtain ⟨code, chars⟩ := Text.run_unique t.letters t'.letters (trail g) (trail g') same
  exact ⟨Target.ext before keyword between code, Gap.ext chars⟩

namespace Phrase

theorem over_tail (p : Phrase) : Stops Token.isOperatorChar (p.tail.dropWhile Text.isBlank) := by
  unfold tail
  cases p.target with
  | some t => exact t.stops_operator _
  | none =>
    have trail := Text.dropWhile_run p.trail.blank (Text.stops_nil _)
    simp only [List.append_nil] at trail
    simpa [trail] using Text.stops_nil _

theorem tail_unique {p q : Phrase} (same : p.tail = q.tail) :
    p.target = q.target ∧ p.trail = q.trail := by
  unfold tail at same
  cases here : p.target with
  | none =>
    cases here' : q.target with
    | none =>
      simp only [here, here', Option.elim_none, List.nil_append] at same
      exact ⟨rfl, Gap.ext same⟩
    | some t' =>
      simp only [here, here', Option.elim_none, Option.elim_some, List.nil_append] at same
      exact (t'.not_blank _ (same ▸ p.trail.blank)).elim
  | some t =>
    cases here' : q.target with
    | none =>
      simp only [here, here', Option.elim_none, Option.elim_some, List.nil_append] at same
      exact (t.not_blank _ (same ▸ q.trail.blank)).elim
    | some t' =>
      simp only [here, here', Option.elim_some] at same
      obtain ⟨target, trail⟩ := Target.unique same
      exact ⟨by rw [target], trail⟩

/-- In a phrase of one kind every amount may be followed by any links: with a symbol its
word is ended, and a bare one finds only an operator or the end behind the blanks. -/
theorem closed_of_kind {p : Phrase} (kind : p.IsNumeric ∨ p.IsPortfolio) :
    ∀ a ∈ p.amounts, a.Closed p.tail := by
  intro a member links
  refine ⟨endsAmount_links links p.endsAmount_tail, ?_⟩
  intro bare
  rcases kind with numeric | portfolio
  · cases links with
    | nil =>
      have trail := Text.dropWhile_run p.trail.blank (Text.stops_nil _)
      simp only [List.append_nil] at trail
      simpa [tail, numeric.untargeted, trail] using Text.stops_nil _
    | cons l ls =>
      rw [List.flatMap_cons, List.append_assoc, l.text_append,
        Text.dropWhile_run l.before.blank (l.stops_operator _)]
      exact (endsAmount_operator l.known _).word
  · exact absurd bare (portfolio.held a member)

theorem unique {p q : Phrase} (kind : p.IsNumeric ∨ p.IsPortfolio)
    (kind' : q.IsNumeric ∨ q.IsPortfolio) (same : p.text = q.text) : p = q := by
  have closed := closed_of_kind kind
  have closed' := closed_of_kind kind'
  unfold text at same
  obtain ⟨lead, same⟩ := gap_unique (p.head.stops_text _) (q.head.stops_text _) same
  obtain ⟨head, same⟩ := Amount.unique (closed p.head (by simp [amounts]) p.links)
    (closed' q.head (by simp [amounts]) q.links) same
  obtain ⟨links, same⟩ := links_unique
    (fun l member => closed l.amount (List.mem_cons_of_mem _ (List.mem_map_of_mem member)))
    (fun l member => closed' l.amount (List.mem_cons_of_mem _ (List.mem_map_of_mem member)))
    p.over_tail q.over_tail same
  obtain ⟨target, trail⟩ := tail_unique same
  exact Phrase.ext lead head links target trail

end Phrase
end QuoteDesk
