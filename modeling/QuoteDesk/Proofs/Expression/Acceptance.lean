import QuoteDesk.Proofs.Expression.Passes
import QuoteDesk.Proofs.Expression.Reading
import QuoteDesk.Proofs.Expression.Unambiguity

/-
What the reader accepts. A text is read to an expression of one mode exactly if the
grammar derives it, its derivation is unique, and the expression is the one that the
derivation spells out. All other texts are refused as expressions.
-/
namespace QuoteDesk

open Text (Stops)

namespace Expression

/-! The kind of a phrase -/

theorem isAsset_term (a : Amount) : a.term.isAsset = a.suffix.isSome := by
  unfold Amount.term
  cases a.suffix <;> rfl

theorem joinsAssets_ofText {c : Char} (known : Token.isOperatorChar c = true) :
    (Operator.ofText (String.singleton c)).joinsAssets = Token.isSign c := by
  rcases (Token.isOperatorChar_iff c).mp known with rfl | rfl | rfl | rfl <;> decide

theorem terms_numeric {p : Phrase} (numeric : p.IsNumeric) :
    (p.amounts.map Amount.term).any (·.isAsset) = false := by
  rw [List.any_eq_false]
  intro t member
  obtain ⟨a, inside, rfl⟩ := List.mem_map.mp member
  rw [isAsset_term, numeric.bare a inside]
  simp

theorem terms_portfolio {p : Phrase} (portfolio : p.IsPortfolio) :
    (p.amounts.map Amount.term).all (·.isAsset) = true := by
  rw [List.all_eq_true]
  intro t member
  obtain ⟨a, inside, rfl⟩ := List.mem_map.mp member
  rw [isAsset_term, Option.isSome_iff_ne_none]
  exact portfolio.held a inside

theorem mode_numeric {p : Phrase} (numeric : p.IsNumeric) (fiat : String) :
    (p.expression fiat).mode = .ok .numeric := by
  rw [mode_eq_numeric_iff]
  exact ⟨List.cons_ne_nil _ _, terms_numeric numeric⟩

theorem mode_portfolio {p : Phrase} (portfolio : p.IsPortfolio) (fiat : String) :
    (p.expression fiat).mode = .ok .asset := by
  rw [mode_eq_asset_iff]
  exact ⟨List.cons_ne_nil _ _, terms_portfolio portfolio⟩

/-! From a derivation to a reading -/

theorem trimChars_of_visible {cs : List Char} {c : Char} (member : c ∈ cs)
    (visible : Text.isBlank c = false) : (Text.trimChars cs).isEmpty = false := by
  have kept : ∀ ds : List Char, c ∈ ds → c ∈ ds.dropWhile Text.isBlank := by
    intro ds inside
    rw [← List.takeWhile_append_dropWhile (p := Text.isBlank) (l := ds), List.mem_append] at inside
    rcases inside with blank | inside
    · rw [List.mem_takeWhile_imp blank] at visible
      cases visible
    · exact inside
  have left := kept _ (List.mem_reverse.mpr (kept cs member))
  rw [List.isEmpty_eq_false_iff_exists_mem]
  exact ⟨c, List.mem_reverse.mpr left⟩

theorem plain_terms (p : Phrase) : ∀ t ∈ p.terms, t.kind ≠ .keyword := by
  have amount : ∀ (a : Amount) (position : Nat), ∀ t ∈ a.tokens position, t.kind ≠ .keyword := by
    intro a position t member
    unfold Amount.tokens at member
    cases suffix : a.suffix <;> simp only [suffix, Option.elim_none, Option.elim_some,
      List.mem_cons, List.not_mem_nil, or_false] at member
    · subst member
      simp
    · rcases member with rfl | rfl <;> simp
  have links : ∀ (ls : List Link) (position : Nat), ∀ t ∈ linkTokens position ls,
      t.kind ≠ .keyword := by
    intro ls
    induction ls with
    | nil =>
      intro position t member
      cases member
    | cons l ls ih =>
      intro position t member
      rcases List.mem_cons.mp member with rfl | member
      · simp
      · rcases List.mem_append.mp member with here | later
        · exact amount l.amount _ t here
        · exact ih _ t later
  intro t member
  rcases List.mem_append.mp member with here | later
  · exact amount p.head _ t here
  · exact links p.links _ t later

theorem splitTarget_tokens (p : Phrase) :
    splitTarget p.tokens = .ok (p.terms, p.target.map Target.fiat) := by
  unfold Phrase.tokens
  cases p.target with
  | none =>
    rw [Option.elim_none, List.append_nil]
    exact splitTarget_plain (plain_terms p)
  | some t =>
    have inside : ∀ c ∈ t.code, Text.isAlphanumeric c = true :=
      fun c member => Symbol.isAlphanumeric_of_isLetter (t.letters c member)
    refine splitTarget_target (plain_terms p) (by simp [Phrase.terms, Amount.tokens]) rfl rfl ?_
    rw [readCurrency_word "target" inside, if_pos ⟨t.three, List.all_eq_true.mpr t.letters⟩]
    rfl

theorem passes_of_derives {p : Phrase} {text : String} (derives : p.Derives text)
    (representable : p.Representable) :
    Passes text (p.amounts.map Amount.term)
      (p.operators.map fun c => .ofText (String.singleton c)) (p.target.map Target.fiat) := by
  obtain ⟨kind, written⟩ := derives
  refine ⟨?_, ⟨p.tokens, p.terms, ?_, splitTarget_tokens p, ?_⟩, ?_, ?_⟩
  · obtain ⟨c, cs, text, visible⟩ := p.head.literal.text_eq_cons
    rw [← written]
    refine trimChars_of_visible (c := c) ?_ visible
    simp [Phrase.text, Amount.text, text]
  · rw [Token.ofText, ← written]
    exact Token.scan_phrase kind
  · have enough : p.links.length < p.terms.length + 1 := by
      have each : ∀ (ls : List Link) (position : Nat),
          ls.length ≤ (linkTokens position ls).length := by
        intro ls
        induction ls with
        | nil => exact fun _ => Nat.le_refl 0
        | cons l ls ih =>
          intro position
          have more := ih (position + l.text.length)
          simp only [linkTokens, List.length_cons, List.length_append]
          omega
      have links := each p.links (p.lead.chars.length + p.head.text.length)
      simp only [Phrase.terms, List.length_append]
      omega
    have found := readTerms_links enough representable p.lead.chars.length
      (p.lead.chars.length + p.head.text.length)
    rw [Phrase.operators, List.map_map]
    exact found
  · intro asset
    rcases kind with numeric | portfolio
    · rw [terms_numeric numeric] at asset
      cases asset
    · rw [List.all_eq_true]
      intro op member
      simp only [Phrase.operators, List.map_map, List.mem_map] at member
      obtain ⟨l, link, rfl⟩ := member
      rw [Function.comp_apply, joinsAssets_ofText l.known]
      exact portfolio.added l.operator (List.mem_map_of_mem link)
  · intro explicit
    rcases kind with numeric | portfolio
    · simp [numeric.untargeted] at explicit
    · have all := List.all_eq_true.mp (terms_portfolio portfolio)
      exact List.any_eq_true.mpr ⟨p.head.term, by simp [Phrase.amounts],
        all _ (by simp [Phrase.amounts])⟩

/-- The text of a phrase is read to its expression. -/
theorem read_of_derives {p : Phrase} {text default fiat : String}
    (accepted : Symbol.readCurrency "default_fiat" default = .ok fiat)
    (derives : p.Derives text) (representable : p.Representable) :
    read text default = .ok (p.expression fiat) := by
  rw [read_of_passes accepted (passes_of_derives derives representable)]
  cases target : p.target <;> simp [Phrase.expression, target]

/-! From a reading to a derivation -/

theorem gap_ne_nil {g : Gap} {word r : List Char} (nonempty : word ≠ [])
    (inside : ∀ c ∈ word, Text.isAlphanumeric c = true)
    (stops : Stops Text.isAlphanumeric (g.chars ++ (word ++ r))) : g.chars ≠ [] := by
  intro touching
  rw [touching, List.nil_append] at stops
  cases word with
  | nil => exact nonempty rfl
  | cons c cs =>
    have outside := stops c (cs ++ r) rfl
    rw [inside c (by simp)] at outside
    cases outside

theorem target_of_scan {cs : List Char} {mark code : Token} {fiat : String}
    (scanned : Scans cs [mark, code]) (keyword : mark.kind = .keyword)
    (word : code.kind = .identifier)
    (read : Symbol.readCurrency "target" (String.ofList code.text) = .ok fiat)
    (apart : Stops Text.isAlphanumeric cs) :
    ∃ (t : Target) (g : Gap), cs = t.text ++ g.chars := by
  obtain ⟨before, position, scanned⟩ := scanned
  obtain ⟨g, lexeme, r, next, rfl, marked, rest⟩ := Token.lexeme_of_scan scanned
  cases marked with
  | operator known position r => cases keyword
  | number l stops position => cases keyword
  | word nonempty inside ended touching position attached =>
    cases spelled : Token.isTo lexeme with
    | false =>
      rw [Token.ofWord_of_free spelled] at keyword
      cases keyword
    | true =>
      obtain ⟨g', lexeme', r', next', rfl, coded, rest⟩ := Token.lexeme_of_scan rest
      cases coded with
      | operator known position r => cases word
      | number l stops position => cases word
      | word nonempty' inside' ended' touching' position' attached' =>
        cases free : Token.isTo lexeme' with
        | true =>
          rw [Token.ofWord_of_to free] at word
          cases word
        | false =>
          rw [Token.ofWord_of_free free, readCurrency_word "target" inside'] at read
          split at read
          · rename_i code
            refine ⟨⟨g, lexeme, g', lexeme', gap_ne_nil nonempty inside apart, spelled,
              gap_ne_nil nonempty' inside' ended, code.1, List.all_eq_true.mp code.2⟩,
              ⟨r', Token.blank_of_scan rest⟩, ?_⟩
            simp [Target.text]
          · cases read

theorem numeric_of_terms {p : Phrase} (bare : (p.amounts.map Amount.term).any (·.isAsset) = false)
    (untargeted : p.target = none) : p.IsNumeric := by
  refine ⟨?_, untargeted⟩
  intro a member
  rw [List.any_eq_false] at bare
  have number := bare a.term (List.mem_map_of_mem member)
  rw [isAsset_term] at number
  simpa using number

theorem portfolio_of_terms {p : Phrase} (held : (p.amounts.map Amount.term).all (·.isAsset) = true)
    (added : (p.amounts.map Amount.term).any (·.isAsset) = true →
      (p.links.map fun l => Operator.ofText (String.singleton l.operator)).all
        (·.joinsAssets) = true) : p.IsPortfolio := by
  rw [List.all_eq_true] at held
  have asset : ∀ a ∈ p.amounts, a.term.isAsset = true :=
    fun a member => held a.term (List.mem_map_of_mem member)
  have any : (p.amounts.map Amount.term).any (·.isAsset) = true :=
    List.any_eq_true.mpr ⟨p.head.term, by simp [Phrase.amounts], asset _ (by simp [Phrase.amounts])⟩
  refine ⟨?_, ?_⟩
  · intro a member
    rw [← Option.isSome_iff_ne_none, ← isAsset_term]
    exact asset a member
  · intro c member
    obtain ⟨l, link, rfl⟩ := List.mem_map.mp member
    rw [← joinsAssets_ofText l.known]
    exact List.all_eq_true.mp (added any) _ (List.mem_map_of_mem link)

/-- A text that gets through all passes with terms of one kind is that of a phrase. -/
theorem derives_of_passes {text : String} {terms : List Term} {operators : List Operator}
    {target : Option String} (passes : Passes text terms operators target)
    (uniform : terms.all (·.isAsset) = true ∨ terms.any (·.isAsset) = false) :
    ∃ p : Phrase, p.Derives text ∧ p.Representable := by
  obtain ⟨written, ⟨ts, head, scanned, split, found⟩, added, held⟩ := passes
  have scans : Scans text.toList ts := ⟨_, _, scanned⟩
  rcases target_of_split split with ⟨rfl, rfl⟩ | ⟨mark, code, fiat, rfl, keyword, word, read, rfl⟩
  · rw [← List.append_nil ts] at scans
    obtain ⟨⟨lead, head, links, rest, text, rfl, rfl, admissible, apart, _, _, ended⟩⟩ :=
      joined_of_readTerms scans found
    let p : Phrase := ⟨lead, head, links, none, ⟨rest, Token.blank_of_scan ended⟩⟩
    refine ⟨p, ⟨?_, text.symm⟩, admissible⟩
    rcases uniform with all | any
    · exact .inr (portfolio_of_terms (p := p) all added)
    · exact .inl (numeric_of_terms (p := p) any rfl)
  · obtain ⟨⟨lead, head, links, rest, text, rfl, rfl, admissible, apart, scans⟩⟩ :=
      joined_of_readTerms scans found
    -- a target is read with assets only, so a symbol stands before it and blanks divide them
    have any := held rfl
    have all := uniform.resolve_right (by rw [any]; exact Bool.noConfusion)
    have portfolio : (⟨lead, head, links, none, ⟨[], by simp⟩⟩ : Phrase).IsPortfolio :=
      portfolio_of_terms all added
    obtain ⟨t, g, rfl⟩ := target_of_scan scans keyword word read (apart portfolio.held)
    exact ⟨⟨lead, head, links, some t, g⟩, ⟨.inr ⟨portfolio.held, portfolio.added⟩, text.symm⟩,
      admissible⟩

/-! The grammar -/

/-- The size of the numbers matters only in a text longer than any that a machine holds. -/
theorem representable_of_length {p : Phrase} {text : String} (derives : p.Derives text)
    (short : text.length ≤ 10 ^ 18) : p.Representable := by
  intro a member
  have inside : a.literal.text.length ≤ p.text.length := by
    simp only [Phrase.text, List.length_append]
    rcases List.mem_cons.mp member with rfl | member
    · simp only [Amount.text, List.length_append]
      omega
    · obtain ⟨l, link, rfl⟩ := List.mem_map.mp member
      have part := (List.sublist_flatten_of_mem (List.mem_map_of_mem (f := Link.text) link)).length_le
      rw [← List.flatMap_def] at part
      simp only [Link.text, Amount.text, List.length_append, List.length_cons] at part ⊢
      omega
  rw [derives.2, String.length_toList] at inside
  exact a.literal.admissible_value (Nat.le_trans inside short)

theorem uniform_of_mode {e : Expression} {m : Mode} (mode : e.mode = .ok m) :
    e.terms.all (·.isAsset) = true ∨ e.terms.any (·.isAsset) = false := by
  cases m with
  | asset => exact .inl (e.mode_eq_asset_iff.mp mode).2
  | numeric => exact .inr (e.mode_eq_numeric_iff.mp mode).2

theorem mode_of_mixed {e : Expression}
    (mixed : ¬(e.terms.all (·.isAsset) = true ∨ e.terms.any (·.isAsset) = false)) :
    e.mode = .error (.mixedModes Fault.mixedModesMessage) := by
  rw [not_or, Bool.not_eq_true, Bool.not_eq_false] at mixed
  have nonempty : e.terms.isEmpty = false := by
    cases terms : e.terms with
    | nil => simp [terms] at mixed
    | cons t ts => rfl
  simp [mode, nonempty, mixed.1, mixed.2]

/-- A text is read to an expression of one mode exactly if the grammar derives it with
numbers that can be held, which in a text of up to 10 ^ 18 characters all can. It has
one derivation only, and the expression is the one spelled out by it. Any other text is
refused, by the reader or for mixing its terms. -/
theorem read_iff_derives {default fiat : String}
    (accepted : Symbol.readCurrency "default_fiat" default = .ok fiat) (text : String) :
    ((∃ e m, read text default = .ok e ∧ e.mode = .ok m) ↔
        ∃ p : Phrase, p.Derives text ∧ p.Representable) ∧
      (text.length ≤ 10 ^ 18 → ∀ p : Phrase, p.Derives text → p.Representable) ∧
      (∀ p q : Phrase, p.Derives text → q.Derives text → p = q) ∧
      (∀ p : Phrase, p.Derives text → p.Representable →
        read text default = .ok (p.expression fiat) ∧
          (p.IsNumeric → (p.expression fiat).mode = .ok .numeric) ∧
          (p.IsPortfolio → (p.expression fiat).mode = .ok .asset) ∧
          (p.expression fiat).operators.length + 1 = (p.expression fiat).terms.length) ∧
      ((¬∃ p : Phrase, p.Derives text ∧ p.Representable) →
        (∃ cause, read text default = .error (.expression cause)) ∨
          ∃ e, read text default = .ok e ∧
            e.mode = .error (.mixedModes Fault.mixedModesMessage)) := by
  refine ⟨⟨?_, ?_⟩, ?_, ?_, ?_, ?_⟩
  · rintro ⟨e, m, found, mode⟩
    rcases read_cases text default with ⟨terms, operators, target, passes⟩ | ⟨cause, failed⟩
    · rw [read_of_passes accepted passes] at found
      cases found
      exact derives_of_passes passes (uniform_of_mode mode)
    · rw [failed] at found
      cases found
  · rintro ⟨p, derives, representable⟩
    rcases derives.1 with numeric | portfolio
    · exact ⟨_, _, read_of_derives accepted derives representable, mode_numeric numeric fiat⟩
    · exact ⟨_, _, read_of_derives accepted derives representable, mode_portfolio portfolio fiat⟩
  · intro short p derives
    exact representable_of_length derives short
  · intro p q derives derives'
    exact Phrase.unique derives.1 derives'.1 (derives.2.trans derives'.2.symm)
  · intro p derives representable
    refine ⟨read_of_derives accepted derives representable, fun numeric => mode_numeric numeric fiat,
      fun portfolio => mode_portfolio portfolio fiat, ?_⟩
    simp [Phrase.expression, Phrase.operators, Phrase.amounts]
  · intro underivable
    rcases read_cases text default with ⟨terms, operators, target, passes⟩ | failed
    · refine .inr ⟨_, read_of_passes accepted passes, mode_of_mixed ?_⟩
      exact fun uniform => underivable (derives_of_passes passes uniform)
    · exact .inl failed

/-- Two amounts, the second with a sign of its own, and a target. -/
def spread : Phrase :=
  let nothing : Gap := ⟨[], by simp⟩
  let space : Gap := ⟨[' '], List.all_eq_true.mp rfl⟩
  { lead := nothing
    head :=
      { literal := ⟨none, ['1'], [], by simp, List.all_eq_true.mp rfl, by simp, by simp⟩
        suffix := some ⟨space, ['1', 'i', 'n', 'c', 'h'],
          .inr ⟨by simp [space], List.all_eq_true.mp rfl⟩, by simp, by simp, rfl⟩ }
    links := [{
      before := nothing
      operator := '-'
      after := nothing
      amount :=
        { literal := ⟨some '-', [], ['5'], by simp [Token.isSign], by simp,
            List.all_eq_true.mp rfl, by simp⟩
          suffix := some ⟨nothing, ['e', 't', 'h'], .inl ⟨rfl, List.all_eq_true.mp rfl⟩, by simp,
            by simp, rfl⟩ }
      known := rfl }]
    target := some ⟨space, ['T', 'o'], space, ['j', 'p', 'y'], by simp [space], rfl,
      by simp [space], rfl, List.all_eq_true.mp rfl⟩
    trail := nothing }

theorem read_spread : Symbol.readCurrency "default_fiat" " usd " = .ok "USD" ∧
    spread.Derives "1 1inch--.5eth To jpy" ∧
    read "1 1inch--.5eth To jpy" " usd " =
      .ok ⟨[.asset ⟨false, 1, 0⟩ "1INCH", .asset ⟨true, 5, -1⟩ "ETH"], [.minus], "JPY", true⟩ := by
  have accepted : Symbol.readCurrency "default_fiat" " usd " = .ok "USD" := by decide +kernel
  have derives : spread.Derives "1 1inch--.5eth To jpy" :=
    ⟨.inr ⟨by decide, List.all_eq_true.mp rfl⟩, by decide⟩
  obtain ⟨_, representable, _, spelled, _⟩ := read_iff_derives accepted "1 1inch--.5eth To jpy"
  have found := (spelled spread derives (representable (by decide) spread derives)).1
  exact ⟨accepted, derives, found⟩

end Expression
end QuoteDesk
