import Mathlib.Data.List.Basic
import QuoteDesk.Arguments
import QuoteDesk.Proofs.Expression.Passes
import QuoteDesk.Proofs.Expression.Reading

/-
Expressions as arguments of the command line. A text that opens with a minus is a value there
only if it is a negative number and nothing else, or if it has a space in it; an expression may
begin with a negative number and go on without one. Behind an equals sign any text is a value.
-/
namespace QuoteDesk

/-! What may follow the first number of an expression -/

/-- A number that is written ends before this character. -/
def BreaksFigure (c : Char) : Prop :=
  Text.isBlank c = true ∨ Token.isOperatorChar c = true ∨ Text.isLetter c = true

namespace BreaksFigure

/-- The code points of blanks, operators and letters. -/
def ranges : List (Nat × Nat) :=
  [(0x09, 0x0d), (0x1c, 0x20), (0x2a, 0x2d), (0x2f, 0x2f), (0x41, 0x5a), (0x61, 0x7a),
   (0x85, 0x85), (0xa0, 0xa0), (0x1680, 0x1680), (0x2000, 0x200a), (0x2028, 0x2029),
   (0x202f, 0x202f), (0x205f, 0x205f), (0x3000, 0x3000)]

theorem range_of {c : Char} (breaks : BreaksFigure c) :
    ∃ r ∈ ranges, r.1 ≤ c.toNat ∧ c.toNat ≤ r.2 := by
  simp only [ranges, List.mem_cons, List.not_mem_nil, or_false, exists_eq_or_imp, exists_eq_left]
  rcases breaks with blank | operator | letter
  · simp only [Text.isBlank, Bool.or_eq_true, Bool.and_eq_true, decide_eq_true_eq,
      beq_iff_eq] at blank
    omega
  · rcases (Token.isOperatorChar_iff c).mp operator with rfl | rfl | rfl | rfl <;> decide
  · rw [Text.isLetter_iff] at letter
    omega

theorem zeros_apart : ∀ z ∈ Text.digitZeros, ∀ r ∈ ranges, z + 10 ≤ r.1 ∨ r.2 < z := by
  decide

/-- It is no digit of any script. -/
theorem isDecimalDigit {c : Char} (breaks : BreaksFigure c) :
    Arguments.isDecimalDigit c = false := by
  obtain ⟨r, listed, low, high⟩ := breaks.range_of
  have none : Text.digitValue? c = none := by
    rw [Text.digitValue?, Option.map_eq_none_iff, List.find?_eq_none]
    intro z zero within
    simp only [Bool.and_eq_true, decide_eq_true_eq] at within
    have apart := zeros_apart z zero r listed
    omega
  rw [Arguments.isDecimalDigit, none]
  rfl

theorem ne_point {c : Char} (breaks : BreaksFigure c) : c ≠ '.' := by
  rintro rfl
  rcases breaks with absurd | absurd | absurd <;> cases absurd

end BreaksFigure

/-- The text is at its end or breaks off a number before it. -/
def EndsFigure (r : List Char) : Prop := ∀ c more, r = c :: more → BreaksFigure c

theorem endsFigure_nil : EndsFigure [] := by
  intro c more absurd
  cases absurd

theorem endsFigure_cons {c : Char} (breaks : BreaksFigure c) (more : List Char) :
    EndsFigure (c :: more) := by
  intro d rest same
  cases same
  exact breaks

theorem endsFigure_blanks {cs : List Char} (blank : ∀ c ∈ cs, Text.isBlank c = true)
    {r : List Char} (ends : EndsFigure r) : EndsFigure (cs ++ r) := by
  cases cs with
  | nil => exact ends
  | cons c cs => exact endsFigure_cons (.inl (blank c (by simp))) _

theorem endsFigure_suffix (s : Suffix) (r : List Char) : EndsFigure (s.text ++ r) := by
  rw [Suffix.text, List.append_assoc]
  rcases s.formed with ⟨_, letters⟩ | ⟨apart, _⟩
  · refine endsFigure_blanks s.gap.blank ?_
    cases word : s.word with
    | nil => exact absurd word s.word_ne_nil
    | cons c cs => exact endsFigure_cons (.inr (.inr (letters c (by simp [word])))) _
  · cases gap : s.gap.chars with
    | nil => exact absurd gap apart
    | cons c cs => exact endsFigure_cons (.inl (s.gap.blank c (by simp [gap]))) _

theorem endsFigure_link (l : Link) (r : List Char) : EndsFigure (l.text ++ r) := by
  rw [Link.text, List.append_assoc]
  exact endsFigure_blanks l.before.blank (endsFigure_cons (.inr (.inl l.known)) _)

/-- A text that is read begins with a number, be it behind a gap. -/
theorem Expression.figure_of_read {text default : String} {e : Expression}
    (found : read text default = .ok e) :
    ∃ (lead : Gap) (l : Literal) (r : List Char),
      text.toList = lead.chars ++ (l.text ++ r) ∧ EndsFigure r := by
  obtain ⟨target, passes, _⟩ := passes_of_read found
  obtain ⟨ts, head, scanned, split, joined⟩ := passes.tokens
  have tail : ∃ tail, ts = head ++ tail ∧ (target = none → tail = []) := by
    rcases target_of_split split with ⟨rfl, rfl⟩ | ⟨mark, code, fiat, rfl, _, _, _, rfl⟩
    · exact ⟨[], by simp, fun _ => rfl⟩
    · exact ⟨[mark, code], rfl, fun absurd => by cases absurd⟩
  obtain ⟨tail, rfl, untargeted⟩ := tail
  obtain ⟨⟨lead, first, links, rest, text_eq, terms_eq, _, _, _, scans⟩⟩ :=
    joined_of_readTerms ⟨.start, 0, scanned⟩ joined
  rw [Amount.text, List.append_assoc] at text_eq
  refine ⟨lead, first.literal, _, text_eq, ?_⟩
  cases suffix : first.suffix with
  | some s => exact endsFigure_suffix s _
  | none =>
    rw [Option.elim_none, List.nil_append]
    cases links with
    | cons l ls =>
      rw [List.flatMap_cons, List.append_assoc]
      exact endsFigure_link l _
    | nil =>
      -- one bare number has no target behind it, so that only blanks are left
      have bare : e.terms.any (·.isAsset) = false := by
        simp [terms_eq, Amount.term, suffix, Term.isAsset]
      have none : target = none := by
        cases named : target with
        | none => rfl
        | some fiat =>
          rw [passes.held (by rw [named]; rfl)] at bare
          cases bare
      rw [untargeted none] at scans
      obtain ⟨before, position, scanned⟩ := scans
      have ended := endsFigure_blanks (Token.blank_of_scan scanned) endsFigure_nil
      simpa using ended

theorem Literal.body_ne_nil (l : Literal) : l.body ≠ [] :=
  (l.stops_body (p := fun _ => false) (fun _ _ => rfl) rfl []).2

/-- The minus that a number opens with is its sign. -/
theorem Literal.sign_of_minus {l : Literal} {r : List Char}
    (minus : (l.text ++ r).head? = some '-') : l.sign = some '-' := by
  cases sign : l.sign with
  | some c =>
    rw [text, sign] at minus
    exact minus
  | none =>
    obtain ⟨c, cs, body⟩ := List.exists_cons_of_ne_nil l.body_ne_nil
    rw [text, sign, body] at minus
    cases minus
    rcases Token.opens_of_body body with absurd | absurd <;> cases absurd

/-- No gap stands before a number whose minus opens the text. -/
theorem Expression.minus_of_read {text default : String} {e : Expression}
    (found : read text default = .ok e) (minus : text.toList.head? = some '-') :
    ∃ (l : Literal) (r : List Char), text.toList = l.text ++ r ∧ EndsFigure r := by
  obtain ⟨lead, l, r, here, ends⟩ := figure_of_read found
  cases gap : lead.chars with
  | nil => exact ⟨l, r, by rw [here, gap, List.nil_append], ends⟩
  | cons c cs =>
    have blank := lead.blank c (by simp [gap])
    rw [here, gap] at minus
    cases minus
    cases blank

namespace Arguments

theorem isDecimalDigit_of_isDigit {c : Char} (digit : Text.isDigit c = true) :
    isDecimalDigit c = true := by
  rw [Text.isDigit_iff] at digit
  rw [isDecimalDigit, Text.digitValue?, Option.isSome_map, List.find?_isSome]
  refine ⟨0x30, by decide, ?_⟩
  simp only [Bool.and_eq_true, decide_eq_true_eq]
  omega

/-! Negative numbers -/

/-- A text without one line break at its end. -/
def withoutBreak (cs : List Char) : List Char :=
  if cs.getLast? = some '\n' then cs.dropLast else cs

/-- Digits, or a point with digits after it. -/
def isFigure (cs : List Char) : Bool :=
  match cs.dropWhile isDecimalDigit with
  | [] => !cs.isEmpty
  | '.' :: fraction => !fraction.isEmpty && fraction.all isDecimalDigit
  | _ => false

theorem isNegativeNumber_minus (cs : List Char) :
    isNegativeNumber ('-' :: cs) = isFigure (withoutBreak cs) := rfl

theorem isFigure_body (l : Literal) {r : List Char} (ends : EndsFigure r) :
    isFigure (l.body ++ r) = r.isEmpty := by
  have whole : ∀ c ∈ l.whole, isDecimalDigit c = true := fun c member =>
    isDecimalDigit_of_isDigit (l.wholeDigits c member)
  have fraction : l.fraction.all isDecimalDigit = true := by
    rw [List.all_eq_true]
    exact fun c member => isDecimalDigit_of_isDigit (l.fractionDigits c member)
  rw [isFigure, Literal.body, List.append_assoc, List.dropWhile_append_of_pos whole, Literal.point]
  by_cases empty : l.fraction = []
  · have digits : l.whole ≠ [] := by simpa [empty] using l.digits
    cases r with
    | nil => simp [empty, digits]
    | cons c more =>
      have breaks := ends c more rfl
      have point := breaks.ne_point
      simp only [empty, ↓reduceIte, List.nil_append, List.dropWhile_cons, breaks.isDecimalDigit,
        Bool.false_eq_true, List.isEmpty_cons]
      split
      · rename_i absurd
        cases absurd
      · rename_i same
        cases same
        exact absurd rfl point
      · rfl
  · have stops : isDecimalDigit '.' = false := by decide
    cases r with
    | nil => simp [empty, stops, fraction]
    | cons c more =>
      have breaks := ends c more rfl
      simp [empty, stops, breaks.isDecimalDigit]

theorem getLast?_body (l : Literal) : l.body.getLast? ≠ some '\n' := by
  intro last
  have member := List.mem_of_getLast? last
  rw [Literal.body, List.mem_append] at member
  rcases member with whole | point
  · cases l.wholeDigits _ whole
  · unfold Literal.point at point
    split at point
    · cases point
    · rcases List.mem_cons.mp point with absurd | fraction
      · cases absurd
      · cases l.fractionDigits _ fraction

theorem withoutBreak_body (l : Literal) (r : List Char) :
    withoutBreak (l.body ++ r) = l.body ++ withoutBreak r := by
  unfold withoutBreak
  rcases r.eq_nil_or_concat' with rfl | ⟨r, c, rfl⟩
  · simp [getLast?_body]
  · rw [← List.append_assoc, List.getLast?_concat, List.getLast?_concat, List.dropLast_concat,
      List.dropLast_concat]
    split
    · rfl
    · rw [List.append_assoc]

theorem endsFigure_withoutBreak {r : List Char} (ends : EndsFigure r) :
    EndsFigure (withoutBreak r) := by
  unfold withoutBreak
  split
  · intro c more here
    rcases r.eq_nil_or_concat' with rfl | ⟨r, d, rfl⟩
    · cases here
    · rw [List.dropLast_concat] at here
      exact ends c (more ++ [d]) (by rw [here]; rfl)
  · exact ends

theorem withoutBreak_eq_nil_iff (r : List Char) :
    withoutBreak r = [] ↔ r = [] ∨ r = ['\n'] := by
  unfold withoutBreak
  rcases r.eq_nil_or_concat' with rfl | ⟨r, c, rfl⟩
  · simp
  · split
    · rename_i last
      rw [List.getLast?_concat] at last
      cases last
      simp
    · rename_i last
      have other : r ++ [c] ≠ ['\n'] := by
        intro same
        rw [same] at last
        exact last rfl
      simp [other]

/-- A negative number with anything else behind it than a line break is none. -/
theorem isNegativeNumber_literal {l : Literal} (minus : l.sign = some '-') {r : List Char}
    (ends : EndsFigure r) : isNegativeNumber (l.text ++ r) = true ↔ r = [] ∨ r = ['\n'] := by
  have text : l.text ++ r = '-' :: (l.body ++ r) := by
    rw [Literal.text, minus]
    rfl
  rw [text, isNegativeNumber_minus, withoutBreak_body,
    isFigure_body l (endsFigure_withoutBreak ends), List.isEmpty_iff, withoutBreak_eq_nil_iff]

/-! Queries as arguments -/

/-- No option of the command is written with what a number may begin with. -/
theorem names_apart : ∀ n ∈ evaluateNames,
    n.toList.any (fun c => Text.isDigit c || c == '.') = false := by
  decide

theorem classify_plain (names : List String) {q : String} (plain : q.toList.head? ≠ some '-') :
    classify names q = .value q := by
  unfold classify
  split
  · rfl
  · rename_i here
    rw [here] at plain
    exact absurd rfl plain
  · rfl

/-- An argument that begins as a negative number is no option, be it cut or with a value. -/
theorem classify_number {q : String} {c : Char} {more : List Char}
    (minus : q.toList = '-' :: c :: more) (opens : Text.isDigit c = true ∨ c = '.') :
    classify evaluateNames q =
      if isNegativeNumber q.toList || q.toList.contains ' ' then .value q else .unknown := by
  have unnamed : ∀ (name : String) (rest : List Char), name.toList = '-' :: c :: rest →
      evaluateNames.contains name = false := by
    intro name rest here
    rw [Bool.eq_false_iff, ne_eq, List.contains_iff_mem]
    intro listed
    have apart := List.any_eq_false.mp (names_apart name listed) c (by simp [here])
    apply apart
    rw [Bool.or_eq_true, beq_iff_eq]
    exact opens
  have hyphen : c ≠ '-' := by
    rintro rfl
    rcases opens with absurd | absurd <;> cases absurd
  have help : c ≠ 'h' := by
    rintro rfl
    rcases opens with absurd | absurd <;> cases absurd
  have equals : c ≠ '=' := by
    rintro rfl
    rcases opens with absurd | absurd <;> cases absurd
  have unlisted : ∀ name value, splitEquals ('-' :: c :: more) = some (name, value) →
      evaluateNames.contains (String.ofList name) = false := by
    intro name value parts
    unfold splitEquals at parts
    split at parts
    · cases parts
      exact unnamed (String.ofList (('-' :: c :: more).takeWhile (· ≠ '=')))
        (more.takeWhile (· ≠ '=')) (by simp [equals])
    · cases parts
  have cut : candidates evaluateNames ('-' :: c :: more) = [] := by
    unfold candidates
    split
    · rename_i same
      cases same
      exact absurd rfl hyphen
    · rename_i same
      cases same
      exact absurd rfl help
    · rfl
  have lone : c :: more ≠ ['-'] := by
    intro same
    cases same
    exact hyphen rfl
  unfold classify
  rw [minus]
  cases parts : splitEquals ('-' :: c :: more) with
  | none =>
    simp only [lone, unnamed q more minus, parts, Option.bind_none, cut, ↓reduceIte,
      Bool.false_eq_true]
  | some part =>
    obtain ⟨name, value⟩ := part
    simp only [lone, unnamed q more minus, parts, Option.bind_some, unlisted name value parts, cut,
      ↓reduceIte, Bool.false_eq_true]

theorem classifyAll_single (names : List String) (arg : String) :
    classifyAll names [arg] = [classify names arg] := by
  unfold classifyAll
  split <;> simp_all [classifyAll]

theorem classifyAll_query (q : String) :
    classifyAll evaluateNames ["--query", q] =
      [.option "--query" none, classify evaluateNames q] := by
  rw [← classifyAll_single]
  rfl

theorem read_expr (args : List String) :
    read ("expr" :: args) = (do
      let c ← readOptions evaluateNames args
      let query ← required c "--query"
      finish c (.evaluate query (c.values.lookup "--default-fiat"))) := rfl

theorem read_value {q : String} (value : classify evaluateNames q = .value q) :
    read ["expr", "--query", q] = .ok ⟨.evaluate q none, .json⟩ := by
  rw [read_expr, readOptions, classifyAll_query, value]
  rfl

theorem read_unknown {q : String} (unknown : classify evaluateNames q = .unknown) :
    read ["expr", "--query", q] = .error .usage := by
  rw [read_expr, readOptions, classifyAll_query, unknown]
  rfl

theorem classify_attached (q : String) :
    classify evaluateNames ("--query=" ++ q) = .option "--query" (some q) := by
  have text : ("--query=" ++ q).toList =
      '-' :: '-' :: 'q' :: 'u' :: 'e' :: 'r' :: 'y' :: '=' :: q.toList := by
    rw [String.toList_append]
    rfl
  have whole : evaluateNames.contains ("--query=" ++ q) = false := by
    have cut : ∀ n ∈ evaluateNames, '=' ∉ n.toList := by decide
    rw [Bool.eq_false_iff, ne_eq, List.contains_iff_mem]
    intro listed
    exact cut _ listed (by simp [text])
  have parts : splitEquals ('-' :: '-' :: 'q' :: 'u' :: 'e' :: 'r' :: 'y' :: '=' :: q.toList) =
      some ("--query".toList, q.toList) := rfl
  unfold classify
  rw [text]
  simp only [whole, parts, Option.bind_some, String.ofList_toList, Bool.false_eq_true, ↓reduceIte]
  rfl

/-- Behind an equals sign any text is the option's value. -/
theorem read_attached (q : String) :
    read ["expr", "--query=" ++ q] = .ok ⟨.evaluate q none, .json⟩ := by
  rw [read_expr, readOptions, classifyAll_single, classify_attached]
  rfl

/-- A query that can stand behind its option. -/
def Submits (q : String) : Prop :=
  q.toList.head? ≠ some '-' ∨ ' ' ∈ q.toList ∨
    ∃ l : Literal, q.toList = l.text ∨ q.toList = l.text ++ ['\n']

theorem isNegativeNumber_iff {q default : String} {e : Expression}
    (found : Expression.read q default = .ok e) (minus : q.toList.head? = some '-') :
    isNegativeNumber q.toList = true ↔
      ∃ l : Literal, q.toList = l.text ∨ q.toList = l.text ++ ['\n'] := by
  constructor
  · intro negative
    obtain ⟨l, r, here, ends⟩ := Expression.minus_of_read found minus
    rw [here] at minus negative
    refine ⟨l, ?_⟩
    rcases (isNegativeNumber_literal (Literal.sign_of_minus minus) ends).mp negative with rfl | rfl
    · exact .inl (by rw [here, List.append_nil])
    · exact .inr here
  · rintro ⟨l, lone | broken⟩
    · rw [← List.append_nil l.text] at lone
      rw [lone] at minus ⊢
      exact (isNegativeNumber_literal (Literal.sign_of_minus minus) endsFigure_nil).mpr (.inl rfl)
    · rw [broken] at minus ⊢
      exact (isNegativeNumber_literal (Literal.sign_of_minus minus)
        (endsFigure_cons (.inl rfl) [])).mpr (.inr rfl)

theorem classify_of_read {q default : String} {e : Expression}
    (found : Expression.read q default = .ok e) :
    (Submits q ∧ classify evaluateNames q = .value q) ∨
      (¬ Submits q ∧ classify evaluateNames q = .unknown) := by
  by_cases minus : q.toList.head? = some '-'
  · obtain ⟨l, r, here, _⟩ := Expression.minus_of_read found minus
    obtain ⟨c, cs, body⟩ := List.exists_cons_of_ne_nil l.body_ne_nil
    have opening : q.toList = '-' :: c :: (cs ++ r) := by
      rw [here] at minus
      rw [here, Literal.text, Literal.sign_of_minus minus, body]
      rfl
    have submits : Submits q ↔
        (isNegativeNumber q.toList || q.toList.contains ' ') = true := by
      rw [Bool.or_eq_true, isNegativeNumber_iff found minus, List.contains_iff_mem, or_comm,
        Submits, or_iff_right (not_not_intro minus)]
    rw [classify_number opening (Token.opens_of_body body), submits]
    split
    · rename_i value
      exact .inl ⟨value, rfl⟩
    · rename_i unknown
      exact .inr ⟨unknown, rfl⟩
  · exact .inl ⟨.inl minus, classify_plain evaluateNames minus⟩

/-- An expression that is submitted behind its option is taken for its value unless it opens with
a minus, goes on behind the number and has no space in it; then it is a mistake, though the
expression is one. With an equals sign before it, it is always taken. -/
theorem submitted_iff {q default : String} {e : Expression}
    (found : Expression.read q default = .ok e) :
    (read ["expr", "--query", q] = .ok ⟨.evaluate q none, .json⟩ ↔ Submits q) ∧
      (¬ Submits q → read ["expr", "--query", q] = .error .usage) ∧
      read ["expr", "--query=" ++ q] = .ok ⟨.evaluate q none, .json⟩ := by
  rcases classify_of_read found with ⟨submits, value⟩ | ⟨hidden, unknown⟩
  · exact ⟨⟨fun _ => submits, fun _ => read_value value⟩,
      fun hidden => (hidden submits).elim, read_attached q⟩
  · refine ⟨⟨fun taken => ?_, fun submits => (hidden submits).elim⟩,
      fun _ => read_unknown unknown, read_attached q⟩
    rw [read_unknown unknown] at taken
    cases taken

/-- The sum of two numbers, the first of them negative, cannot be submitted behind its option. -/
theorem negative_sum_refused :
    (∃ e, Expression.read "-5+3" "USD" = .ok e) ∧ ¬ Submits "-5+3" ∧
      read ["expr", "--query", "-5+3"] = .error .usage ∧
      read ["expr", "--query=-5+3"] = .ok ⟨.evaluate "-5+3" none, .json⟩ := by
  have found : Expression.read "-5+3" "USD" = .ok
      ⟨[.number ⟨true, 5, 0⟩, .number ⟨false, 3, 0⟩], [.plus], "USD", false⟩ := by
    decide +kernel
  obtain ⟨taken, refused, attached⟩ := submitted_iff found
  have hidden : ¬ Submits "-5+3" := by
    intro submits
    have absurd := taken.mpr submits
    revert absurd
    decide +kernel
  exact ⟨⟨_, found⟩, hidden, refused hidden, attached⟩

end Arguments
end QuoteDesk
