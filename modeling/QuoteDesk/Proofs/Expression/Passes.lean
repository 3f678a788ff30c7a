import Mathlib.Data.List.TakeWhile
import QuoteDesk.Expression.Reader
import QuoteDesk.Proofs.Steps

/-
The reader as a chain of passes: tokens, the target split off, terms and operators, and
two checks of what they are together. A text is read if it gets through all of them,
and what stops it in one is a fault of expressions.
-/
namespace QuoteDesk.Expression

/-! The target -/

theorem splitTarget_plain {ts : List Token} (plain : ∀ t ∈ ts, t.kind ≠ .keyword) :
    splitTarget ts = .ok (ts, none) := by
  have behind : ts.dropWhile (fun t => !(t.kind == .keyword)) = [] := by
    rw [List.dropWhile_eq_nil_iff]
    intro t member
    simpa using plain t member
  simp only [splitTarget, behind]

theorem splitTarget_target {ts : List Token} (plain : ∀ t ∈ ts, t.kind ≠ .keyword)
    (nonempty : ts ≠ []) {mark code : Token} (keyword : mark.kind = .keyword)
    (word : code.kind = .identifier) {fiat : String}
    (read : Symbol.readCurrency "target" (String.ofList code.text) = .ok fiat) :
    splitTarget (ts ++ [mark, code]) = .ok (ts, some fiat) := by
  have run : ∀ t ∈ ts, (!(t.kind == .keyword)) = true := by
    intro t member
    simpa using plain t member
  have before : (ts ++ [mark, code]).takeWhile (fun t => !(t.kind == .keyword)) = ts := by
    rw [List.takeWhile_append_of_pos run]
    simp [keyword]
  have behind : (ts ++ [mark, code]).dropWhile (fun t => !(t.kind == .keyword)) = [mark, code] := by
    rw [List.dropWhile_append_of_pos run]
    simp [keyword]
  simp [splitTarget, before, behind, word, read, nonempty]

theorem target_of_split {ts head : List Token} {target : Option String}
    (split : splitTarget ts = .ok (head, target)) :
    (target = none ∧ ts = head) ∨ ∃ mark code fiat, ts = head ++ [mark, code] ∧
      mark.kind = .keyword ∧ code.kind = .identifier ∧
      Symbol.readCurrency "target" (String.ofList code.text) = .ok fiat ∧ target = some fiat := by
  have parts := (List.takeWhile_append_dropWhile (l := ts)
    (p := fun t : Token => !(t.kind == .keyword))).symm
  unfold splitTarget at split
  dsimp only at split
  split at split
  · cases split
    exact .inl ⟨rfl, rfl⟩
  · rename_i mark tail found
    split at split
    · cases split
    · split at split
      · cases split
      · rename_i code _
        split at split
        · cases split
        · rename_i word
          cases read : Symbol.readCurrency "target" (String.ofList code.text) with
          | error e =>
            rw [read] at split
            cases split
          | ok fiat =>
            rw [read] at split
            dsimp only at split
            split at split
            · cases split
            · cases split
              have keyword : mark.kind = .keyword := by
                have stopped := List.head_dropWhile_not (l := ts)
                  (fun t : Token => !(t.kind == .keyword)) (by simp [found])
                simpa [found] using stopped
              rw [found] at parts
              exact .inr ⟨mark, code, fiat, parts, keyword, by simpa using word, read, rfl⟩
      · cases split

/-! Terms and operators -/

theorem length_of_readTerms {fuel : ℕ} {ts : List Token} {terms : List Term}
    {operators : List Operator} (found : readTerms fuel ts = .ok (terms, operators)) :
    operators.length + 1 = terms.length := by
  induction fuel generalizing ts terms operators with
  | zero => cases found
  | succ fuel ih =>
    obtain ⟨⟨term, rest⟩, _, found⟩ := ok_of_bind found
    dsimp only at found
    split at found
    · cases found
      rfl
    · split at found
      · cases found
      · obtain ⟨⟨more, further⟩, joined, found⟩ := ok_of_bind found
        cases found
        exact congrArg (· + 1) (ih joined)

/-! All passes together -/

/-- A text gets through all passes of the reader, with what they give. -/
structure Passes (text : String) (terms : List Term) (operators : List Operator)
    (target : Option String) : Prop where
  written : (Text.trimChars text.toList).isEmpty = false
  tokens : ∃ ts head, Token.ofText text = .ok ts ∧ splitTarget ts = .ok (head, target) ∧
    readTerms (head.length + 1) head = .ok (terms, operators)
  added : terms.any (·.isAsset) = true → operators.all (·.joinsAssets) = true
  held : target.isSome = true → terms.any (·.isAsset) = true

/-- What gets through all passes is read, unless it needs a default target that is none. -/
theorem read_eq_of_passes {text : String} {terms : List Term} {operators : List Operator}
    {target : Option String} (passes : Passes text terms operators target) (default : String) :
    read text default = target.elim
      (((Symbol.readCurrency "default_fiat" default).mapError Fault.input).map
        fun fiat => ⟨terms, operators, fiat, false⟩)
      fun fiat => .ok ⟨terms, operators, fiat, true⟩ := by
  obtain ⟨written, ⟨ts, head, scanned, split, found⟩, added, held⟩ := passes
  have joined : (terms.any (·.isAsset) && !operators.all (·.joinsAssets)) = false := by
    cases asset : terms.any (·.isAsset) with
    | false => rfl
    | true => rw [added asset]; rfl
  have backed : (target.isSome && !terms.any (·.isAsset)) = false := by
    cases explicit : target.isSome with
    | false => rfl
    | true => rw [held explicit]; rfl
  unfold read
  rw [written, scanned]
  simp only [Bool.false_eq_true, ↓reduceIte, bind, Except.bind, split, found, joined, backed,
    Except.mapError]
  cases target with
  | none => cases Symbol.readCurrency "default_fiat" default <;> rfl
  | some target => rfl

theorem read_of_passes {text default fiat : String} {terms : List Term}
    {operators : List Operator} {target : Option String}
    (accepted : Symbol.readCurrency "default_fiat" default = .ok fiat)
    (passes : Passes text terms operators target) :
    read text default = .ok ⟨terms, operators, target.getD fiat, target.isSome⟩ := by
  rw [read_eq_of_passes passes]
  cases target with
  | none => rw [accepted]; rfl
  | some target => rfl

theorem read_cases (text default : String) :
    (∃ terms operators target, Passes text terms operators target) ∨
      ∃ cause, read text default = .error (.expression cause) := by
  cases written : (Text.trimChars text.toList).isEmpty with
  | true => exact .inr ⟨.emptyQuery, by simp [read, written]⟩
  | false =>
    unfold read
    rw [written]
    cases scanned : Token.ofText text with
    | error e => exact .inr ⟨e, rfl⟩
    | ok ts =>
      cases split : splitTarget ts with
      | error e =>
        refine .inr ⟨e, ?_⟩
        simp only [Bool.false_eq_true, ↓reduceIte, bind, Except.bind, split, Except.mapError]
      | ok parts =>
        obtain ⟨head, target⟩ := parts
        cases found : readTerms (head.length + 1) head with
        | error e =>
          refine .inr ⟨e, ?_⟩
          simp only [Bool.false_eq_true, ↓reduceIte, bind, Except.bind, split, found,
            Except.mapError]
        | ok joined =>
          obtain ⟨terms, operators⟩ := joined
          cases added : (terms.any (·.isAsset) && !operators.all (·.joinsAssets)) with
          | true =>
            refine .inr ⟨.assetOperator, ?_⟩
            simp only [Bool.false_eq_true, ↓reduceIte, bind, Except.bind, split, found, added,
              Except.mapError]
          | false =>
            cases held : (target.isSome && !terms.any (·.isAsset)) with
            | true =>
              refine .inr ⟨.targetWithoutAssets, ?_⟩
              simp only [Bool.false_eq_true, ↓reduceIte, bind, Except.bind, split, found, added,
                held, Except.mapError]
            | false =>
              refine .inl ⟨terms, operators, target, written, ⟨ts, head, scanned, split, found⟩,
                ?_, ?_⟩
              · intro asset
                simpa [asset] using added
              · intro explicit
                simpa [explicit] using held

/-- What was read got through all passes, and without a target of its own its prices are
told in the default one. -/
theorem passes_of_read {text default : String} {e : Expression} (found : read text default = .ok e) :
    ∃ target, Passes text e.terms e.operators target ∧
      (target = some e.target ∨ Symbol.readCurrency "default_fiat" default = .ok e.target) := by
  unfold read at found
  split at found
  · cases found
  · rename_i written
    obtain ⟨⟨terms, operators, target⟩, passed, found⟩ := ok_of_bind found
    obtain ⟨ts, scanned, passed⟩ := ok_of_bind (ok_of_mapError passed)
    obtain ⟨⟨head, target'⟩, split, passed⟩ := ok_of_bind passed
    obtain ⟨⟨terms', operators'⟩, joined, passed⟩ := ok_of_bind passed
    dsimp only at passed
    split at passed
    · cases passed
    · rename_i added
      split at passed
      · cases passed
      · rename_i held
        cases passed
        have passes : Passes text terms operators target := by
          refine ⟨by simpa using written, ⟨ts, head, scanned, split, joined⟩, ?_, ?_⟩
          · intro asset
            simpa [asset] using added
          · intro explicit
            simpa [explicit] using held
        cases target with
        | some target =>
          cases found
          exact ⟨some target, passes, .inl rfl⟩
        | none =>
          obtain ⟨fiat, accepted, found⟩ := ok_of_bind found
          cases found
          exact ⟨none, passes, .inr (ok_of_mapError accepted)⟩

theorem length_operators {text default : String} {e : Expression} (found : read text default = .ok e) :
    e.operators.length + 1 = e.terms.length := by
  obtain ⟨_, passes, _⟩ := passes_of_read found
  obtain ⟨_, _, _, _, joined⟩ := passes.tokens
  exact length_of_readTerms joined

end QuoteDesk.Expression
