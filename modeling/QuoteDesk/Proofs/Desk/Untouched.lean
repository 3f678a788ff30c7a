import QuoteDesk.Proofs.Desk.Blame
import QuoteDesk.Proofs.Provider.Ranked
import QuoteDesk.Proofs.Symbol

/-
What the user has done wrong is found before anything is asked for. Symbols, operators and
targets are checked once more behind the first request, but these checks cannot fail for
what was read; so a command that fails through the user leaves the desk as it was.
-/
namespace QuoteDesk

/-! Numbers and rows -/

theorem Decimal.spares_roundTo (places : Int) (mode : Rounding) (d : Decimal) :
    Outcome.SparesUser (d.roundTo places mode) := by
  unfold roundTo
  dsimp only
  split
  · exact spares_defect _
  · exact spares_ofArithmetic _

theorem Decimal.spares_marketText (d : Decimal) : Outcome.SparesUser d.marketText := by
  apply spares_bind (spares_ofArithmetic _)
  intro places _
  apply spares_bind (d.spares_roundTo places .halfUp)
  intro r _
  exact spares_ok _

theorem Conversion.spares_reportAt (c : Conversion) (cached : CachedQuote) :
    Outcome.SparesUser (c.reportAt cached) := by
  refine spares_bind (spares_ofArithmetic _) fun product _ => ?_
  refine spares_bind (Decimal.spares_roundTo _ _ product) fun converted _ => ?_
  refine spares_bind (spares_ofArithmetic _) fun amount _ => ?_
  refine spares_bind (spares_ofArithmetic _) fun unitPrice _ => ?_
  refine spares_bind (spares_ofArithmetic _) fun converted' _ => ?_
  split
  · exact spares_ok _
  · exact spares_defect _

theorem Expression.spares_priceOf (assets : List (String × CachedQuote)) (t : Term) :
    Outcome.SparesUser (priceOf assets t) := by
  unfold priceOf
  split
  · exact spares_ok _
  · exact spares_defect _

theorem Expression.spares_amountOf (assets : List (String × CachedQuote)) (t : Term) :
    Outcome.SparesUser (amountOf assets t) := by
  apply spares_bind (spares_priceOf assets t)
  intro c _
  exact spares_ofArithmetic _

/-- Amounts of assets that are only added and subtracted. -/
theorem Expression.spares_withPrices {e : Expression} (joined : e.operators.all (·.joinsAssets))
    (prices : List CachedQuote) : Outcome.SparesUser (e.withPrices prices) := by
  have step : ∀ assets total, ∀ x ∈ e.operators.zip e.terms.tail,
      Outcome.SparesUser (applyAsset (amountOf assets) total x.1 x.2) := by
    intro assets total ⟨op, t⟩ member
    have joins := List.all_eq_true.mp joined op (List.of_mem_zip member).1
    apply spares_bind (spares_amountOf assets t)
    intro amount _
    cases op with
    | plus | minus => exact spares_ofArithmetic _
    | times | «over» | other => cases joins
  unfold withPrices assetTotal
  apply spares_bind
  · cases terms : e.terms with
    | nil => exact spares_defect _
    | cons t ts =>
      rw [terms] at step
      apply spares_bind (spares_amountOf _ t)
      intro first _
      exact spares_foldlM _ (step _) first
  · intro total _
    exact spares_ok _

namespace Evaluation

theorem spares_assetRow (target symbol : String) (c : CachedQuote) :
    Outcome.SparesUser (assetRow target symbol c) := by
  apply spares_bind c.quote.unitPrice.spares_marketText
  intro price _
  exact spares_ok _

theorem spares_piece (assets : List (String × CachedQuote)) (t : Term) :
    Outcome.SparesUser (piece assets t) := by
  refine spares_bind (Expression.spares_priceOf assets t) fun c _ => ?_
  refine spares_bind (spares_ofArithmetic _) fun value _ => ?_
  refine spares_bind c.quote.unitPrice.spares_marketText fun price _ => ?_
  exact spares_ok _

theorem spares_joinedPieces (assets : List (String × CachedQuote)) (ts : List Term)
    (ops : List Operator) : Outcome.SparesUser (joinedPieces assets ts ops) := by
  induction ts generalizing ops with
  | nil => exact spares_ok []
  | cons t ts ih =>
    apply spares_bind (spares_piece assets t)
    intro p _
    cases ops with
    | nil => exact spares_defect _
    | cons op ops =>
      apply spares_bind (ih ops)
      intro ps _
      exact spares_ok _

theorem spares_formula (e : Evaluation) : Outcome.SparesUser e.formula := by
  unfold formula
  dsimp only
  split
  · exact spares_ok _
  · rename_i t ts _
    apply spares_bind (spares_piece e.assets t)
    intro p _
    apply spares_bind (spares_joinedPieces e.assets ts e.operators)
    intro ps _
    exact spares_ok _

theorem spares_rows (e : Evaluation) : Outcome.SparesUser e.rows := by
  unfold rows
  split
  · apply spares_bind (spares_ofArithmetic _)
    intro text _
    exact spares_ok _
  · apply spares_bind (spares_mapM _ (fun x => spares_assetRow e.target x.1 x.2) e.assets)
    intro prices _
    apply spares_bind
    · apply spares_bind e.total.spares_marketText
      intro total _
      apply spares_bind e.spares_formula
      intro formula _
      exact spares_ok _
    · intro total _
      exact spares_ok _

end Evaluation

theorem Expression.any_isAsset_of_mode {e : Expression} (asset : e.mode = .ok .asset) :
    e.terms.any (·.isAsset) = true := by
  obtain ⟨some, all⟩ := e.mode_eq_asset_iff.mp asset
  obtain ⟨t, term⟩ := List.exists_mem_of_ne_nil _ some
  exact List.any_eq_true.mpr ⟨t, term, List.all_eq_true.mp all t term⟩

/-! Prices -/

theorem Market.spares_fetch {ω : Type} [Wire ω] {m : Market ω} (ranked : m.Ranked) (pair : Pair) :
    Outcome.SparesUser (m.fetch pair).1 := by
  apply Chain.spares_searchFrom
  intro p member base quote l
  obtain ⟨s, _, _, same⟩ := source_of_ranked ranked member
  rw [same]
  exact s.spares_attempt base quote l

namespace Desk

variable {σ ω : Type} [Store σ]

theorem evaluate_numeric (d : Desk σ ω) {e : Expression} (numeric : e.mode = .ok .numeric) :
    (d.evaluate e).2 = d := by
  have planned : e.plan = do
      let total ← Expression.numericTotal (e.terms.map (·.value)) e.operators
      return .finished ⟨.numeric, total, e.target, e.terms, e.operators, []⟩ := by
    simp only [Expression.plan, numeric]
  unfold evaluate
  rw [planned]
  cases Expression.numericTotal (e.terms.map (·.value)) e.operators with
  | error f => rfl
  | ok total => rfl

variable [Wire ω]

/-- A step at the desk that does not fail through the user and leaves the sources ranked. -/
structure Sound {α : Type} (r : Outcome α × Desk σ ω) : Prop where
  spared : r.1.SparesUser
  ranked : r.2.market.Ranked

variable [Store.Blameless σ] {d : Desk σ ω}

theorem sound_quotePair (ranked : d.market.Ranked) (pair : Pair) : Sound (d.quotePair pair) := by
  refine ⟨?_, ranked_quotePair ranked pair⟩
  obtain ⟨answer, made, c, passage, run⟩ := d.passage_quotePair pair
  rw [run]
  exact passage.spares (Market.spares_fetch ranked pair)

theorem sound_quoteAsCrypto (ranked : d.market.Ranked) {symbol : String}
    (settled : Symbol.Settled symbol) (target : String) (trace : List String) :
    Sound (d.quoteAsCrypto symbol target trace) := by
  have quoted := sound_quotePair ranked ⟨.crypto, symbol, target⟩
  unfold quoteAsCrypto
  rw [Symbol.readAsset_of_settled "base" settled]
  dsimp only
  split
  · rename_i f d' failed
    rw [failed] at quoted
    exact ⟨spares_error rfl, quoted.ranked⟩
  · exact quoted

theorem sound_quoteAsset (ranked : d.market.Ranked) {symbol : String}
    (settled : Symbol.Settled symbol) (target : String) : Sound (d.quoteAsset symbol target) := by
  unfold quoteAsset
  split
  · have quoted := sound_quotePair ranked ⟨.fx, symbol, target⟩
    split
    · rename_i f d' failed
      rw [failed] at quoted
      exact sound_quoteAsCrypto quoted.ranked settled target _
    · exact quoted
  · exact sound_quoteAsCrypto ranked settled target []

theorem sound_quoteAssets (ranked : d.market.Ranked) {symbols : List String}
    (settled : ∀ s ∈ symbols, Symbol.Settled s) (target : String) :
    Sound (d.quoteAssets target symbols) := by
  induction symbols generalizing d with
  | nil => exact ⟨spares_ok [], ranked⟩
  | cons s more ih =>
    have first := sound_quoteAsset ranked (settled s (by simp)) target
    have rest := ih first.ranked fun s' member => settled s' (List.mem_cons_of_mem s member)
    refine ⟨?_, rest.ranked⟩
    apply spares_bind first.spared
    intro a _
    apply spares_bind rest.spared
    intro as _
    exact spares_ok (a :: as)

/-! Commands -/

theorem sound_evaluate_asset (ranked : d.market.Ranked) {text default : String} {e : Expression}
    (found : Expression.read text default = .ok e) (asset : e.mode = .ok .asset) :
    Sound (d.evaluate e) := by
  obtain ⟨target, passes, _⟩ := Expression.passes_of_read found
  obtain ⟨settled, _⟩ := Expression.settled_of_read found
  have joined : e.operators.all (·.joinsAssets) :=
    passes.added (Expression.any_isAsset_of_mode asset)
  have priced := sound_quoteAssets ranked settled e.target
  unfold evaluate Expression.plan
  rw [asset]
  refine ⟨?_, priced.ranked⟩
  apply spares_bind priced.spared
  intro prices _
  exact Expression.spares_withPrices joined prices

theorem query_cases (ranked : d.market.Ranked) (text : String) (target : Option String) :
    (d.query text target).2 = d ∨ Sound (d.query text target) := by
  unfold query
  split
  · exact .inl rfl
  · rename_i e found
    cases mode : e.mode with
    | error f =>
      left
      simp only [evaluate, Expression.plan, mode]
    | ok m =>
      cases m with
      | numeric => exact .inl (evaluate_numeric d mode)
      | asset =>
        right
        have evaluated := sound_evaluate_asset ranked found mode
        refine ⟨?_, evaluated.ranked⟩
        apply spares_bind evaluated.spared
        intro result _
        exact result.spares_rows

theorem convert_cases (ranked : d.market.Ranked) (kind : PairKind) (base quote amount : String) :
    (d.convert kind base quote amount).2 = d ∨ Sound (d.convert kind base quote amount) := by
  unfold convert
  split
  · exact .inl rfl
  · rename_i c _
    right
    have quoted := sound_quotePair ranked c.pair
    refine ⟨?_, quoted.ranked⟩
    apply spares_bind quoted.spared
    intro cached _
    exact c.spares_reportAt cached

theorem carryOut_cases (ranked : d.market.Ranked) (i : Invocation) :
    (d.carryOut i).2 = d ∨ Sound (d.carryOut i) := by
  unfold carryOut
  cases i.command with
  | convert kind base quote amount =>
    rcases convert_cases ranked kind base quote amount with same | sound
    · exact .inl same
    · exact .inr ⟨spares_map _ sound.spared, sound.ranked⟩
  | evaluate text target =>
    rcases query_cases ranked text target with same | sound
    · exact .inl same
    · exact .inr ⟨spares_map _ sound.spared, sound.ranked⟩

/-- A command that fails through the user, for whatever reason, leaves the desk as it was: its
cache with its counts, the counts of its sources, the requests on the line and the waits. So does
every expression of numbers alone, however its evaluation ends. -/
theorem untouched_by_user_failure (ranked : d.market.Ranked) (i : Invocation) :
    (∀ f, (d.carryOut i).1 = .error f → f.isUser = true → (d.carryOut i).2 = d) ∧
    (∀ text target e, i.command = .evaluate text target →
      Expression.read text (d.targetOf target) = .ok e → e.mode = .ok .numeric →
      (d.carryOut i).2 = d) := by
  constructor
  · intro f failed blame
    rcases carryOut_cases ranked i with same | sound
    · exact same
    · have spared := sound.spared f failed
      rw [blame] at spared
      cases spared
  · intro text target e command found numeric
    simp only [carryOut, command, query, found, evaluate_numeric d numeric]

/-! Division by zero is the user's, and is found without a request. -/

def newDesk : Desk Memory DeadWire :=
  ⟨Market.opened ⟨0, some 0⟩ .standard ⟨"down"⟩ true, Cache.ofStore .empty, "USD"⟩

/-- A whole number divided by or multiplied with another. -/
def wholeNumbers (a : Nat) (op : Operator) (b : Nat) : Expression :=
  ⟨[.number (.ofNat a), .number (.ofNat b)], [op], "USD", false⟩

theorem division_by_zero_untouched :
    (newDesk.carryOut ⟨.evaluate "1 / 0" none, .json⟩).1 =
        .error (.fault (.divisionByZero Fault.divisionByZeroMessage)) ∧
      (newDesk.carryOut ⟨.evaluate "1 / 0" none, .json⟩).2 = newDesk ∧
      Expression.read "2 * 3" "USD" = .ok (wholeNumbers 2 .times 3) ∧
      (newDesk.carryOut ⟨.evaluate "2 * 3" none, .json⟩).2 = newDesk := by
  have ranked : newDesk.market.Ranked := Market.ranked_opened ⟨0, some 0⟩ .standard _ true
  have ratio : Expression.read "1 / 0" "USD" = .ok (wholeNumbers 1 .over 0) :=
    ok_of_toOption (by decide +kernel)
  have product : Expression.read "2 * 3" "USD" = .ok (wholeNumbers 2 .times 3) :=
    ok_of_toOption (by decide +kernel)
  have failed : (newDesk.carryOut ⟨.evaluate "1 / 0" none, .json⟩).1 =
      .error (.fault (.divisionByZero Fault.divisionByZeroMessage)) := by
    have target : newDesk.targetOf none = "USD" := rfl
    simp only [carryOut, query, target, ratio]
    rfl
  obtain ⟨undone, _⟩ := untouched_by_user_failure ranked ⟨.evaluate "1 / 0" none, .json⟩
  obtain ⟨_, numeric⟩ := untouched_by_user_failure ranked ⟨.evaluate "2 * 3" none, .json⟩
  exact ⟨failed, undone _ failed rfl, product, numeric "2 * 3" none _ rfl product rfl⟩

end Desk
end QuoteDesk
