import QuoteDesk.Proofs.Decimal.Canonical
import QuoteDesk.Proofs.Desk.Feedback
import QuoteDesk.Proofs.Expression.Total

/-
The rows of a result. A portfolio has a row for the price of each symbol, in the order of first
mention, and one for the total with a piece of the formula for each term; a numeric result has one
row. Only numbers out of reach stand in the way of the rows. The value of a term is told with all
its digits unless some lie below the last place that is kept.
-/
namespace QuoteDesk

open Decimal

/-! Numbers that have a text -/

namespace Decimal

/-- In the usual digits the price is in reach; a zero may stand almost anywhere. -/
def Showable (d : Decimal) : Prop :=
  if d.isZero then d.exponent + 4 ≤ widestPrecision else Clear (emax + 1 - precision) d.value

theorem showable_of_clear {d : Decimal} (within : d.adjusted ≤ emax)
    (clear : Clear (emax + 1 - precision) d.value) : d.Showable := by
  unfold Showable
  split
  · rename_i zero
    have room : emax + 4 ≤ widestPrecision := by decide
    rw [adjusted_of_zero zero] at within
    omega
  · exact clear

/-- A price whose leading digit is below the last of the places can be shown. -/
theorem showable_of_adjusted {d : Decimal} (within : d.adjusted < emax) : d.Showable :=
  showable_of_clear within.le (clear_of_adjusted within (by decide))

/-- Every result of arithmetic has a text as a price. -/
theorem showable_of_fit {d r : Decimal} (fitted : fit precision d = .ok r) : r.Showable :=
  showable_of_clear (within_of_fit (by decide) fitted) (clear_of_fit (by decide) fitted)

end Decimal

/-- How numbers without a text end. -/
def Unshowable (f : Failure) : Prop := f = .defect (.arithmetic .overflow) ∨ f = .defect .badValue

/-- The texts of numbers, as prices and with all digits. -/
structure Wording where
  price : Decimal → String
  value : Decimal → String

namespace Wording

/-- All numbers that have a text have this one. -/
structure Faithful (w : Wording) : Prop where
  price : ∀ d : Decimal, HingesOn d.Showable Unshowable (w.price d) d.marketText
  value : ∀ d : Decimal, HingesOn (|d.value| < reach) Unshowable (w.value d)
    (Outcome.ofArithmetic d.plainText)

theorem exists_faithful : ∃ w : Wording, w.Faithful := by
  have priced : ∀ d : Decimal, ∃ s, HingesOn d.Showable Unshowable s d.marketText := by
    intro d
    rcases marketText_cases d with ⟨clear, s, told⟩ | ⟨near, refused⟩
    · exact ⟨s, .inl ⟨clear, told⟩⟩
    · exact ⟨"", .inr ⟨near, refused.elim (⟨_, .inl rfl, ·⟩) (⟨_, .inr rfl, ·⟩)⟩⟩
  have valued : ∀ d : Decimal, ∃ s, HingesOn (|d.value| < reach) Unshowable s
      (Outcome.ofArithmetic d.plainText) := by
    intro d
    rcases plainText_cases d with ⟨below, s, told⟩ | ⟨beyond, refused⟩
    · exact ⟨s, .inl ⟨below, congrArg _ told⟩⟩
    · exact ⟨"", .inr ⟨beyond, _, .inl rfl, congrArg _ refused⟩⟩
  choose price priced using priced
  choose value valued using valued
  exact ⟨⟨price, value⟩, priced, valued⟩

/-! What the rows are to be -/

variable (w : Wording) (e : Expression) (quotes : String → CachedQuote) (total : Decimal)

def assetRow (target symbol : String) (c : CachedQuote) : Row where
  title := "1 " ++ symbol ++ " = " ++ w.price c.quote.unitPrice ++ " " ++ target
  subtitle := "provider: " ++ c.quote.provider ++ " · freshness: " ++ c.status.label
  arg := w.price c.quote.unitPrice ++ " " ++ target
  valid := true

/-- The value of a term, and the price of its symbol. -/
def piece (t : Term) : String :=
  w.value t.value ++ "*" ++ w.price (quotes (t.symbol?.getD "")).quote.unitPrice ++
    "(" ++ t.symbol?.getD "" ++ ")"

/-- A piece for each term, behind its operator if it has one. -/
def pieces : List String :=
  List.zipWith (fun mark t => mark ++ w.piece quotes t)
    ("" :: e.operators.map fun op => op.text ++ " ") e.terms

def formula : String := "Formula: " ++ " ".intercalate (w.pieces e quotes)

def totalRow : Row where
  title := "Total = " ++ w.price total ++ " " ++ e.target
  subtitle := w.formula e quotes ++ " = " ++ w.price total ++ " " ++ e.target
  arg := w.price total ++ " " ++ e.target
  valid := true

def rows : List Row :=
  e.symbols.map (fun s => w.assetRow e.target s (quotes s)) ++ [w.totalRow e quotes total]

/-- The texts of all numbers of an evaluation. -/
structure Tells : Prop where
  price : ∀ s ∈ e.symbols, (quotes s).quote.unitPrice.marketText =
    .ok (w.price (quotes s).quote.unitPrice)
  value : ∀ t ∈ e.terms, t.value.plainText = .ok (w.value t.value)
  total : total.marketText = .ok (w.price total)

end Wording

/-! Each row by itself -/

namespace Wording.Faithful

variable {w : Wording}

theorem assetRow (faithful : w.Faithful) (target symbol : String) (c : CachedQuote) :
    HingesOn c.quote.unitPrice.Showable Unshowable (w.assetRow target symbol c)
      (Evaluation.assetRow target symbol c) :=
  (faithful.price c.quote.unitPrice).bind_pure

theorem piece (faithful : w.Faithful) {quotes : String → CachedQuote}
    {assets : List (String × CachedQuote)} {t : Term}
    (priced : Expression.Priced assets (fun s => (quotes s).quote.unitPrice) t) :
    HingesOn (|t.value.value| < reach ∧ (quotes (t.symbol?.getD "")).quote.unitPrice.Showable)
      Unshowable (w.piece quotes t) (Evaluation.piece assets t) := by
  obtain ⟨s, c, symbol, held, same⟩ := priced
  have same : c.quote.unitPrice = (quotes s).quote.unitPrice := same
  have found : Expression.priceOf assets t = .ok c := by
    rw [Expression.priceOf, symbol, Option.bind_some, held]
  rw [Wording.piece, Evaluation.piece, found, symbol, Option.getD_some, ← same]
  exact (faithful.value t.value).bind (faithful.price c.quote.unitPrice).bind_pure

end Wording.Faithful

namespace Evaluation

theorem hinges_joinedPieces {assets : List (String × CachedQuote)} {ts : List Term}
    {operators : List Operator} (paired : operators.length = ts.length) {told : Term → Prop}
    {text : Term → String}
    (hinges : ∀ t ∈ ts, HingesOn (told t) Unshowable (text t) (piece assets t)) :
    HingesOn (∀ t ∈ ts, told t) Unshowable
      (List.zipWith (fun mark t => mark ++ text t) (operators.map fun op => op.text ++ " ") ts)
      (joinedPieces assets ts operators) := by
  induction ts generalizing operators with
  | nil =>
    rw [List.length_eq_zero_iff.mp paired]
    exact .inl ⟨List.forall_mem_nil _, rfl⟩
  | cons t ts ih =>
    obtain ⟨op, operators, rfl⟩ := List.exists_cons_of_length_eq_add_one paired
    have rest := ih (Nat.succ.inj paired) fun t member => hinges t (List.mem_cons_of_mem _ member)
    refine ((hinges t List.mem_cons_self).bind rest.bind_pure).congr ?_
    exact List.forall_mem_cons.symm

theorem hinges_formula {r : Evaluation} (paired : r.operators.length + 1 = r.terms.length)
    {told : Term → Prop} {text : Term → String}
    (hinges : ∀ t ∈ r.terms, HingesOn (told t) Unshowable (text t) (piece r.assets t)) :
    HingesOn (∀ t ∈ r.terms, told t) Unshowable
      ("Formula: " ++ " ".intercalate (List.zipWith (fun mark t => mark ++ text t)
        ("" :: r.operators.map fun op => op.text ++ " ") r.terms)) r.formula := by
  unfold formula
  cases terms : r.terms with
  | nil =>
    rw [terms] at paired
    cases paired
  | cons t ts =>
    rw [terms] at paired hinges
    have first := hinges t List.mem_cons_self
    have rest := hinges_joinedPieces (Nat.succ.inj paired)
      fun t member => hinges t (List.mem_cons_of_mem _ member)
    rw [List.zipWith_cons_cons, String.empty_append]
    refine (first.bind (f := fun p => do
      let ps ← joinedPieces r.assets ts r.operators
      pure ("Formula: " ++ " ".intercalate (p :: ps))) rest.bind_pure).congr ?_
    exact List.forall_mem_cons.symm

end Evaluation

/-! Totals -/

namespace Expression

/-- The evaluation of a portfolio with this total. -/
def portfolio (e : Expression) (quotes : String → CachedQuote) (total : Decimal) : Evaluation :=
  ⟨.asset, total, e.target, e.terms, e.operators, e.symbols.map fun s => (s, quotes s)⟩

variable {assets : List (String × CachedQuote)}

theorem fit_of_amountOf {t : Term} {r : Decimal} (known : amountOf assets t = .ok r) :
    ∃ exact, fit precision exact = .ok r := by
  obtain ⟨_, _, product⟩ := ok_of_bind known
  exact ⟨_, Outcome.ok_of_ofArithmetic product⟩

theorem fit_of_applyAsset {total next : Decimal} {op : Operator} {t : Term}
    (applied : applyAsset (amountOf assets) total op t = .ok next) :
    ∃ exact, fit precision exact = .ok next := by
  obtain ⟨_, _, joined⟩ := ok_of_bind applied
  cases op with
  | plus => exact ⟨_, Outcome.ok_of_ofArithmetic joined⟩
  | minus => exact ⟨_, Outcome.ok_of_ofArithmetic joined⟩
  | _ => cases joined

theorem fit_of_assetTotal {terms : List Term} {operators : List Operator} {total : Decimal}
    (known : assetTotal terms operators assets = .ok total) :
    ∃ exact, fit precision exact = .ok total := by
  cases terms with
  | nil => cases known
  | cons t ts =>
    obtain ⟨first, amount, folded⟩ := ok_of_bind known
    rcases start_or_step fit_of_applyAsset folded with rfl | fitted
    · exact fit_of_amountOf amount
    · exact fitted

end Expression

/-! All rows -/

/-- The rows are there exactly if all prices and all values have texts. -/
theorem Wording.Faithful.rows {w : Wording} (faithful : w.Faithful) {e : Expression}
    (asset : e.mode = .ok .asset) (paired : e.operators.length + 1 = e.terms.length)
    (quotes : String → CachedQuote) {total : Decimal} (shown : total.Showable) :
    HingesOn ((∀ s ∈ e.symbols, (quotes s).quote.unitPrice.Showable) ∧
        ∀ t ∈ e.terms, |t.value.value| < reach) Unshowable
      (w.rows e quotes total) (e.portfolio quotes total).rows := by
  have pieces := Evaluation.hinges_formula (r := e.portfolio quotes total) paired
    fun t member => faithful.piece (Expression.priced_of_portfolio asset quotes member)
  have totals : HingesOn _ Unshowable (w.totalRow e quotes total)
      (e.portfolio quotes total).totalRow := (faithful.price total).bind pieces.bind_pure
  have prices := HingesOn.mapM (l := e.symbols.map fun s => (s, quotes s))
    fun c _ => faithful.assetRow e.target c.1 c.2
  rw [List.forall_mem_map, List.map_map] at prices
  refine (prices.bind totals.bind_pure).congr ⟨?_, ?_⟩
  · rintro ⟨showable, _, told⟩
    exact ⟨showable, fun t member => (told t member).1⟩
  · rintro ⟨showable, below⟩
    refine ⟨showable, shown, fun t member => ⟨below t member, ?_⟩⟩
    obtain ⟨s, listed, symbol⟩ := Expression.symbol_of_portfolio asset member
    rw [symbol]
    exact showable s listed

theorem Evaluation.hinges_numeric {r : Evaluation} (numeric : r.mode = .numeric) {w : Wording}
    (faithful : w.Faithful) :
    HingesOn (|r.total.value| < reach) Unshowable [numericRow (w.value r.total)] r.rows := by
  unfold rows
  rw [numeric]
  exact (faithful.value r.total).bind_pure

theorem Wording.length_pieces (w : Wording) {e : Expression}
    (paired : e.operators.length + 1 = e.terms.length) (quotes : String → CachedQuote) :
    (w.pieces e quotes).length = e.terms.length := by
  rw [pieces, List.length_zipWith, List.length_cons, List.length_map, paired, Nat.min_self]

theorem Wording.length_rows (w : Wording) (e : Expression) (quotes : String → CachedQuote)
    (total : Decimal) : (w.rows e quotes total).length = e.symbols.length + 1 := by
  rw [rows, List.length_append, List.length_map, List.length_singleton]

/-- The rows of a portfolio: one for each symbol, in the order of first mention, and one for the
total, with a piece for each term. The value of a term is told exactly if it has no digit below the
last place that is kept. -/
structure PortfolioRows (e : Expression) (quotes : String → CachedQuote) (total : Decimal)
    (rows : List Row) : Prop where
  symbols : Expression.FirstSeen e.symbols (e.terms.filterMap (·.symbol?))
  count : rows.length = e.symbols.length + 1
  wording : ∃ w : Wording, w.Tells e quotes total ∧ rows = w.rows e quotes total ∧
    (w.pieces e quotes).length = e.terms.length ∧
    ∀ t ∈ e.terms, ShowsShort (w.value t.value) t.value.value ↔ OnGrid (bottom t.value) t.value.value

theorem Wording.Faithful.portfolioRows {w : Wording} (faithful : w.Faithful) {e : Expression}
    (paired : e.operators.length + 1 = e.terms.length) {quotes : String → CachedQuote}
    {total : Decimal} (shown : total.Showable)
    (showable : ∀ s ∈ e.symbols, (quotes s).quote.unitPrice.Showable)
    (below : ∀ t ∈ e.terms, |t.value.value| < reach) :
    PortfolioRows e quotes total (w.rows e quotes total) := by
  have tells : w.Tells e quotes total := by
    refine ⟨fun s member => ?_, fun t member => ?_, ?_⟩
    · exact (faithful.price _).of_condition (showable s member)
    · exact Outcome.ok_of_ofArithmetic ((faithful.value _).of_condition (below t member))
    · exact (faithful.price total).of_condition shown
  refine ⟨Expression.firstSeen_distinct _, w.length_rows e quotes total, w, tells, rfl,
    w.length_pieces paired quotes, fun t member => ?_⟩
  exact showsShort_plainText_iff (tells.value t member)

theorem Expression.evaluate_numeric {e : Expression} (numeric : e.mode = .ok .numeric)
    {prices : List String → Outcome (List CachedQuote)} {result : Evaluation}
    (evaluated : e.evaluate prices = .ok result) : result.mode = .numeric := by
  obtain ⟨plan, planned, finished⟩ := ok_of_bind evaluated
  cases plan with
  | finished r =>
    cases finished
    exact (plan_finished planned).2.1
  | priced symbols =>
    simp only [Expression.plan, numeric] at planned
    obtain ⟨_, _, planned⟩ := ok_of_bind planned
    cases planned

/-- A text that was read and evaluated, with any prices, shows its rows exactly if all its numbers
have texts: of a portfolio the prices have to be showable and the values in reach, and the total
always has a text. The rows mirror the expression then; a numeric result has one row. Nothing else
stands in the way of the rows, no missing symbol or operator in particular. -/
theorem rows_mirror {text default : String} {e : Expression}
    (found : Expression.read text default = .ok e) (quotes : String → CachedQuote)
    {result : Evaluation}
    (evaluated : e.evaluate (fun symbols => .ok (symbols.map quotes)) = .ok result) :
    (e.mode = .ok .asset →
      ((∃ rows, result.rows = .ok rows) ↔
        (∀ s ∈ e.symbols, (quotes s).quote.unitPrice.Showable) ∧
          ∀ t ∈ e.terms, |t.value.value| < reach) ∧
      ∀ rows, result.rows = .ok rows → PortfolioRows e quotes result.total rows) ∧
    (e.mode = .ok .numeric →
      ((∃ rows, result.rows = .ok rows) ↔ |result.total.value| < reach) ∧
      ∀ rows, result.rows = .ok rows →
        ∃ s, result.total.plainText = .ok s ∧ rows = [numericRow s]) ∧
    ∀ f, result.rows = .error f → Unshowable f := by
  have paired := Expression.length_operators found
  obtain ⟨w, faithful⟩ := Wording.exists_faithful
  cases mode : e.mode with
  | error fault =>
    simp only [Expression.evaluate, Expression.plan, mode] at evaluated
    cases evaluated
  | ok m =>
    cases m with
    | asset =>
      rw [Expression.evaluate_portfolio mode quotes] at evaluated
      obtain ⟨total, known, rfl⟩ := ok_of_map evaluated
      obtain ⟨_, fitted⟩ := Expression.fit_of_assetTotal known
      have hinges := faithful.rows mode paired quotes (showable_of_fit fitted)
      refine ⟨fun _ => ⟨hinges.ok_iff, fun rows done => ?_⟩, fun numeric => ?_,
        fun f => hinges.of_error⟩
      · obtain ⟨⟨showable, below⟩, rfl⟩ := hinges.of_result done
        exact faithful.portfolioRows paired (showable_of_fit fitted) showable below
      · cases numeric
    | numeric =>
      have hinges := Evaluation.hinges_numeric (Expression.evaluate_numeric mode evaluated) faithful
      refine ⟨fun asset => ?_, fun _ => ⟨hinges.ok_iff, fun rows done => ?_⟩,
        fun f => hinges.of_error⟩
      · cases asset
      · obtain ⟨below, rfl⟩ := hinges.of_result done
        exact ⟨_, Outcome.ok_of_ofArithmetic ((faithful.value _).of_condition below), rfl⟩

/-! A value that is not told -/

theorem isBlank_space : ∀ c ∈ [' '], Text.isBlank c = true := List.forall_mem_singleton.mpr rfl

/-- The name of a coin, after a blank. -/
def coinSuffix : Suffix where
  gap := ⟨[' '], isBlank_space⟩
  word := ['b', 't', 'c']
  formed := by
    refine .inr ⟨List.cons_ne_nil _ _, ?_⟩
    rw [List.forall_mem_cons, List.forall_mem_cons, List.forall_mem_singleton]
    decide
  atLeast := by decide
  atMost := by decide
  free := by decide

/-- So many units of the coin. -/
def someCoins (l : Literal) : Phrase :=
  let nothing : Gap := ⟨[], Expression.blank_nil⟩
  ⟨nothing, ⟨l, some coinSuffix⟩, [], none, nothing⟩

/-- An amount in plain digits is read with the number as it is. -/
theorem read_someCoins {d : Decimal} (low : d.exponent ≤ 0) (readable : d.admissible = true) :
    Expression.read (d.toFixed ++ " btc") "USD" = .ok ⟨[.asset d "BTC"], [], "USD", false⟩ := by
  obtain ⟨l, text, sign, cut⟩ := exists_literal fun _ => low
  have same : l.value = d := by
    have whole : d.exponent.toNat = 0 := by omega
    have places : -((-d.exponent).toNat : ℤ) = d.exponent := by omega
    rw [form_of_cut sign cut, whole, places, Nat.pow_zero, Nat.mul_one]
  have held : (someCoins l).IsPortfolio :=
    ⟨Expression.forall_amounts rfl (Option.some_ne_none _), List.forall_mem_nil _⟩
  have spelled : (someCoins l).text = (d.toFixed ++ " btc").toList := by
    simp [toFixed, text, someCoins, coinSuffix, Phrase.text, Phrase.tail, Amount.text, Suffix.text]
  have representable : (someCoins l).Representable :=
    Expression.forall_amounts rfl (same ▸ readable)
  have accepted : Symbol.readCurrency "default_fiat" "USD" = .ok "USD" := by decide +kernel
  have found := Expression.read_of_derives accepted ⟨.inr held, spelled⟩ representable
  have symbol : coinSuffix.symbol = "BTC" := by decide
  rw [found, ← symbol, ← same]
  rfl

def oneDollar (symbol : String) : CachedQuote :=
  ⟨⟨symbol, "USD", ofNat 1, "coinbase", ⟨0, some 0⟩⟩, .live, "k", 300, 0⟩

/-- A one behind so many zeros that it is below the last place that is kept. -/
def farOne : Decimal := ⟨false, 1, -1000027⟩

def farCoins : Expression := ⟨[.asset farOne "BTC"], [], "USD", false⟩

def farResult : Evaluation := farCoins.portfolio oneDollar ⟨false, 0, -1000026⟩

theorem not_onGrid_farOne : ¬ OnGrid (bottom farOne) farOne.value := by
  have last : bottom farOne = -1000026 := by decide +kernel
  have tenth : farOne.value = 10 ^ (-1000027 : ℤ) := by simp [farOne, value, signed]
  rw [last, tenth]
  rintro ⟨i, same⟩
  rw [ten_zpow_pred (-1000026), ← mul_assoc] at same
  have one : (1 : ℚ) = i * 10 := by
    apply mul_right_cancel₀ (ten_zpow_pos (-1000027)).ne'
    rw [one_mul]
    exact same
  have whole : (1 : ℤ) = i * 10 := by exact_mod_cast one
  omega

/-- A positive amount that is told as zero, in rows that are there. -/
theorem far_coins_told_as_zero :
    Expression.read (farOne.toFixed ++ " btc") "USD" = .ok farCoins ∧
      farCoins.evaluate (fun symbols => .ok (symbols.map oneDollar)) = .ok farResult ∧
      (∃ rows, farResult.rows = .ok rows ∧ rows.map (·.subtitle) =
        ["provider: coinbase · freshness: live", "Formula: 0*1.00(BTC) = 0.00 USD"]) ∧
      0 < farOne.value ∧ ¬ ShowsShort "0" farOne.value := by
  have found : Expression.read (farOne.toFixed ++ " btc") "USD" = .ok farCoins :=
    read_someCoins (by decide) (by decide +kernel)
  have evaluated : farCoins.evaluate (fun symbols => .ok (symbols.map oneDollar)) = .ok farResult :=
    ok_of_toOption (by decide +kernel)
  have told : farOne.plainText = .ok "0" := by decide +kernel
  have price : (ofNat 1).marketText = .ok "1.00" := ok_of_toOption (by decide +kernel)
  have total : (⟨false, 0, -1000026⟩ : Decimal).marketText = .ok "0.00" :=
    ok_of_toOption (by decide +kernel)
  have showable : (ofNat 1).Showable := showable_of_adjusted (by decide +kernel)
  have below : |farOne.value| < reach := lt_reach_of_adjusted (by decide +kernel)
  have only : ∀ t ∈ farCoins.terms, |t.value.value| < reach := List.forall_mem_singleton.mpr below
  obtain ⟨shown, mirrors⟩ := (rows_mirror found oneDollar evaluated).1 rfl
  obtain ⟨rows, done⟩ := shown.mpr ⟨fun _ _ => showable, only⟩
  obtain ⟨w, tells, rfl, _, exact⟩ := (mirrors rows done).wording
  have value : w.value farOne = "0" :=
    Except.ok.inj ((tells.value _ List.mem_cons_self).symm.trans told)
  have priced : w.price (ofNat 1) = "1.00" :=
    Except.ok.inj ((tells.price "BTC" (by decide)).symm.trans price)
  have totalled : w.price ⟨false, 0, -1000026⟩ = "0.00" :=
    Except.ok.inj (tells.total.symm.trans total)
  have exact : ShowsShort "0" farOne.value ↔ OnGrid (bottom farOne) farOne.value :=
    value ▸ exact _ List.mem_cons_self
  refine ⟨found, evaluated, ⟨_, done, ?_⟩, (value_pos_iff _).mpr ⟨rfl, rfl⟩, ?_⟩
  · have piece : w.piece oneDollar (.asset farOne "BTC") = "0*1.00(BTC)" := by
      simp only [Wording.piece, Term.value, Term.symbol?, Option.getD_some, oneDollar, value, priced]
      decide
    have formula : w.formula farCoins oneDollar = "Formula: 0*1.00(BTC)" := by
      simp only [Wording.formula, Wording.pieces, farCoins, List.map_nil, List.zipWith_cons_cons,
        List.zipWith_nil_right, piece]
      decide
    have symbols : farCoins.symbols = ["BTC"] := by decide
    simp only [Wording.rows, symbols, List.map_cons, List.map_nil, List.singleton_append,
      Wording.assetRow, Wording.totalRow, formula, farResult, Expression.portfolio, totalled]
    decide
  · rw [exact]
    exact not_onGrid_farOne

end QuoteDesk
