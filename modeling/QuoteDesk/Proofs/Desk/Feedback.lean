import QuoteDesk.Proofs.Decimal.Retold
import QuoteDesk.Proofs.Desk.Untouched
import QuoteDesk.Proofs.Expression.Acceptance

/-
Results as queries. What a numeric query shows is a number with all its digits in one text, so
that this text is a query of its own, which is read as that number and shows it again.
-/
namespace QuoteDesk

open Decimal

theorem Outcome.ok_of_ofArithmetic {α : Type} {x : Except Signal α} {a : α}
    (done : ofArithmetic x = .ok a) : x = .ok a := by
  cases x with
  | error s => cases done
  | ok b => exact congrArg _ (Except.ok.inj done)

namespace Expression

/-! Totals -/

/-- Each step ends with a number that is brought to the usual number of digits. -/
theorem fit_of_applyNumeric {total value next : Decimal} {op : Operator}
    (applied : applyNumeric total op value = .ok next) : ∃ exact, fit precision exact = .ok next := by
  cases op with
  | plus => exact ⟨_, Outcome.ok_of_ofArithmetic applied⟩
  | minus => exact ⟨_, Outcome.ok_of_ofArithmetic applied⟩
  | times => exact ⟨_, Outcome.ok_of_ofArithmetic applied⟩
  | «over» =>
    rw [applyNumeric] at applied
    split at applied
    · cases applied
    · have divided := Outcome.ok_of_ofArithmetic applied
      unfold div at divided
      split at divided
      · cases divided
      · split at divided
        · exact ⟨_, divided⟩
        · exact ⟨_, divided⟩
  | other text => cases applied

/-- The total is the only number that there is, or the result of a step. -/
theorem tellable_total {values : List Decimal} {operators : List Operator} {total : Decimal}
    (evaluated : numericTotal values operators = .ok total)
    (inside : ∀ v ∈ values, v.InPlaces) (readable : ∀ v ∈ values, v.admissible = true) :
    Tellable total.value ∧ OnGrid lowestExponent total.value := by
  cases values with
  | nil => cases evaluated
  | cons v vs =>
    rcases start_or_step fit_of_applyNumeric evaluated with rfl | ⟨exact, fitted⟩
    · constructor
      · exact (inside total List.mem_cons_self).tellable
      · have held := readable total List.mem_cons_self
        rw [admissible, Bool.and_eq_true, decide_eq_true_eq] at held
        exact (onGrid_value total).mono held.1
    · constructor
      · exact tellable_of_fit fitted
      · have low : lowestExponent ≤ etiny precision := by decide
        exact (onGrid_value total).mono (low.trans (etiny_le_of_fit fitted))

/-! Readings -/

/-- A numeric text names no target, and all its numbers can be read. -/
theorem numbers_of_read {text default : String} {e : Expression}
    (found : read text default = .ok e) (numeric : e.mode = .ok .numeric) :
    Symbol.readCurrency "default_fiat" default = .ok e.target ∧
      ∀ v ∈ e.terms.map (·.value), v.admissible = true := by
  have bare := (e.mode_eq_numeric_iff.mp numeric).2
  obtain ⟨target, passes, told⟩ := passes_of_read found
  have untargeted : target = none := by
    cases target with
    | none => rfl
    | some fiat =>
      rw [passes.held rfl] at bare
      cases bare
  rw [untargeted] at told
  have accepted := told.resolve_left (by simp)
  obtain ⟨p, derives, representable⟩ := derives_of_passes passes (.inr bare)
  have spelled := read_of_derives accepted derives representable
  rw [found] at spelled
  constructor
  · exact accepted
  intro v member
  rw [Except.ok.inj spelled] at member
  simp only [Phrase.expression, List.map_map, List.mem_map] at member
  obtain ⟨a, inside, rfl⟩ := member
  have same : a.term.value = a.literal.value := by
    unfold Amount.term
    cases a.suffix <;> rfl
  rw [Function.comp_apply, same]
  exact representable a inside

theorem blank_nil : ∀ c ∈ ([] : List Char), Text.isBlank c = true := List.forall_mem_nil _

/-- A number alone is a phrase. -/
def loneNumber (l : Literal) : Phrase :=
  let nothing : Gap := ⟨[], blank_nil⟩
  ⟨nothing, ⟨l, none⟩, [], none, nothing⟩

theorem forall_amounts {p : Phrase} (alone : p.links = []) {property : Amount → Prop}
    (head : property p.head) : ∀ a ∈ p.amounts, property a := by
  rw [Phrase.amounts, alone]
  exact List.forall_mem_singleton.mpr head

theorem read_number {default fiat : String} {l : Literal}
    (accepted : Symbol.readCurrency "default_fiat" default = .ok fiat)
    (readable : l.value.admissible = true) :
    read (String.ofList l.text) default = .ok ⟨[.number l.value], [], fiat, false⟩ := by
  have numeric : (loneNumber l).IsNumeric := ⟨forall_amounts rfl rfl, rfl⟩
  have text : (loneNumber l).text = (String.ofList l.text).toList := by
    simp [loneNumber, Phrase.text, Phrase.tail, Amount.text]
  exact read_of_derives accepted ⟨.inl numeric, text⟩ (forall_amounts rfl readable)

theorem plan_finished {e : Expression} {result : Evaluation}
    (planned : e.plan = .ok (.finished result)) :
    e.mode = .ok .numeric ∧ result.mode = .numeric ∧
      numericTotal (e.terms.map (·.value)) e.operators = .ok result.total := by
  unfold plan at planned
  split at planned
  · cases planned
  · rename_i numeric
    obtain ⟨total, evaluated, planned⟩ := ok_of_bind planned
    cases planned
    exact ⟨numeric, rfl, evaluated⟩
  · cases planned

end Expression

/-! Rows -/

/-- The row of a numeric result. -/
def numericRow (text : String) : Row := ⟨text, "Numeric result", text, true⟩

theorem Evaluation.rows_numeric {result : Evaluation} {s : String} (numeric : result.mode = .numeric)
    (told : result.total.plainText = .ok s) : result.rows = .ok [numericRow s] := by
  simp only [rows, numeric, told]
  rfl

namespace Desk

variable {σ ω : Type} [Store σ]

theorem query_finished (d : Desk σ ω) {text s : String} {target : Option String} {e : Expression}
    {result : Evaluation} (found : Expression.read text (d.targetOf target) = .ok e)
    (planned : e.plan = .ok (.finished result)) (told : result.total.plainText = .ok s) :
    d.query text target = (.ok [numericRow s], d) := by
  obtain ⟨_, numeric, _⟩ := Expression.plan_finished planned
  have shown := Evaluation.rows_numeric numeric told
  simp only [query, found, evaluate, planned]
  rw [← shown]
  rfl

/-- A numeric query that has a value shows one row and asks for nothing, as long as its numbers are
in the range of places. The title of the row is again a numeric query, with the same default target,
of one number that is the total with all its digits, and shows the same row. -/
theorem query_of_title (d : Desk σ ω) {text : String} {target : Option String} {e : Expression}
    {result : Evaluation} (found : Expression.read text (d.targetOf target) = .ok e)
    (planned : e.plan = .ok (.finished result)) (inside : ∀ t ∈ e.terms, t.value.InPlaces) :
    ∃ row, d.query text target = (.ok [row], d) ∧
      ∃ v, Expression.read row.title (d.targetOf target) = .ok ⟨[.number v], [], e.target, false⟩ ∧
        v.value = result.total.value ∧ d.query row.title target = (.ok [row], d) := by
  obtain ⟨numeric, _, evaluated⟩ := Expression.plan_finished planned
  obtain ⟨accepted, readable⟩ := Expression.numbers_of_read found numeric
  have placed : ∀ v ∈ e.terms.map (·.value), v.InPlaces := by
    intro v member
    obtain ⟨t, term, rfl⟩ := List.mem_map.mp member
    exact inside t term
  obtain ⟨tellable, grid⟩ := Expression.tellable_total evaluated placed readable
  obtain ⟨s, told, l, text, writes, last⟩ := tellable.shows
  have same := writes.value
  have told' : l.value.plainText = .ok s := (tellable.plainText_eq same.symm).symm.trans told
  have reread : Expression.read s (d.targetOf target) =
      .ok ⟨[.number l.value], [], e.target, false⟩ := by
    rw [← same] at tellable grid
    rw [text]
    exact Expression.read_number accepted (Literal.admissible_of_tellable last tellable grid)
  have replanned : (Expression.mk [.number l.value] [] e.target false).plan =
      .ok (.finished ⟨.numeric, l.value, e.target, [.number l.value], [], []⟩) := rfl
  refine ⟨numericRow s, d.query_finished found planned told, l.value, reread, same, ?_⟩
  exact d.query_finished reread replanned told'

/-- A quotient with 28 digits, below zero. -/
def quotient : Evaluation :=
  ⟨.numeric, ⟨true, 2142857142857142857142857143, -28⟩, "USD",
    [.number ⟨true, 50, -2⟩, .number ⟨false, 3, 0⟩, .number ⟨false, 7, 0⟩], [.times, .over], []⟩

theorem quotient_of_title :
    Expression.read "-0.50*3 / 7" (newDesk.targetOf none) =
        .ok ⟨quotient.terms, quotient.operators, "USD", false⟩ ∧
      (Expression.mk quotient.terms quotient.operators "USD" false).plan =
        .ok (.finished quotient) ∧
      (∀ t ∈ quotient.terms, t.value.InPlaces) ∧
      ∃ row, newDesk.query "-0.50*3 / 7" none = (.ok [row], newDesk) ∧
        newDesk.query row.title none = (.ok [row], newDesk) := by
  have found : Expression.read "-0.50*3 / 7" (newDesk.targetOf none) =
      .ok ⟨quotient.terms, quotient.operators, "USD", false⟩ := ok_of_toOption (by decide +kernel)
  have planned : (Expression.mk quotient.terms quotient.operators "USD" false).plan =
      .ok (.finished quotient) := ok_of_toOption (by decide +kernel)
  have inside : ∀ t ∈ quotient.terms, t.value.InPlaces := by decide +kernel
  obtain ⟨row, shown, _, _, _, again⟩ := query_of_title newDesk found planned inside
  exact ⟨found, planned, inside, row, shown, again⟩

end Desk
end QuoteDesk
