import QuoteDesk.Fault
import QuoteDesk.Decimal.Text

/-
Expressions: terms joined by operators, `operators[i]` between the terms `i` and
`i + 1`. A term is a number or an amount of an asset; an expression is meant to hold
only terms of one kind, and that is checked when it is evaluated. The counts of terms
and operators are those of whoever built the expression.
-/
namespace QuoteDesk

inductive Operator where
  | plus
  | minus
  | times
  | over
  | other (text : String)
  deriving DecidableEq, Repr

namespace Operator

def text : Operator → String
  | .plus => "+"
  | .minus => "-"
  | .times => "*"
  | .over => "/"
  | .other text => text

def ofText (s : String) : Operator :=
  if s = "+" then .plus else if s = "-" then .minus else if s = "*" then .times
  else if s = "/" then .over else .other s

/-- Amounts of assets are added and subtracted only. -/
def joinsAssets : Operator → Bool
  | .plus | .minus => true
  | _ => false

end Operator

inductive Term where
  | number (value : Decimal)
  | asset (value : Decimal) (symbol : String)
  deriving DecidableEq, Repr

namespace Term

/-- The signed number that is written. -/
def value : Term → Decimal
  | .number v => v
  | .asset v _ => v

def symbol? : Term → Option String
  | .number _ => none
  | .asset _ s => some s

def isAsset : Term → Bool
  | .number _ => false
  | .asset _ _ => true

end Term

structure Expression where
  terms : List Term
  operators : List Operator
  target : String
  /-- Whether the target was written in the text. -/
  explicit : Bool
  deriving DecidableEq, Repr

/-- How an expression is evaluated. -/
inductive Mode where
  | numeric
  | asset
  deriving DecidableEq, Repr

namespace Mode

def name : Mode → String
  | .numeric => "numeric"
  | .asset => "asset"

end Mode

namespace Expression

/-- Numbers only, or amounts of assets only. -/
def mode (e : Expression) : Except Fault Mode :=
  if e.terms.isEmpty then .error (.expression .noTerms)
  else if e.terms.all (·.isAsset) then .ok .asset
  else if e.terms.any (·.isAsset) then .error (.mixedModes Fault.mixedModesMessage)
  else .ok .numeric

theorem mode_eq_asset_iff (e : Expression) :
    e.mode = .ok .asset ↔ e.terms ≠ [] ∧ e.terms.all (·.isAsset) = true := by
  unfold mode
  split
  · rename_i none
    simp [List.isEmpty_iff.mp none]
  · rename_i some
    rw [List.isEmpty_iff] at some
    split
    · rename_i all
      simp [some, all]
    · rename_i all
      split <;> simp [all]

theorem mode_eq_numeric_iff (e : Expression) :
    e.mode = .ok .numeric ↔ e.terms ≠ [] ∧ e.terms.any (·.isAsset) = false := by
  unfold mode
  cases e.terms with
  | nil => simp
  | cons t ts =>
    cases t.isAsset <;> simp <;> split <;> simp_all

/-- The symbols of the terms, each once, in the order of first mention. -/
def distinct : List String → List String
  | [] => []
  | s :: more => s :: (distinct more).filter (· ≠ s)

def symbols (e : Expression) : List String := distinct (e.terms.filterMap (·.symbol?))

theorem mem_distinct (s : String) (l : List String) : s ∈ distinct l ↔ s ∈ l := by
  induction l with
  | nil => simp [distinct]
  | cons a l ih =>
    by_cases h : s = a
    · simp [distinct, h]
    · simp [distinct, h, ih]

theorem nodup_distinct (l : List String) : (distinct l).Nodup := by
  induction l with
  | nil => simp [distinct]
  | cons a l ih =>
    simp only [distinct, List.nodup_cons]
    exact ⟨by simp, List.Pairwise.filter _ ih⟩

end Expression
end QuoteDesk
