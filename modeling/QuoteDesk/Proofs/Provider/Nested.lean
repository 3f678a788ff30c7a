import QuoteDesk.Proofs.Decimal.Spelled
import QuoteDesk.Proofs.Provider.Ticker

/-
Replies with the price in an object in an object. A price is what a text or a number under the two
names spells as a finite number; every other reply is refused, by its status if that is none of the
two hundreds, and as a reply that cannot be understood if it is.
-/
namespace QuoteDesk.Payload

/-! Values of a reply -/

/-- The value stands under two names, one in the other. -/
inductive Holds (outer inner : String) : Json → Json → Prop where
  | nested {members inside : List (String × Json)} {raw : Json}
    (first : members.lookup outer = some (.object inside)) (second : inside.lookup inner = some raw) :
    Holds outer inner (.object members) raw

/-- The failures that a reply with this status is refused with. -/
inductive RefusedBy (status : Int) : Failure → Prop where
  | status (outside : ¬ (200 ≤ status ∧ status ≤ 299)) (message : String) :
    RefusedBy status (.fault (.provider ⟨.http status message, none⟩))
  | reply (inside : 200 ≤ status ∧ status ≤ 299) (message : String) :
    RefusedBy status (.fault (.provider ⟨.invalidResponse message, none⟩))

theorem RefusedBy.retryable_iff {status : Int} {f : Failure} (refused : RefusedBy status f) :
    f.retryable = true ↔ status = 429 ∨ 500 ≤ status ∧ status ≤ 599 := by
  cases refused with
  | status outside message =>
    simp [Failure.retryable, Fault.retryable, ProviderFault.retryable, ProviderCause.retryable]
  | reply inside message =>
    simp only [Failure.retryable, Fault.retryable, ProviderFault.retryable, ProviderCause.retryable,
      Bool.false_eq_true, false_iff]
    omega

section Nested

variable {outer inner missing : String} {number? : Json → Option Decimal} {invalid : Json → String}
  {status : Int} {body : String}

end Nested

end QuoteDesk.Payload
