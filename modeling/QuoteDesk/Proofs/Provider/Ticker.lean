import QuoteDesk.Provider.Payload
import QuoteDesk.Proofs.Json.Written
import QuoteDesk.Proofs.Steps

/-
Replies of the ticker. A price is what the first item under the close denotes, and the first
character if there is a text in the place of the list. Where a value that should be a list holds
anything without a first item, reading ends in a defect; in all other cases without a price the
failure is put down to the source.
-/
namespace QuoteDesk.Payload

/-! Values of a reply -/

/-- The causes that a reply can be refused for. -/
inductive Refusal : ProviderCause → Prop where
  | http (status : Int) (message : String) : Refusal (.http status message)
  | response (message : String) : Refusal (.invalidResponse message)
  | pair (message : String) : Refusal (.unsupportedPair message)

end QuoteDesk.Payload
