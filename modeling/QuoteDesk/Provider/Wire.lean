import QuoteDesk.Table

/-
What the network is to a provider: an address is asked for and a reply comes back.
A wire that plays prepared replies stands in for it wherever runs must be repeatable.
-/
namespace QuoteDesk

/-- What comes back from a request. -/
inductive Reply where
  | response (status : Int) (body : String)
  | disconnected (text : String)
  | timedOut
  | refused
  deriving DecidableEq, Repr

/-- Things that answer requests and change with them. -/
class Wire (ω : Type) where
  request : ω → String → Reply × ω

/-- Prepared replies by address. -/
structure Playback where
  replies : Table (List Reply)
  deriving DecidableEq, Repr

namespace Playback

/-- What an address without prepared replies answers. -/
def notFound : Reply := .response 404 "\x7b\"message\":\"not found\"\x7d"

/-- The replies of an address come in order and the last one stays. -/
def request (w : Playback) (address : String) : Reply × Playback :=
  match w.replies.lookup address with
  | some (r :: next :: more) => (r, ⟨w.replies.set address (next :: more)⟩)
  | some [r] => (r, w)
  | _ => (notFound, w)

/-- More replies; an address that had some gets new ones. -/
def prepare (w : Playback) (replies : List (String × List Reply)) : Playback :=
  ⟨replies.foldl (fun all (address, r) => all.set address r) w.replies⟩

instance : Wire Playback := ⟨request⟩

end Playback

/-- A wire on which nobody can be reached. -/
structure DeadWire where
  text : String
  deriving DecidableEq, Repr

instance : Wire DeadWire := ⟨fun w _ => (.disconnected w.text, w)⟩

/-- A wire with the addresses asked so far; it may not be connected at all. -/
structure Line (ω : Type) where
  wire : ω
  connected : Bool
  requests : List String

end QuoteDesk
