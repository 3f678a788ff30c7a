import QuoteDesk.Binary64
import QuoteDesk.Table

/-
JSON values. Integers of 64 bits stay integers, other numbers are binary ones.
Objects keep their members in order of first mention.
-/
namespace QuoteDesk

inductive Json where
  | null
  | bool (b : Bool)
  | int (i : Int)
  | real (x : Binary64)
  | text (s : String)
  | list (items : List Json)
  | object (members : List (String × Json))
  deriving Repr, Inhabited

namespace Json

/-- The members of an object, for any other value none. -/
def get? (name : String) : Json → Option Json
  | .object members => members.lookup name
  | _ => none

/-- Members as written, the last value of a name in the place of its first. -/
def gather (members : List (String × Json)) : List (String × Json) := Table.ofMembers members

end Json
end QuoteDesk
