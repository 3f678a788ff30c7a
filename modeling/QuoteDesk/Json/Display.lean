import QuoteDesk.Json.Basic
import QuoteDesk.Text.Printable

/-
Values as they are shown in a message. A string alone stands as it is; inside a
list or an object it is quoted, with the double quote only if it holds an
apostrophe and no double quote.
-/
namespace QuoteDesk.Json

def lowHex : Nat → Nat → List Char
  | 0, _ => []
  | k + 1, n =>
    let d := n % 16
    lowHex k (n / 16) ++ [if d < 10 then Char.ofNat (48 + d) else Char.ofNat (87 + d)]

/-- A character inside quotes `q`: hidden ones by their code point. -/
def showChar (q c : Char) : List Char :=
  if c = q ∨ c = '\\' then ['\\', c]
  else if c = '\n' then ['\\', 'n']
  else if c = '\r' then ['\\', 'r']
  else if c = '\t' then ['\\', 't']
  else if Text.isPrintable c then [c]
  else if c.toNat < 0x100 then '\\' :: 'x' :: lowHex 2 c.toNat
  else if c.toNat < 0x10000 then '\\' :: 'u' :: lowHex 4 c.toNat
  else '\\' :: 'U' :: lowHex 8 c.toNat

def quoted (s : String) : List Char :=
  let q := if s.toList.contains '\x27' && !s.toList.contains '"' then '"' else '\x27'
  q :: s.toList.flatMap (showChar q) ++ [q]

mutual

/-- A value inside a list or an object. -/
def showInner : Json → List Char
  | .null => "None".toList
  | .bool b => (if b then "True" else "False").toList
  | .int i => Decimal.writeInt i
  | .real x => x.toText.toList
  | .text s => quoted s
  | .list items => '[' :: showItems items ++ [']']
  | .object members => '{' :: showMembers members ++ ['}']

def showItems : List Json → List Char
  | [] => []
  | [v] => showInner v
  | v :: vs => showInner v ++ ',' :: ' ' :: showItems vs

def showMembers : List (String × Json) → List Char
  | [] => []
  | [(n, v)] => quoted n ++ ':' :: ' ' :: showInner v
  | (n, v) :: ms => quoted n ++ ':' :: ' ' :: showInner v ++ ',' :: ' ' :: showMembers ms

end

/-- A value on its own. -/
def display : Json → String
  | .text s => s
  | v => String.ofList (showInner v)

end QuoteDesk.Json
