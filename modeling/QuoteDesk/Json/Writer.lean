import QuoteDesk.Json.Basic

/-
Compact JSON texts: no blanks between tokens, members in order, all characters as
they are but the quote, the backslash and the controls below the space.
-/
namespace QuoteDesk.Json

def hexDigit (n : Nat) : Char :=
  if n < 10 then Char.ofNat ('0'.toNat + n) else Char.ofNat ('a'.toNat + (n - 10))

def escape (c : Char) : List Char :=
  match c with
  | '"' => ['\\', '"']
  | '\\' => ['\\', '\\']
  | '\x08' => ['\\', 'b']
  | '\x0c' => ['\\', 'f']
  | '\n' => ['\\', 'n']
  | '\r' => ['\\', 'r']
  | '\t' => ['\\', 't']
  | c => if c.toNat < 0x20 then ['\\', 'u', '0', '0', hexDigit (c.toNat / 16), hexDigit (c.toNat % 16)]
    else [c]

def writeString (s : String) : List Char := '"' :: s.toList.flatMap escape ++ ['"']

mutual

def writeChars : Json → List Char
  | .null => "null".toList
  | .bool b => (if b then "true" else "false").toList
  | .int i => Decimal.writeInt i
  | .real x => x.toText.toList
  | .text s => writeString s
  | .list items => '[' :: writeItems items ++ [']']
  | .object members => '{' :: writeMembers members ++ ['}']

def writeItems : List Json → List Char
  | [] => []
  | [v] => writeChars v
  | v :: vs => writeChars v ++ ',' :: writeItems vs

def writeMembers : List (String × Json) → List Char
  | [] => []
  | [(n, v)] => writeString n ++ ':' :: writeChars v
  | (n, v) :: ms => writeString n ++ ':' :: writeChars v ++ ',' :: writeMembers ms

end

def write (v : Json) : String := String.ofList (writeChars v)

end QuoteDesk.Json
