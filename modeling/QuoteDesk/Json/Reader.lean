import QuoteDesk.Json.Basic

/-
Strict reading of JSON texts: one value, only the four blanks around tokens, no
raw control characters in strings, no half of a surrogate pair, no number past the
largest binary one, at most 1024 containers inside one another. Each step gives
what it read and what is left.
-/
namespace QuoteDesk.Json

def deepest : Nat := 1024

def isSpace (c : Char) : Bool := c == ' ' || c == '\t' || c == '\n' || c == '\r'

def skipSpace (cs : List Char) : List Char := cs.dropWhile isSpace

def hexValue? (c : Char) : Option Nat :=
  if Text.isDigit c then some (c.toNat - '0'.toNat)
  else if 'a' ≤ c && c ≤ 'f' then some (c.toNat - 'a'.toNat + 10)
  else if 'A' ≤ c && c ≤ 'F' then some (c.toNat - 'A'.toNat + 10)
  else none

/-- Four hexadecimal digits. -/
def readUnit : List Char → Option (Nat × List Char)
  | a :: b :: c :: d :: rest => do
    let a ← hexValue? a
    let b ← hexValue? b
    let c ← hexValue? c
    let d ← hexValue? d
    some (4096 * a + 256 * b + 16 * c + d, rest)
  | _ => none

/-- The character of an escape whose `u` has been read; two units may make one. -/
def readEscape (cs : List Char) : Option (Char × List Char) := do
  let (u, rest) ← readUnit cs
  if 0xd800 ≤ u && u < 0xdc00 then
    match rest with
    | '\\' :: 'u' :: more => do
      let (v, rest) ← readUnit more
      if 0xdc00 ≤ v && v < 0xe000 then
        some (Char.ofNat (0x10000 + 1024 * (u - 0xd800) + (v - 0xdc00)), rest)
      else none
    | _ => none
  else if 0xdc00 ≤ u && u < 0xe000 then none
  else some (Char.ofNat u, rest)

def simpleEscape? : Char → Option Char
  | '"' => some '"'
  | '\\' => some '\\'
  | '/' => some '/'
  | 'b' => some '\x08'
  | 'f' => some '\x0c'
  | 'n' => some '\n'
  | 'r' => some '\r'
  | 't' => some '\t'
  | _ => none

/-- The characters of a string after its opening quote; `fuel` bounds their number. -/
def readString : Nat → List Char → List Char → Option (String × List Char)
  | 0, _, _ => none
  | _ + 1, _, [] => none
  | fuel + 1, done, c :: cs =>
    if c = '"' then some (String.ofList done.reverse, cs)
    else if c = '\\' then
      match cs with
      | 'u' :: more => do
        let (d, rest) ← readEscape more
        readString fuel (d :: done) rest
      | e :: rest => do
        let d ← simpleEscape? e
        readString fuel (d :: done) rest
      | [] => none
    else if c.toNat < 0x20 then none
    else readString fuel (c :: done) cs

/-- Digits as a number with sign: a 64-bit integer stays one. -/
def ofInteger (negative : Bool) (ds : List Char) : Option Json :=
  let n := Numeral.readNat ds
  let i : Int := if negative then -n else n
  if -9223372036854775808 ≤ i && i ≤ 18446744073709551615 then some (.int i)
  else (Binary64.ofDecimal ⟨negative, n, 0⟩).map .real

/-- A number: no leading zeros, digits on both sides of a point, digits in a power. -/
def readNumber (cs : List Char) : Option (Json × List Char) :=
  let (negative, cs) := match cs with
    | '-' :: more => (true, more)
    | _ => (false, cs)
  let whole := cs.takeWhile Text.isDigit
  let rest := cs.dropWhile Text.isDigit
  if whole = [] ∨ (whole.head? = some '0' ∧ whole.length ≠ 1) then none
  else
    let (fraction, rest', bad) := match rest with
      | '.' :: more => (more.takeWhile Text.isDigit, more.dropWhile Text.isDigit,
          (more.takeWhile Text.isDigit).isEmpty)
      | _ => ([], rest, false)
    if bad then none
    else
      match rest' with
      | 'e' :: more | 'E' :: more =>
        let (minus, more) := Numeral.splitSign more
        let es := more.takeWhile Text.isDigit
        if es = [] then none
        else
          let e : Int := if minus then -(Numeral.readNat es : Int) else Numeral.readNat es
          (Binary64.ofDecimal
              ⟨negative, Numeral.readNat (whole ++ fraction), e - fraction.length⟩).map
            fun x => (.real x, more.dropWhile Text.isDigit)
      | _ =>
        if fraction = [] then (ofInteger negative whole).map fun v => (v, rest')
        else
          (Binary64.ofDecimal
              ⟨negative, Numeral.readNat (whole ++ fraction), -(fraction.length : Int)⟩).map
            fun x => (.real x, rest')

def afterWord (word : List Char) (v : Json) (cs : List Char) : Option (Json × List Char) :=
  if cs.take word.length = word then some (v, cs.drop word.length) else none

mutual

/-- A value at the start of the text; `room` is how many containers may still open. -/
def readValue : (fuel room : Nat) → List Char → Option (Json × List Char)
  | 0, _, _ => none
  | fuel + 1, room, cs =>
    match cs with
    | 'n' :: _ => afterWord "null".toList .null cs
    | 't' :: _ => afterWord "true".toList (.bool true) cs
    | 'f' :: _ => afterWord "false".toList (.bool false) cs
    | '"' :: more => (readString fuel [] more).map fun (s, rest) => (.text s, rest)
    | '[' :: more =>
      match room with
      | 0 => none
      | room + 1 =>
        match skipSpace more with
        | ']' :: rest => some (.list [], rest)
        | more => (readItems fuel room [] more).map fun (vs, rest) => (.list vs, rest)
    | '{' :: more =>
      match room with
      | 0 => none
      | room + 1 =>
        match skipSpace more with
        | '}' :: rest => some (.object [], rest)
        | more => (readMembers fuel room [] more).map fun (ms, rest) => (.object (gather ms), rest)
    | _ => readNumber cs

/-- Items up to the closing bracket, at least one. -/
def readItems : (fuel room : Nat) → List Json → List Char → Option (List Json × List Char)
  | 0, _, _, _ => none
  | fuel + 1, room, done, cs => do
    let (v, rest) ← readValue fuel room (skipSpace cs)
    match skipSpace rest with
    | ',' :: more => readItems fuel room (v :: done) more
    | ']' :: more => some ((v :: done).reverse, more)
    | _ => none

/-- Members up to the closing brace, at least one. -/
def readMembers : (fuel room : Nat) → List (String × Json) → List Char →
    Option (List (String × Json) × List Char)
  | 0, _, _, _ => none
  | fuel + 1, room, done, cs =>
    match skipSpace cs with
    | '"' :: more => do
      let (name, rest) ← readString fuel [] more
      match skipSpace rest with
      | ':' :: more => do
        let (v, rest) ← readValue fuel room (skipSpace more)
        match skipSpace rest with
        | ',' :: more => readMembers fuel room ((name, v) :: done) more
        | '}' :: more => some (((name, v) :: done).reverse, more)
        | _ => none
      | _ => none
    | _ => none

end

/-- The value that a whole text denotes. Every two steps take a character. -/
def readChars (cs : List Char) : Option Json := do
  let (v, rest) ← readValue (2 * cs.length + 2) deepest (skipSpace cs)
  if skipSpace rest = [] then some v else none

def read (s : String) : Option Json := readChars s.toList

end QuoteDesk.Json
