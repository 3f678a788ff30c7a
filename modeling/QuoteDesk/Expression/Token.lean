import QuoteDesk.Text.Blank
import QuoteDesk.Text.Letter
import QuoteDesk.Fault

/-
Tokens of an expression's text. Each token is a run of characters of the text and
blanks may stand between any two. A sign belongs to a number only at the start and
after an operator. The word after a number is a symbol: it may hold digits if a
blank divides them and is letters only if it touches the number.
-/
namespace QuoteDesk

inductive TokenKind where
  | number
  | identifier
  | operator
  | keyword
  deriving DecidableEq, Repr

namespace TokenKind

def name : TokenKind → String
  | .number => "number"
  | .identifier => "identifier"
  | .operator => "operator"
  | .keyword => "keyword"

end TokenKind

/-- A token with its place in the text. A word is attached if it touches the number
before it. -/
structure Token where
  kind : TokenKind
  text : List Char
  position : Nat
  attached : Bool
  deriving DecidableEq, Repr

/-- What stands before a place in the text. -/
inductive Before where
  | start
  | operator
  | number (touching : Bool)
  | word
  deriving DecidableEq, Repr

namespace Before

/-- Whether a sign may open a number here. -/
def admitsSign : Before → Bool
  | .start | .operator => true
  | _ => false

def isNumber : Before → Bool
  | .number _ => true
  | _ => false

def touchesNumber (b : Before) : Bool := b == .number true

/-- The same place after a blank. -/
def spaced : Before → Before
  | .number _ => .number false
  | b => b

def after : TokenKind → Before
  | .operator => .operator
  | .number => .number true
  | _ => .word

end Before

namespace Token

def isOperatorChar (c : Char) : Bool := c == '+' || c == '-' || c == '*' || c == '/'

def isSign (c : Char) : Bool := c == '+' || c == '-'

/-- Digits, or a point with digits after it. -/
def opensNumber : List Char → Bool
  | [] => false
  | c :: cs => Text.isDigit c || (c == '.' && (cs.head?.map Text.isDigit).getD false)

/-- As much of the text as a message shows. -/
def fragment (cs : List Char) : String := String.ofList (cs.take 16)

def isTo (word : List Char) : Bool := word.map Char.toLower == ['t', 'o']

/-- A word is a symbol, or the one keyword whatever the case of its letters. -/
def ofWord (word : List Char) (position : Nat) (attached : Bool) : Token :=
  if isTo word then ⟨.keyword, ['t', 'o'], position, false⟩
  else ⟨.identifier, word, position, attached⟩

/-- An unsigned number at the start of a text: digits, a point, digits. A point needs
digits after it, and those before it may be missing. -/
def unsignedNumber (whole : List Char) (cs : List Char) : Except ExpressionFault (List Char) :=
  let digits := cs.takeWhile Text.isDigit
  match cs.dropWhile Text.isDigit with
  | '.' :: more =>
    let fraction := more.takeWhile Text.isDigit
    if !fraction.isEmpty then .ok (digits ++ '.' :: fraction)
    else if digits.isEmpty then .error (.numberToken (fragment whole))
    else .error .pointWithoutDigits
  | _ => if digits.isEmpty then .error (.numberToken (fragment whole)) else .ok digits

/-- A number with its sign. -/
def signedNumber : List Char → Except ExpressionFault (List Char)
  | [] => .error (.numberToken "")
  | c :: cs =>
    if isSign c then (unsignedNumber (c :: cs) cs).map (c :: ·) else unsignedNumber (c :: cs) (c :: cs)

/-- The letters that touch a number. A digit right after them spoils the word. -/
def touchingWord (cs : List Char) : Except ExpressionFault (List Char) :=
  let letters := cs.takeWhile Text.isLetter
  match cs.dropWhile Text.isLetter with
  | c :: _ =>
    if Text.isDigit c then
      .error (.assetToken (String.ofList (cs.takeWhile Text.isAlphanumeric)))
    else .ok letters
  | [] => .ok letters

/-- The token at the start of a text whose first character is not blank. -/
def first (before : Before) (position : Nat) (cs : List Char) : Except ExpressionFault Token :=
  match cs with
  | [] => .error (.unknownToken "")
  | c :: more =>
    if isOperatorChar c && !(isSign c && before.admitsSign && opensNumber more) then
      .ok ⟨.operator, [c], position, false⟩
    else if before.touchesNumber && Text.isLetter c then
      (touchingWord cs).map fun word => ofWord word position true
    else if Text.isAlphanumeric c && (before.isNumber || Text.isLetter c) then
      .ok (ofWord (cs.takeWhile Text.isAlphanumeric) position false)
    else if isSign c || c == '.' || Text.isDigit c then
      (signedNumber cs).map fun literal => ⟨.number, literal, position, false⟩
    else .error (.unknownToken (fragment cs))

/-- The tokens of the text from a place on. -/
def scan (before : Before) (position : Nat) (cs : List Char) :
    Except ExpressionFault (List Token) :=
  match cs with
  | [] => .ok []
  | c :: more =>
    if Text.isBlank c then scan before.spaced (position + 1) more
    else do
      let t ← first before position (c :: more)
      let rest ← scan (.after t.kind) (position + t.text.length) (more.drop (t.text.length - 1))
      return t :: rest
termination_by cs.length
decreasing_by
  all_goals simp only [List.length_cons, List.length_drop]; omega

/-- All tokens of a text. -/
def ofText (s : String) : Except ExpressionFault (List Token) := scan .start 0 s.toList

end Token
end QuoteDesk
