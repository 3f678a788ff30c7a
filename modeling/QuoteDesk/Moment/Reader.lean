import QuoteDesk.Moment

/-
Moments from texts and JSON values. A text gives date and time, the time to the
minute or finer, and may end with a distance from universal time; a date alone is
its first moment. Numbers, also in a text, count seconds from 1970, or milliseconds
when they are large.
-/
namespace QuoteDesk.Moment

/-- The value of exactly `k` digits at the start of the text. -/
def takeDigits (k : Nat) (cs : List Char) : Option (Nat × List Char) :=
  let ds := cs.take k
  if ds.length = k ∧ ds.all Text.isDigit then some (Numeral.readNat ds, cs.drop k) else none

def takeChar (accepted : List Char) : List Char → Option (List Char)
  | c :: cs => if accepted.contains c then some cs else none
  | [] => none

/-- Year, month and day. -/
def readDate (cs : List Char) : Option ((Nat × Nat × Nat) × List Char) := do
  let (y, cs) ← takeDigits 4 cs
  let cs ← takeChar ['-'] cs
  let (m, cs) ← takeDigits 2 cs
  let cs ← takeChar ['-'] cs
  let (d, cs) ← takeDigits 2 cs
  if 1 ≤ y && 1 ≤ m && m ≤ 12 && 1 ≤ d && d ≤ daysInMonth y m then some ((y, m, d), cs) else none

/-- Microseconds from the digits after a point; more than six are cut. -/
def microOf (ds : List Char) : Nat :=
  Numeral.readNat (ds.take 6) * 10 ^ (6 - (ds.take 6).length)

/-- Ticks since midnight. -/
def readTime (cs : List Char) : Option (Int × List Char) := do
  let (hour, cs) ← takeDigits 2 cs
  let cs ← takeChar [':'] cs
  let (minute, cs) ← takeDigits 2 cs
  if 23 < hour || 59 < minute then none
  else
    let base : Int := ((hour * 3600 + minute * 60 : Nat) : Int) * ticksPerSecond
    match cs with
    | ':' :: more => do
      let (second, cs) ← takeDigits 2 more
      if 59 < second then none
      else
        let base := base + second * ticksPerSecond
        match cs with
        | '.' :: more | ',' :: more =>
          let ds := more.takeWhile Text.isDigit
          if ds = [] then none else some (base + microOf ds, more.dropWhile Text.isDigit)
        | _ => some (base, cs)
    | _ => some (base, cs)

/-- The distance from universal time that ends a text, if any. -/
def readOffset (cs : List Char) : Option (Option Int) :=
  match cs with
  | [] => some none
  | ['Z'] | ['z'] => some (some 0)
  | sign :: more => do
    let sign : Int ← if sign = '+' then some 1 else if sign = '-' ∨ sign = '−' then some (-1) else none
    let (hours, cs) ← takeDigits 2 more
    let cs := match cs with
      | ':' :: more => more
      | _ => cs
    let (minutes, cs) ← takeDigits 2 cs
    if cs = [] ∧ minutes < 60 ∧ hours < 24 then some (some (sign * (hours * 60 + minutes : Nat)))
    else none

def readDateTime (cs : List Char) : Option Moment := do
  let ((y, m, d), cs) ← readDate cs
  let cs ← takeChar ['T', 't', ' ', '_'] cs
  let (time, cs) ← readTime cs
  let offset ← readOffset cs
  some ⟨dayNumber y m d * ticksPerDay + time, offset⟩

def readDateAlone (cs : List Char) : Option Moment := do
  let ((y, m, d), cs) ← readDate cs
  if cs = [] then some ⟨dayNumber y m d * ticksPerDay, none⟩ else none

/-- Date and time in a text. -/
def read (s : String) : Option Moment := readDateTime s.toList <|> readDateAlone s.toList

/-- Counts from 1970 past this are milliseconds. -/
def millisecondsFrom : Int := 20000000000

/-- The moment `count` seconds or milliseconds and some microseconds from the start
of 1970, from the year 1600 on. -/
def ofCount (count micro : Int) : Option Moment :=
  let ticks := if count.natAbs ≤ millisecondsFrom then count * ticksPerSecond else count * 1000
  let ticks := ticks + micro
  let epoch : Int := dayNumber 1970 1 1 * ticksPerDay
  if (dayNumber 1600 1 1 : Int) * ticksPerDay ≤ epoch + ticks && inCalendar (epoch + ticks) then
    some ⟨epoch + ticks, some 0⟩
  else none

/-- A count with a part of a unit, which gives microseconds to the nearest. -/
def ofReal (x : Binary64) : Option Moment :=
  let (n, d) := x.fraction
  let below := if x.negative && n % d != 0 then x.truncate - 1 else x.truncate
  ofCount below (Rounding.halfUp.divide false (n % d * 1000000) d)

def plainNumberChar (c : Char) : Bool := Text.isDigit c || ['+', '-', '.', 'e', 'E'].contains c

/-- A moment given as text, as a count in a text, or as a count. -/
def ofJson? : Json → Option Moment
  | .text s =>
    read s <|> do
      let d ← Decimal.read s
      if !s.toList.all plainNumberChar || 40 < d.adjusted then none
      else if s.toList.all fun c => c != '.' && c != 'e' && c != 'E' then ofCount (d.scaledTo 0) 0
      else (Binary64.ofDecimal d).bind ofReal
  | .int i => ofCount i 0
  | .real x => ofReal x
  | _ => none

end QuoteDesk.Moment
