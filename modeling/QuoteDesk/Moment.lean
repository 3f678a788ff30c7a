import QuoteDesk.Json.Basic

/-
Moments of the calendar with microseconds, with or without a distance from
universal time. A moment is kept as the ticks its own calendar shows, so that the
written form is not lost. The calendar runs from year 1 to year 9999.
-/
namespace QuoteDesk

/-- Microseconds since the start of year 1 as shown, and the minutes by which the
shown time is ahead of universal time, if known. -/
structure Moment where
  ticks : Int
  offset : Option Int
  deriving DecidableEq, Repr, Inhabited

namespace Moment

def ticksPerSecond : Int := 1000000

def ticksPerDay : Int := 86400 * ticksPerSecond

def isLeap (y : Nat) : Bool := y % 4 == 0 && (y % 100 != 0 || y % 400 == 0)

/-- Days before the first of January of year `y`. -/
def daysBeforeYear (y : Nat) : Nat := 365 * (y - 1) + (y - 1) / 4 - (y - 1) / 100 + (y - 1) / 400

def monthLengths (leap : Bool) : List Nat :=
  [31, if leap then 29 else 28, 31, 30, 31, 30, 31, 31, 30, 31, 30, 31]

def daysInMonth (y m : Nat) : Nat := (monthLengths (isLeap y)).getD (m - 1) 0

-- The empty sum is the core zero, also where algebra brings a zero of its own.
attribute [local instance (high)] Zero.ofOfNat0

def daysBeforeMonth (y m : Nat) : Nat := ((monthLengths (isLeap y)).take (m - 1)).sum

/-- Days from the start of the calendar to a date. -/
def dayNumber (y m d : Nat) : Nat := daysBeforeYear y + daysBeforeMonth y m + (d - 1)

/-- The year that a day lies in: a first guess is at most one off. -/
def yearOfDay (n : Nat) : Nat :=
  let y := n * 400 / 146097 + 1
  if n < daysBeforeYear y then y - 1
  else if daysBeforeYear (y + 1) ≤ n then y + 1
  else y

/-- Month and day of the month from a day of the year, counted from zero. -/
def monthAndDay : List Nat → Nat → Nat → Nat × Nat
  | [], m, n => (m, n + 1)
  | len :: more, m, n => if n < len then (m, n + 1) else monthAndDay more (m + 1) (n - len)

/-- Year, month and day of a day number. -/
def dateOfDay (n : Nat) : Nat × Nat × Nat :=
  let y := yearOfDay n
  (y, monthAndDay (monthLengths (isLeap y)) 1 (n - daysBeforeYear y))

/-- The end of year 9999. -/
def endOfCalendar : Int := daysBeforeYear 10000 * ticksPerDay

def inCalendar (ticks : Int) : Bool := 0 ≤ ticks && ticks < endOfCalendar

def ofFields (y m d hour minute second micro : Nat) (offset : Option Int) : Moment :=
  ⟨dayNumber y m d * ticksPerDay
      + ((hour * 3600 + minute * 60 + second : Nat) : Int) * ticksPerSecond + micro,
    offset⟩

/-- The ticks that universal time shows; a moment of unknown distance counts as
universal. -/
def universal (t : Moment) : Int := t.ticks - t.offset.getD 0 * 60 * ticksPerSecond

/-- The moment in universal time, if its calendar still holds it. -/
def toUniversal? (t : Moment) : Option Moment :=
  if inCalendar t.universal then some ⟨t.universal, some 0⟩ else none

/-- Later by some ticks, if the calendar still holds it. -/
def later? (t : Moment) (span : Int) : Option Moment :=
  if inCalendar (t.ticks + span) then some { t with ticks := t.ticks + span } else none

/-- The ticks from `a` to `b`; unknown if just one of them has a known distance from
universal time. -/
def ticksBetween (a b : Moment) : Option Int :=
  if a.offset.isSome = b.offset.isSome then some (b.universal - a.universal) else none

/-- Whole seconds of a span, its length in seconds being a binary number of 53 bits
cut toward zero. -/
def wholeSeconds (ticks : Int) : Int :=
  match Binary64.nearest (ticks < 0) ticks.natAbs 1000000 with
  | some x => x.truncate
  | none => 0

/-- The age in whole seconds of what dates from `since`, never below zero. -/
def age? (since now : Moment) : Option Nat :=
  (ticksBetween since now).map fun ticks => (wholeSeconds ticks).toNat

/-! Texts -/

def digits (width n : Nat) : List Char :=
  let ds := Digits.write n
  List.replicate (width - ds.length) '0' ++ ds

/-- Date and time to the second, the year with at least `width` digits. -/
def writeSeconds (width : Nat) (t : Moment) : List Char :=
  let (y, m, d) := dateOfDay (t.ticks / ticksPerDay).toNat
  let s := (t.ticks % ticksPerDay / ticksPerSecond).toNat
  digits width y ++ '-' :: digits 2 m ++ '-' :: digits 2 d ++ 'T' :: digits 2 (s / 3600)
    ++ ':' :: digits 2 (s / 60 % 60) ++ ':' :: digits 2 (s % 60)

def writeOffset (minutes : Int) : List Char :=
  (if minutes < 0 then '-' else '+') :: digits 2 (minutes.natAbs / 60)
    ++ ':' :: digits 2 (minutes.natAbs % 60)

/-- Six digits of a second, none if there is no part of a second. -/
def writeFraction (t : Moment) : List Char :=
  let micro := (t.ticks % ticksPerSecond).toNat
  if micro = 0 then [] else '.' :: digits 6 micro

/-- The form with a numeric distance from universal time. -/
def toIso (t : Moment) : String :=
  String.ofList (writeSeconds 4 t ++ writeFraction t ++ (t.offset.elim [] writeOffset))

/-- The form in which no distance from universal time is the letter Z. -/
def toText (t : Moment) : String :=
  String.ofList (writeSeconds 4 t ++ writeFraction t ++
    match t.offset with
    | none => []
    | some 0 => ['Z']
    | some minutes => writeOffset minutes)

/-- Universal time to the second, if the calendar holds it. The year has no leading
zeros. -/
def toStamp? (t : Moment) : Option String :=
  t.toUniversal?.map fun u => String.ofList (writeSeconds 1 u ++ ['Z'])

end Moment
end QuoteDesk
