/-!
# Dates and moments

Calendar dates and times of day with an optional offset from universal time, as documents may hold
them. Two moments with offsets are the same when they name the same instant; a moment with an
offset is never the same as one without.
-/
namespace PenPlotter

structure Date where
  year : Nat
  month : Nat
  day : Nat
  deriving DecidableEq, Repr

/-- A date and time of day; `offset` is in minutes east of universal time. -/
structure Moment where
  date : Date
  hour : Nat
  minute : Nat
  second : Nat
  micro : Nat
  offset : Option Int
  deriving DecidableEq, Repr

inductive CalendarFlaw where
  | year (year : Nat)
  | month
  | day
  | hour
  | minute
  | second
  | offset (minutes : Int)
  deriving DecidableEq, Repr

namespace Date

def isLeap (year : Nat) : Bool :=
  year % 4 == 0 && (year % 100 != 0 || year % 400 == 0)

def monthLength (year month : Nat) : Nat :=
  if month = 2 then (if isLeap year then 29 else 28)
  else if month = 4 ∨ month = 6 ∨ month = 9 ∨ month = 11 then 30 else 31

/-- Years run from 1 to 9999. The first fault of year, month and day in this order is reported. -/
def make (year month day : Nat) : Except CalendarFlaw Date :=
  if year < 1 ∨ 9999 < year then .error (.year year)
  else if month < 1 ∨ 12 < month then .error .month
  else if day < 1 ∨ monthLength year month < day then .error .day
  else .ok ⟨year, month, day⟩

/-- Days since the first day of year 1. -/
def ordinal (d : Date) : Nat :=
  let y := d.year - 1
  y * 365 + y / 4 - y / 100 + y / 400 +
    (List.range (d.month - 1)).foldl (fun n m => n + monthLength d.year (m + 1)) 0 + d.day

def padded (width n : Nat) : List Char :=
  let s := Nat.toDigits 10 n
  List.replicate (width - s.length) '0' ++ s

/-- Year, month and day between hyphens. -/
def text (d : Date) : List Char :=
  padded 4 d.year ++ '-' :: padded 2 d.month ++ '-' :: padded 2 d.day

def listed (parts : List Nat) : List Char :=
  (", ".toList).intercalate (parts.map (Nat.toDigits 10))

def shown (d : Date) : List Char :=
  "datetime.date(".toList ++ listed [d.year, d.month, d.day] ++ [')']

end Date

namespace Moment

/-- The offset is checked first, then the date, then the time of day. -/
def make (year month day hour minute second micro : Nat) (offset : Option Int) :
    Except CalendarFlaw Moment := do
  if let some o := offset then
    if o ≤ -1440 ∨ 1440 ≤ o then throw (.offset o)
  let date ← Date.make year month day
  if 23 < hour then throw .hour
  if 59 < minute then throw .minute
  if 59 < second then throw .second
  return ⟨date, hour, minute, second, micro, offset⟩

/-- Microseconds since the start of year 1, in universal time where there is an offset. -/
def instant (m : Moment) : Int :=
  ((((m.date.ordinal * 24 + m.hour : Nat) * 60 + m.minute : Int) - m.offset.getD 0) * 60 +
    m.second) * 1000000 + m.micro

def same (a b : Moment) : Bool :=
  a.offset.isSome == b.offset.isSome && a.instant == b.instant

def offsetText (minutes : Int) : List Char :=
  (if minutes < 0 then '-' else '+') :: Date.padded 2 (minutes.natAbs / 60) ++
    ':' :: Date.padded 2 (minutes.natAbs % 60)

/-- The date, the time, a fraction if there is one, and the offset if there is one. -/
def text (m : Moment) : List Char :=
  m.date.text ++ ' ' :: Date.padded 2 m.hour ++ ':' :: Date.padded 2 m.minute ++
    ':' :: Date.padded 2 m.second ++
    (if m.micro = 0 then [] else '.' :: Date.padded 6 m.micro) ++
    (match m.offset with | some o => offsetText o | none => [])

/-- A span of whole minutes, as days and the seconds left of the last one. -/
def spanShown (minutes : Int) : List Char :=
  let days := minutes / 1440
  let seconds := (minutes % 1440) * 60
  let number (i : Int) : List Char :=
    (if i < 0 then ['-'] else []) ++ Nat.toDigits 10 i.natAbs
  let parts :=
    (if days = 0 then [] else ["days=".toList ++ number days]) ++
    (if seconds = 0 then [] else ["seconds=".toList ++ number seconds])
  "datetime.timedelta(".toList ++
    (if parts.isEmpty then ['0'] else (", ".toList).intercalate parts) ++ [')']

def shown (m : Moment) : List Char :=
  let time := if m.micro ≠ 0 then [m.second, m.micro] else if m.second ≠ 0 then [m.second] else []
  "datetime.datetime(".toList ++
    Date.listed ([m.date.year, m.date.month, m.date.day, m.hour, m.minute] ++ time) ++
    (match m.offset with
      | none => []
      | some 0 => ", tzinfo=datetime.timezone.utc".toList
      | some o => ", tzinfo=datetime.timezone(".toList ++ spanShown o ++ [')']) ++ [')']

end Moment

def CalendarFlaw.message : CalendarFlaw → String
  | .year y => s!"year {y} is out of range"
  | .month => "month must be in 1..12"
  | .day => "day is out of range for month"
  | .hour => "hour must be in 0..23"
  | .minute => "minute must be in 0..59"
  | .second => "second must be in 0..59"
  | .offset m =>
    "offset must be a timedelta strictly between -timedelta(hours=24) and timedelta(hours=24), not " ++
      String.ofList (Moment.spanShown m) ++ "."

end PenPlotter
