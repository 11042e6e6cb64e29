import Playpen.Number.Decimal
import Playpen.Text.Search

namespace Playpen

structure Day where
  year : Nat
  month : Nat
  day : Nat
deriving DecidableEq, Repr

structure Moment where
  day : Day
  hour : Nat
  minute : Nat
  second : Nat
  microsecond : Nat
  offset : Option Int
deriving DecidableEq, Repr

namespace Calendar

def pad (width n : Nat) : String :=
  let ds := Decimal.digitChars n
  String.ofList (List.replicate (width - ds.length) '0' ++ ds)

def byParts (name : String) (parts : List String) : String :=
  name ++ "(" ++ Text.joinWith ", " parts ++ ")"

end Calendar

open Calendar (pad byParts)

namespace Day

def isLeap (year : Nat) : Bool := year % 4 = 0 && (year % 100 ≠ 0 || year % 400 = 0)

def daysIn (year month : Nat) : Nat :=
  if month = 2 then if isLeap year then 29 else 28
  else if [4, 6, 9, 11].contains month then 30 else 31

def isValid (d : Day) : Bool :=
  1 ≤ d.year && 1 ≤ d.month && d.month ≤ 12 && 1 ≤ d.day && d.day ≤ daysIn d.year d.month

def daysBefore (year : Nat) : Nat := 365 * (year - 1) + (year - 1) / 4 - (year - 1) / 100 + (year - 1) / 400

def daysOfMonths (year : Nat) : Nat → Nat
  | 0 => 0
  | month + 1 => daysOfMonths year month + daysIn year (month + 1)

def number (d : Day) : Nat := daysBefore d.year + daysOfMonths d.year (d.month - 1) + d.day - 1

def text (d : Day) : String := pad 4 d.year ++ "-" ++ pad 2 d.month ++ "-" ++ pad 2 d.day

def parts (d : Day) : List String := [toString d.year, toString d.month, toString d.day]

def written (d : Day) : String := byParts "datetime.date" d.parts

end Day

namespace Moment

def isValid (m : Moment) : Bool :=
  m.day.isValid && m.hour < 24 && m.minute < 60 && m.second < 60 &&
    m.offset.all fun o => -1440 < o && o < 1440

def clock (m : Moment) : Int :=
  (((m.day.number * 24 + m.hour) * 60 + m.minute) * 60 + m.second) * 1000000 + m.microsecond

def instant? (m : Moment) : Option Int := m.offset.map fun o => m.clock - o * 60000000

def offsetText (minutes : Int) : String :=
  let size := minutes.natAbs
  (if minutes < 0 then "-" else "+") ++ pad 2 (size / 60) ++ ":" ++ pad 2 (size % 60)

def text (m : Moment) : String :=
  m.day.text ++ " " ++ pad 2 m.hour ++ ":" ++ pad 2 m.minute ++ ":" ++ pad 2 m.second ++
    (if m.microsecond = 0 then "" else "." ++ pad 6 m.microsecond) ++
    (m.offset.map offsetText).getD ""

def span (minutes : Int) : String :=
  let days := minutes.fdiv 1440
  let seconds := (minutes - 1440 * days) * 60
  byParts "datetime.timedelta" ((if days = 0 then [] else [s!"days={days}"]) ++ [s!"seconds={seconds}"])

def zone (minutes : Int) : String :=
  if minutes = 0 then "datetime.timezone.utc" else byParts "datetime.timezone" [span minutes]

def smallParts (m : Moment) : List String :=
  if m.microsecond ≠ 0 then [toString m.second, toString m.microsecond]
  else if m.second ≠ 0 then [toString m.second]
  else []

def written (m : Moment) : String :=
  byParts "datetime.datetime" (m.day.parts ++ [toString m.hour, toString m.minute] ++ m.smallParts ++
    (m.offset.map fun o => "tzinfo=" ++ zone o).toList)

end Moment

end Playpen
