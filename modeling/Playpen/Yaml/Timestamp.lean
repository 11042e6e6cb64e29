import Playpen.Number.Numeral
import Playpen.Scalar

namespace Playpen.Yaml

structure TimeOfDay where
  hour : Nat
  minute : Nat
  second : Nat
  fraction : List Char
  offset : Option Int
deriving DecidableEq, Repr

structure Timestamp where
  year : Nat
  month : Nat
  day : Nat
  padded : Bool
  time : Option TimeOfDay
deriving DecidableEq, Repr

namespace Timestamp

open Text (isAsciiDigit)
open Numeral (ofDigits)

def digits (least most : Nat) (s : List Char) : Option (List Char × List Char) :=
  let ds := (s.take most).takeWhile isAsciiDigit
  if least ≤ ds.length then some (ds, s.drop ds.length) else none

def exactly (c : Char) : List Char → Option (List Char)
  | d :: rest => if c = d then some rest else none
  | [] => none

def isGap (c : Char) : Bool := c = ' ' || c = '\t'

def offset? (s : List Char) : Option (Option Int) :=
  match s.dropWhile isGap with
  | ['Z'] => some (some 0)
  | sgn :: rest =>
    if sgn = '-' ∨ sgn = '+' then do
      let (hours, rest) ← digits 1 2 rest
      let minutes : Option Nat ← match rest with
        | [] => some (some 0)
        | ':' :: rest => do
          let (minutes, rest) ← digits 2 2 rest
          if rest = [] then some (some (ofDigits minutes)) else none
        | _ => none
      let size : Int := 60 * ofDigits hours + minutes.getD 0
      some (some (if sgn = '-' then -size else size))
    else none
  | [] => if s = [] then some none else none

def time? (s : List Char) : Option TimeOfDay := do
  let (hour, s) ← digits 1 2 s
  let s ← exactly ':' s
  let (minute, s) ← digits 2 2 s
  let s ← exactly ':' s
  let (second, s) ← digits 2 2 s
  let (fraction, s) := match s with
    | '.' :: rest => (rest.takeWhile isAsciiDigit, rest.dropWhile isAsciiDigit)
    | s => ([], s)
  let offset ← offset? s
  some ⟨ofDigits hour, ofDigits minute, ofDigits second, fraction, offset⟩

def withoutLineEnd (s : List Char) : List Char := if s.getLast? = some '\n' then s.dropLast else s

def parse? (s : List Char) : Option Timestamp := do
  let (year, s) ← digits 4 4 (withoutLineEnd s)
  let s ← exactly '-' s
  let (month, s) ← digits 1 2 s
  let s ← exactly '-' s
  let (day, s) ← digits 1 2 s
  let padded := month.length = 2 && day.length = 2
  let date := Timestamp.mk (ofDigits year) (ofDigits month) (ofDigits day) padded
  match s with
  | [] => some (date none)
  | c :: rest =>
    if c = 'T' ∨ c = 't' then (time? rest).map fun t => date (some t)
    else if isGap c then (time? (rest.dropWhile isGap)).map fun t => date (some t)
    else none

def isPlain (s : List Char) : Bool := (parse? s).any fun t => t.time.isSome || t.padded

def microseconds (fraction : List Char) : Nat := ofDigits ((fraction ++ List.replicate 6 '0').take 6)

def value? (t : Timestamp) : Option Scalar :=
  let day : Day := ⟨t.year, t.month, t.day⟩
  match t.time with
  | none => if day.isValid then some (.day day) else none
  | some time =>
    let moment : Moment :=
      ⟨day, time.hour, time.minute, time.second, microseconds time.fraction, time.offset⟩
    if moment.isValid then some (.moment moment) else none

end Timestamp

end Playpen.Yaml
