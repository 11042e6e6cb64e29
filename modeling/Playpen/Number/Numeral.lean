import Playpen.Number.Double
import Playpen.Text.Blank
import Playpen.Text.Digit

namespace Playpen.Numeral

open Text

def maxDigits : Nat := 4300

def normalize (c : Char) : Char :=
  match digitValue? c with
  | some d => Char.ofNat (48 + d)
  | none => if isEdgeBlank c then ' ' else c

def digitOf (c : Char) : Nat := c.toNat - 48

def ofDigits (ds : List Char) : Nat := ds.foldl (fun n c => 10 * n + digitOf c) 0

def joined? : List Char → Option (List Char)
  | [] => some []
  | [c] => if isAsciiDigit c then some [c] else none
  | c :: d :: rest =>
    if !isAsciiDigit c then none
    else if d = '_' then
      match rest with
      | [] => none
      | e :: _ => if isAsciiDigit e then (joined? rest).map (c :: ·) else none
    else (joined? (d :: rest)).map (c :: ·)

def sign : List Char → Bool × List Char
  | '-' :: rest => (true, rest)
  | '+' :: rest => (false, rest)
  | s => (false, s)

def natural? (s : List Char) : Option Nat :=
  match joined? s with
  | some (d :: ds) => if (d :: ds).length ≤ maxDigits then some (ofDigits (d :: ds)) else none
  | _ => none

def integer? (s : String) : Option Int :=
  let (negative, body) := sign (trimBy isEdgeBlank (s.toList.map normalize))
  (natural? body).map fun n => if negative then -(n : Int) else n

/-- Drops underscores, each of which must stand between two digits. -/
def dropUnderscores? : Option Char → List Char → Option (List Char)
  | _, [] => some []
  | before, '_' :: rest =>
    match before, rest with
    | some b, c :: _ =>
      if isAsciiDigit b && isAsciiDigit c then dropUnderscores? (some '_') rest else none
    | _, _ => none
  | _, c :: rest => (dropUnderscores? (some c) rest).map (c :: ·)

def lowerAscii (c : Char) : Char := if 'A' ≤ c ∧ c ≤ 'Z' then Char.ofNat (c.toNat + 32) else c

def exponent? : List Char → Option Int
  | [] => some 0
  | e :: rest =>
    if e = 'e' ∨ e = 'E' then
      let (negative, ds) := sign rest
      if ds ≠ [] ∧ ds.all isAsciiDigit then
        some (if negative then -(ofDigits ds : Int) else ofDigits ds)
      else none
    else none

def unsigned? (negative : Bool) (s : List Char) : Option Double :=
  let whole := s.takeWhile isAsciiDigit
  let rest := s.dropWhile isAsciiDigit
  let (fraction, rest) := match rest with
    | '.' :: r => (r.takeWhile isAsciiDigit, r.dropWhile isAsciiDigit)
    | r => ([], r)
  if whole = [] ∧ fraction = [] then none
  else (exponent? rest).map fun e =>
    Double.ofDecimal negative (ofDigits (whole ++ fraction)) (e - fraction.length)

def double? (s : String) : Option Double := do
  let body ← dropUnderscores? none (trimBy isEdgeBlank (s.toList.map normalize))
  let (negative, body) := sign body
  let word := String.ofList (body.map lowerAscii)
  if word = "inf" ∨ word = "infinity" then some (.infinite negative)
  else if word = "nan" then some .nan
  else unsigned? negative body

end Playpen.Numeral
