import Playpen.Number.Double

namespace Playpen

/-- The number `digits * 10 ^ exponent`. -/
structure Decimal where
  digits : Nat
  exponent : Int
deriving DecidableEq

namespace Decimal

def countDigits (n : Nat) : Nat := (Nat.toDigits 10 n).length

def point (d : Decimal) : Int := d.exponent + countDigits d.digits

def dropZeros (fuel : Nat) (d : Decimal) : Decimal :=
  match fuel with
  | 0 => d
  | fuel + 1 =>
    if d.digits ≠ 0 ∧ d.digits % 10 = 0 then dropZeros fuel ⟨d.digits / 10, d.exponent + 1⟩ else d

def strip (d : Decimal) : Decimal := dropZeros (countDigits d.digits) d

def zeros (n : Nat) : List Char := List.replicate n '0'

def digitChars (n : Nat) : List Char := Nat.toDigits 10 n

def positional (d : Decimal) : List Char :=
  let ds := digitChars d.digits
  if 0 ≤ d.exponent then ds ++ zeros d.exponent.toNat
  else
    let places := d.exponent.natAbs
    if places < ds.length then
      ds.take (ds.length - places) ++ '.' :: ds.drop (ds.length - places)
    else '0' :: '.' :: zeros (places - ds.length) ++ ds

def scientific (d : Decimal) : List Char :=
  let mantissa := match digitChars d.digits with
    | [] => ['0']
    | [c] => [c]
    | c :: rest => c :: '.' :: rest
  let e := d.point - 1
  let sign := if e < 0 then '-' else '+'
  let width := if e.natAbs < 10 then ['0'] else []
  mantissa ++ 'e' :: sign :: width ++ digitChars e.natAbs

end Decimal

namespace Double.Finite

def point (x : Finite) : Int :=
  (Decimal.countDigits (x.quanta * Nat.pow 10 400 / unit) : Int) - 400

def scaled (x : Finite) (k : Int) : Nat × Nat :=
  if k < 0 then (x.quanta * Nat.pow 10 k.natAbs, unit) else (x.quanta, unit * Nat.pow 10 k.natAbs)

def nearest (x : Finite) (k : Int) : Decimal :=
  let (num, den) := x.scaled k
  ⟨roundDiv num den, k⟩

def significant (x : Finite) (count : Nat) : Decimal := x.nearest (x.point - count)

/-- Whether `c * 10 ^ k` rounds to the number: it lies within half a gap on its side, the ends
included when the significand is even. -/
def reads (x : Finite) (k : Int) (c : Nat) : Bool :=
  let (num, den) := x.scaled k
  let gap := Nat.pow 2 x.scale * (if k < 0 then Nat.pow 10 k.natAbs else 1)
  let even := x.significand % 2 == 0
  let lower := if x.significand = leadingBit ∧ 0 < x.scale then gap else 2 * gap
  if num ≤ c * den then
    let d := 4 * (c * den - num)
    d < 2 * gap || (even && d == 2 * gap)
  else
    let d := 4 * (num - c * den)
    d < lower || (even && d == lower)

def onGrid? (x : Finite) (k : Int) : Option Decimal :=
  let (num, den) := x.scaled k
  let below := num / den
  match x.reads k below, x.reads k (below + 1) with
  | true, true => some (x.nearest k)
  | true, false => some ⟨below, k⟩
  | false, true => some ⟨below + 1, k⟩
  | false, false => none

def shortestFrom (x : Finite) (point : Int) : Nat → Nat → Decimal
  | 0, count => x.nearest (point - count)
  | fuel + 1, count =>
    match x.onGrid? (point - count) with
    | some d => d
    | none => shortestFrom x point fuel (count + 1)

def shortest (x : Finite) : Decimal := (x.shortestFrom x.point 16 1).strip

end Double.Finite

namespace Double

def signed (negative : Bool) (s : List Char) : String :=
  String.ofList (if negative then '-' :: s else s)

structure Words where
  nan : String
  infinite : String

def inWords (w : Words) (x : Double) (digits : Finite → List Char) : String :=
  match x with
  | nan => w.nan
  | infinite s => signed s w.infinite.toList
  | finite f => signed f.negative (digits f)

def roundTripDigits (f : Finite) : List Char :=
  if f.significand = 0 then ['0', '.', '0']
  else
    let d := f.shortest
    if -4 < d.point ∧ d.point ≤ 16 then
      if 0 ≤ d.exponent then d.positional ++ ['.', '0'] else d.positional
    else d.scientific

def roundTrip (x : Double) : String := inWords ⟨"nan", "inf"⟩ x roundTripDigits

def generalDigits (f : Finite) : List Char :=
  if f.significand = 0 then ['0']
  else
    let d := f.significant 6
    if -4 < d.point ∧ d.point ≤ 6 then d.strip.positional else d.strip.scientific

def general (x : Double) : String := inWords ⟨"nan", "inf"⟩ x generalDigits

def fixedDigits (places : Nat) (f : Finite) : List Char :=
  let n := roundDiv (f.quanta * Nat.pow 10 places) unit
  let ds := Decimal.digitChars n
  let padded := Decimal.zeros (places + 1 - ds.length) ++ ds
  let cut := padded.length - places
  padded.take cut ++ (if places = 0 then [] else '.' :: padded.drop cut)

def fixed (places : Nat) (x : Double) : String := inWords ⟨"nan", "inf"⟩ x (fixedDigits places)

end Double

end Playpen
