/-!
Binary64 numbers. A finite number is an integer count of quanta, the quantum being `2 ^ -1074`,
so every operation is exact integer arithmetic followed by one rounding to nearest, ties to even.
-/
namespace Playpen

def roundDiv (num den : Nat) : Nat :=
  let q := num / den
  let twice := 2 * (num % den)
  if twice < den then q else if den < twice then q + 1 else q + q % 2

namespace Double

abbrev leadingBit : Nat := 0x10000000000000

abbrev Normal (significand scale : Nat) : Prop :=
  significand < 2 * leadingBit ∧ scale ≤ 2045 ∧ (scale = 0 ∨ leadingBit ≤ significand)

/-- The number `± significand * 2 ^ (scale - 1074)`. -/
structure Finite where
  negative : Bool
  significand : Nat
  scale : Nat
  normal : Normal significand scale
deriving DecidableEq

end Double

inductive Double
  | nan
  | infinite (negative : Bool)
  | finite (number : Double.Finite)
deriving DecidableEq

namespace Double

def unit : Nat := Nat.pow 2 1074

def Finite.quanta (x : Finite) : Nat := x.significand * Nat.pow 2 x.scale

def Finite.signedQuanta (x : Finite) : Int :=
  if x.negative then -(x.quanta : Int) else x.quanta

def zero (negative : Bool) : Double := .finite ⟨negative, 0, 0, by decide⟩

def scaleOf (quanta : Nat) : Nat := quanta.log2 + 1 - 53

def ofQuotient (negative : Bool) (num den : Nat) : Double :=
  let scale := scaleOf (num / den)
  let significand := roundDiv num (den * Nat.pow 2 scale)
  if h : Normal significand scale then .finite ⟨negative, significand, scale, h⟩
  else if h : Normal leadingBit (scale + 1) then .finite ⟨negative, leadingBit, scale + 1, h⟩
  else .infinite negative

def ofQuanta (n : Int) : Double := ofQuotient (decide (n < 0)) n.natAbs 1

def ofInt (n : Int) : Double := ofQuotient (decide (n < 0)) (n.natAbs * unit) 1

def ofDecimal (negative : Bool) (digits : Nat) (exponent : Int) : Double :=
  if digits = 0 then zero negative
  else if exponent < -400 - (Nat.log2 digits : Int) then zero negative
  else if 400 < exponent then .infinite negative
  else if exponent < 0 then ofQuotient negative (digits * unit) (Nat.pow 10 exponent.natAbs)
  else ofQuotient negative (digits * unit * Nat.pow 10 exponent.natAbs) 1

def isZero : Double → Bool
  | finite x => x.significand == 0
  | _ => false

def neg : Double → Double
  | nan => nan
  | infinite s => infinite !s
  | finite x => finite { x with negative := !x.negative }

def add : Double → Double → Double
  | nan, _ => nan
  | _, nan => nan
  | infinite s, infinite t => if s = t then infinite s else nan
  | infinite s, _ => infinite s
  | _, infinite t => infinite t
  | finite x, finite y =>
    if x.significand = 0 ∧ y.significand = 0 then zero (x.negative && y.negative)
    else ofQuanta (x.signedQuanta + y.signedQuanta)

def sub (x y : Double) : Double := add x (neg y)

def mul : Double → Double → Double
  | nan, _ => nan
  | _, nan => nan
  | infinite s, infinite t => infinite (s != t)
  | infinite s, finite y => if y.significand = 0 then nan else infinite (s != y.negative)
  | finite x, infinite t => if x.significand = 0 then nan else infinite (x.negative != t)
  | finite x, finite y => ofQuotient (x.negative != y.negative) (x.quanta * y.quanta) unit

def divNat : Double → Nat → Double
  | nan, _ => nan
  | infinite s, _ => infinite s
  | finite x, n => if n = 0 then nan else ofQuotient x.negative x.quanta n

def le : Double → Double → Bool
  | nan, _ => false
  | _, nan => false
  | infinite s, infinite t => s || !t
  | infinite s, finite _ => s
  | finite _, infinite t => !t
  | finite x, finite y => decide (x.signedQuanta ≤ y.signedQuanta)

def lt (x y : Double) : Bool := le x y && !le y x

def same (x y : Double) : Bool := le x y && le y x

def signBit : Nat := 0x8000000000000000

def bits : Double → Nat
  | nan => 0x7ff8000000000000
  | infinite s => (if s then signBit else 0) + 0x7ff0000000000000
  | finite x => (if x.negative then signBit else 0) + x.scale * leadingBit + x.significand

inductive NotWhole
  | nan
  | infinite
deriving DecidableEq, Repr

def truncate : Double → Except NotWhole Int
  | nan => .error .nan
  | infinite _ => .error .infinite
  | finite x => .ok (x.signedQuanta.tdiv unit)

def ceiling : Double → Except NotWhole Int
  | nan => .error .nan
  | infinite _ => .error .infinite
  | finite x => .ok (-(Int.fdiv (-x.signedQuanta) unit))

end Double

instance : Inhabited Double := ⟨Double.zero false⟩

end Playpen
