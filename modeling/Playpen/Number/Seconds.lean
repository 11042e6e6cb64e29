import Playpen.Number.Decimal
/-!
What the program asks of a measure of time. Time is kept in binary64 when the program runs; laws that
need exact sums hold for the instance on rationals.
-/
namespace Playpen

class Seconds (τ : Type) where
  zero : τ
  ofNat : Nat → τ
  add : τ → τ → τ
  sub : τ → τ → τ
  le : τ → τ → Bool
  divNat : τ → Nat → τ
  truncate : τ → Except Double.NotWhole Int
  millis : τ → Except Double.NotWhole Int
  general : τ → String
  fixed : Nat → τ → String

namespace Seconds

variable {τ : Type} [Seconds τ]

def lt (x y : τ) : Bool := le x y && !le y x

def min (x y : τ) : τ := if lt y x then y else x

def max (x y : τ) : τ := if lt x y then y else x

def isZero (x : τ) : Bool := le x zero && le zero x

def total (xs : List τ) : τ := xs.foldl add zero

end Seconds

instance : Seconds Double where
  zero := Double.zero false
  ofNat n := Double.ofInt n
  add := Double.add
  sub := Double.sub
  le := Double.le
  divNat := Double.divNat
  truncate := Double.truncate
  millis x := (x.mul (Double.ofInt 1000)).ceiling
  general := Double.general
  fixed := Double.fixed

end Playpen
