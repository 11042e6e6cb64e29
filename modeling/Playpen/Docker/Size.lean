import Playpen.Number.Numeral

namespace Playpen.Docker.Size

open Text

def units : List (String × Nat) :=
  [("b", 1), ("kb", 1000), ("mb", 1000 * 1000), ("gb", 1000 * 1000 * 1000), ("kib", 1024), ("mib", 1024 * 1024),
    ("gib", 1024 * 1024 * 1024)]

def factor? (unit : List Char) : Option Nat :=
  units.lookup (if unit.isEmpty then "b" else String.ofList (unit.map Numeral.lowerAscii))

def isLetter (c : Char) : Bool := ('a' ≤ c && c ≤ 'z') || ('A' ≤ c && c ≤ 'Z')

structure Written where
  whole : List Char
  fraction : List Char
  unit : List Char
deriving DecidableEq

def scan (s : List Char) : Option Written :=
  let s := s.dropWhile isBlank
  let whole := s.takeWhile isAsciiDigit
  let rest := s.dropWhile isAsciiDigit
  let (fraction, rest, proper) := match rest with
    | '.' :: r => (r.takeWhile isAsciiDigit, r.dropWhile isAsciiDigit, r.head?.any isAsciiDigit)
    | r => ([], r, true)
  let rest := rest.dropWhile isBlank
  let unit := rest.takeWhile isLetter
  let rest := (rest.dropWhile isLetter).dropWhile isBlank
  if !whole.isEmpty && proper && rest.isEmpty then some ⟨whole, fraction, unit⟩ else none

def Written.amount (w : Written) : Double :=
  Double.ofDecimal false (Numeral.ofDigits (w.whole ++ w.fraction)) (-(w.fraction.length : Int))

def bytes (s : String) : Except Double.NotWhole Int :=
  match scan s.toList with
  | none => .ok 0
  | some w =>
    match factor? w.unit with
    | none => .ok 0
    | some factor => (w.amount.mul (Double.ofInt factor)).truncate

end Playpen.Docker.Size
