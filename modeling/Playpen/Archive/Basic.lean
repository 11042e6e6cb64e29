import Playpen.Text.Utf8
import Playpen.Number.Decimal

namespace Playpen

open Utf8 (Bytes)

structure Archive where
  name : String
  mode : Nat
  mtime : Int
  data : Bytes
deriving DecidableEq

namespace Archive

def blockSize : Nat := 512

def recordSize : Nat := 10240

def zeros (n : Nat) : Bytes := List.replicate n 0

def padding (unit length : Nat) : Bytes := zeros ((unit - length % unit) % unit)

def ascii (s : String) : Bytes := s.toList.map fun c => UInt8.ofNat c.toNat

def octalDigits : Nat → Nat → Bytes
  | 0, _ => []
  | width + 1, n => octalDigits width (n / 8) ++ [UInt8.ofNat (48 + n % 8)]

def number (width n : Nat) : Bytes := octalDigits (width - 1) n ++ [0]

def field (width : Nat) (bs : Bytes) : Bytes := bs.take width ++ zeros (width - bs.length)

def plain (name : String) : Bytes :=
  name.toList.map fun c => if c.toNat < 128 then UInt8.ofNat c.toNat else 63

def isPlain (name : String) : Bool := name.toList.all fun c => c.toNat < 128

def checksum (bs : Bytes) : Nat := bs.foldl (fun n b => n + b.toNat) 0

structure Header where
  name : Bytes
  mode : Nat
  size : Nat
  mtime : Nat
  type : UInt8

namespace Header

def before (h : Header) : Bytes :=
  field 100 h.name ++ number 8 h.mode ++ number 8 0 ++ number 8 0 ++ number 12 h.size ++
    number 12 h.mtime

def after (h : Header) : Bytes :=
  h.type :: zeros 100 ++ ascii "ustar" ++ [0, 48, 48] ++ zeros 32 ++ zeros 32 ++ zeros 8 ++ zeros 8 ++
    zeros 155 ++ zeros 12

def blanks : Bytes := List.replicate 8 32

def block (h : Header) : Bytes :=
  let sum := checksum (h.before ++ blanks ++ h.after)
  h.before ++ octalDigits 6 sum ++ [0, 32] ++ h.after

def extended (length : Nat) : Header := ⟨ascii "././@PaxHeader", 0, length, 0, 120⟩

end Header

def decimal (n : Nat) : Bytes := (Nat.toDigits 10 n).map fun c => UInt8.ofNat c.toNat

/-- The total length of an extended record, which counts its own digits. -/
def recordLength (rest : Nat) : Nat → Nat → Nat
  | 0, guess => guess
  | fuel + 1, guess =>
    let next := rest + (decimal guess).length
    if next = guess then guess else recordLength rest fuel next

def extendedRecord (key value : Bytes) : Bytes :=
  let length := recordLength (key.length + value.length + 3) 20 0
  decimal length ++ 32 :: key ++ 61 :: value ++ [10]

def octalLimit : Nat := 0o77777777777 + 1

def fitsOctal (n : Int) : Bool := 0 ≤ n && n < octalLimit

def integer (n : Int) : Bytes := ascii (toString n)

/-- What the fixed fields cannot hold: a long or non-ASCII name, a large size, a time out of range. -/
def extended (a : Archive) : List (Bytes × Bytes) :=
  (if isPlain a.name && a.name.length ≤ 100 then [] else [(ascii "path", Utf8.encodeString a.name)]) ++
    (if fitsOctal a.data.length then [] else [(ascii "size", decimal a.data.length)]) ++
    (if fitsOctal a.mtime then [] else [(ascii "mtime", integer a.mtime)])

def extendedBody (a : Archive) : Bytes := (extended a).flatMap fun r => extendedRecord r.1 r.2

def isWritable (a : Archive) : Bool := fitsOctal (extendedBody a).length

def extendedHeader (a : Archive) : Bytes :=
  let body := extendedBody a
  if body.isEmpty then []
  else
    (Header.extended body.length).block ++ body ++ padding blockSize body.length

def header (a : Archive) : Header where
  name := plain a.name
  mode := a.mode
  size := if fitsOctal a.data.length then a.data.length else 0
  mtime := if fitsOctal a.mtime then a.mtime.toNat else 0
  type := 48

def content (a : Archive) : Bytes :=
  extendedHeader a ++ (header a).block ++ a.data ++ padding blockSize a.data.length

def encode (a : Archive) : Bytes :=
  let body := content a ++ zeros (2 * blockSize)
  body ++ padding recordSize body.length

end Archive

end Playpen
