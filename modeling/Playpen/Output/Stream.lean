import Playpen.Text.Utf8
/-!
Captured streams. A stream interleaves the chunks of two channels, each behind an eight-byte frame
header; NUL and SUB bytes are left over from terminals. What remains is the text of the program.
-/
namespace Playpen

open Utf8 (Bytes)

/-- Captured or submitted data: nothing, bytes, or text given by its code points. -/
inductive Raw
  | absent
  | bytes (data : Bytes)
  | text (points : List Nat)

namespace Raw

def ofString (s : String) : Raw := .text (s.toList.map Char.toNat)

def data : Raw → Bytes
  | absent => []
  | bytes data => data
  | text points => points.flatMap Utf8.encodePoint

end Raw

namespace Stream

/-- A header names the channel and goes on with three zero bytes and four bytes of size. -/
def isHeader (a b c d : UInt8) : Bool := (a == 1 || a == 2) && b == 0 && c == 0 && d == 0

def dropFrames : Bytes → Bytes
  | a :: b :: c :: d :: e :: f :: g :: h :: rest =>
    if isHeader a b c d then dropFrames rest
    else a :: dropFrames (b :: c :: d :: e :: f :: g :: h :: rest)
  | a :: rest => a :: dropFrames rest
  | [] => []

def isDebris (b : UInt8) : Bool := b == 0 || b == 0x1a

def dropDebris (bs : Bytes) : Bytes := bs.filter (!isDebris ·)

def clean (raw : Raw) : List Char := Utf8.decodeLossy (dropDebris (dropFrames raw.data))

def cleanText (raw : Raw) : String := String.ofList (clean raw)

end Stream

end Playpen
