import Playpen.Files.Tree
import Playpen.Yaml.Fault
/-!
A text as far as it can be read. It comes in portions, decoded from pieces of a file; a malformed piece
and a character that no YAML text holds spoil the portion that they stand in, and all after it. What
comes before is there to be read, and may be at fault itself.
-/
namespace Playpen.Yaml

open Utf8 (Bytes)

def isAllowed (c : Char) : Bool :=
  let n := c.toNat
  c = '\t' || c = '\n' || c = '\r' || (0x20 ≤ n && n ≤ 0x7e) || n = 0x85 ||
    (0xa0 ≤ n && n ≤ 0xfffd) || 0x10000 ≤ n

structure Source where
  text : List Char
  fault : Option Fault

namespace Source

def portion : Nat := 4096

/-- How many characters there are if the portion of a character is spoiled; the first two portions are
read together. -/
def available (place : Nat) : Nat := if place < 2 * portion then 0 else place - place % portion

def leastPiece : Nat := 8192

structure Decoder where
  rest : Bytes
  begun : Bytes := []
  held : Bool := false
  count : Nat := 0
  bytes : Nat := 0
  characters : Nat := 0

namespace Decoder

/-- The next piece holds the characters still asked for, if they take as many bytes as the last ones. -/
def pieceLength (d : Decoder) : Nat := max leastPiece (d.bytes * (portion - d.count % portion) / d.characters)

def after (d : Decoder) (piece whole begun : Bytes) : Decoder :=
  let text := (if d.held then ['\r'] else []) ++ Utf8.decodeLossy whole
  let held := text.getLast? = some '\r'
  let characters := (Text.unifyLineEnds (if held then text.dropLast else text)).length
  { rest := d.rest.drop piece.length, begun, held, count := d.count + characters, bytes := piece.length, characters }

def beforeMalformed? : Nat → Decoder → Option Nat
  | 0, _ => none
  | fuel + 1, d =>
    let piece := d.rest.take d.pieceLength
    let data := d.begun ++ piece
    match Utf8.flaw? data with
    | none => if piece.isEmpty then none else beforeMalformed? fuel (d.after piece data [])
    | some flaw =>
      if flaw.reason = .ending && !piece.isEmpty then
        beforeMalformed? fuel (d.after piece (data.take flaw.place) (data.drop flaw.place))
      else some d.count

end Decoder

def ofBytes (data : Bytes) : Source :=
  let sound := (Decoder.beforeMalformed? (data.length + 2) { rest := data }).map available
  let text := Text.unifyLineEnds (Utf8.decodeLossy data)
  let text := sound.elim text text.take
  match text.find? (!isAllowed ·) with
  | none => ⟨text, sound.map fun _ => .noValue .decoding⟩
  | some c =>
    let place := (text.takeWhile isAllowed).length
    ⟨text.take (available place), some (.unprintable c.toNat place)⟩

end Source

end Playpen.Yaml
