import Playpen.Archive.Basic

namespace Playpen.Archive

open Utf8 (Bytes)

def cut (start length : Nat) (bs : Bytes) : Bytes := (bs.drop start).take length

def upToZero (bs : Bytes) : Bytes := bs.takeWhile (· ≠ 0)

def octal? (bs : Bytes) : Option Nat :=
  if bs.all fun b => 48 ≤ b && b ≤ 55 then
    some (bs.foldl (fun n b => 8 * n + (b.toNat - 48)) 0)
  else none

def readNumber (bs : Bytes) : Option Nat := octal? (bs.takeWhile fun b => b ≠ 0 && b ≠ 32)

def byteSum (bs : Bytes) : Nat := bs.foldr (fun b n => b.toNat + n) 0

/-- The sum of the bytes of a block, with eight blanks in the place of its checksum. -/
def blockSum (block : Bytes) : Nat := byteSum (block.take 148) + 8 * 32 + byteSum (block.drop 156)

def hasChecksum (block : Bytes) : Bool := readNumber (cut 148 8 block) == some (blockSum block)

def magic : Bytes := [117, 115, 116, 97, 114, 0, 48, 48]

def readHeader (bs : Bytes) : Option Header := do
  let block := bs.take 512
  if block.length ≠ 512 || !hasChecksum block || cut 257 8 block ≠ magic then none
  else
    let mode ← readNumber (cut 100 8 block)
    let size ← readNumber (cut 124 12 block)
    let mtime ← readNumber (cut 136 12 block)
    let type ← (cut 156 1 block).head?
    some ⟨upToZero (cut 0 100 block), mode, size, mtime, type⟩

def decimalOf? (bs : Bytes) : Option Nat :=
  if !bs.isEmpty && bs.all fun b => 48 ≤ b && b ≤ 57 then
    some (bs.foldl (fun n b => 10 * n + (b.toNat - 48)) 0)
  else none

def integerOf? : Bytes → Option Int
  | 45 :: digits => (decimalOf? digits).map fun n => -(n : Int)
  | digits => (decimalOf? digits).map fun n => (n : Int)

def readRecords : Nat → Bytes → Option (List (Bytes × Bytes))
  | 0, _ => none
  | _ + 1, [] => some []
  | fuel + 1, bs => do
    let length ← decimalOf? (bs.takeWhile (· ≠ 32))
    let body := ((bs.take length).dropWhile (· ≠ 32)).drop 1
    if length = 0 || bs.length < length || body.getLast? ≠ some 10 then none
    else
      let body := body.dropLast
      let others ← readRecords fuel (bs.drop length)
      some ((body.takeWhile (· ≠ 61), (body.dropWhile (· ≠ 61)).drop 1) :: others)

def blocks (length : Nat) : Nat := (length + 511) / 512 * 512

def pathKey : Bytes := [112, 97, 116, 104]

def sizeKey : Bytes := [115, 105, 122, 101]

def mtimeKey : Bytes := [109, 116, 105, 109, 101]

def sizeWith (records : List (Bytes × Bytes)) (h : Header) : Option Nat :=
  match records.lookup sizeKey with
  | some digits => decimalOf? digits
  | none => some h.size

def mtimeWith (records : List (Bytes × Bytes)) (h : Header) : Option Int :=
  match records.lookup mtimeKey with
  | some digits => integerOf? digits
  | none => some (h.mtime : Int)

def readFile (records : List (Bytes × Bytes)) (bs : Bytes) : Option (Archive × Bytes) := do
  let h ← readHeader bs
  let name ← Utf8.decode? ((records.lookup pathKey).getD h.name)
  let size ← sizeWith records h
  let mtime ← mtimeWith records h
  let data := cut 512 size bs
  if h.type = 48 && data.length = size then
    some (⟨String.ofList name, h.mode, mtime, data⟩, bs.drop (512 + blocks size))
  else none

def readMember (bs : Bytes) : Option (Archive × Bytes) := do
  let h ← readHeader bs
  if h.type = 120 then
    let body := cut 512 h.size bs
    let records ← readRecords (body.length + 1) body
    readFile records (bs.drop (512 + blocks h.size))
  else readFile [] bs

def decode? (bs : Bytes) : Option Archive := (readMember bs).map (·.1)

def files? (bs : Bytes) : Option (List Archive) :=
  if bs.all (· = 0) then if 2 * 512 ≤ bs.length then some [] else none
  else match readMember bs with
    | none => none
    | some (file, rest) =>
      if rest.length < bs.length then (files? rest).map (file :: ·) else none
termination_by bs.length

end Playpen.Archive
