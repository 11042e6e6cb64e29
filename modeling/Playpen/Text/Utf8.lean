namespace Playpen.Utf8

abbrev Bytes := List UInt8

def encode (s : List Char) : Bytes := s.flatMap String.utf8EncodeChar

def encodeString (s : String) : Bytes := encode s.toList

def encodePoint (n : Nat) : Bytes :=
  if n < 0x80 then [UInt8.ofNat n]
  else if n < 0x800 then [UInt8.ofNat (0xc0 + n / 64), UInt8.ofNat (0x80 + n % 64)]
  else if n < 0x10000 then
    [UInt8.ofNat (0xe0 + n / 4096), UInt8.ofNat (0x80 + n / 64 % 64), UInt8.ofNat (0x80 + n % 64)]
  else
    [UInt8.ofNat (0xf0 + n / 262144), UInt8.ofNat (0x80 + n / 4096 % 64),
      UInt8.ofNat (0x80 + n / 64 % 64), UInt8.ofNat (0x80 + n % 64)]

def lead (b : UInt8) : Option (Nat × UInt8 × UInt8) :=
  if 0xc2 ≤ b ∧ b ≤ 0xdf then some (1, 0x80, 0xbf)
  else if b = 0xe0 then some (2, 0xa0, 0xbf)
  else if b = 0xed then some (2, 0x80, 0x9f)
  else if 0xe1 ≤ b ∧ b ≤ 0xef then some (2, 0x80, 0xbf)
  else if b = 0xf0 then some (3, 0x90, 0xbf)
  else if b = 0xf4 then some (3, 0x80, 0x8f)
  else if 0xf1 ≤ b ∧ b ≤ 0xf3 then some (3, 0x80, 0xbf)
  else none

def within (lo hi b : UInt8) : Bool := lo ≤ b && b ≤ hi

def low (b : UInt8) : Nat := b.toNat % 64

/-- The characters of a byte string; `none` stands for a malformed part, which is as long as the
longest beginning of a sequence that could still have become well formed. -/
def scan : Bytes → List (Option Char)
  | [] => []
  | a :: r =>
    if a < 0x80 then some (Char.ofNat a.toNat) :: scan r
    else match lead a with
    | none => none :: scan r
    | some (n, lo, hi) =>
      match r with
      | [] => [none]
      | b :: r₁ =>
        if !within lo hi b then none :: scan (b :: r₁)
        else if n = 1 then some (Char.ofNat (a.toNat % 32 * 64 + low b)) :: scan r₁
        else match r₁ with
          | [] => [none]
          | c :: r₂ =>
            if !within 0x80 0xbf c then none :: scan (c :: r₂)
            else if n = 2 then
              some (Char.ofNat (a.toNat % 16 * 4096 + low b * 64 + low c)) :: scan r₂
            else match r₂ with
              | [] => [none]
              | d :: r₃ =>
                if !within 0x80 0xbf d then none :: scan (d :: r₃)
                else
                  some (Char.ofNat (a.toNat % 8 * 262144 + low b * 4096 + low c * 64 + low d)) ::
                    scan r₃

def decodeLossy (bs : Bytes) : List Char := (scan bs).map (·.getD '\ufffd')

def lossy (bs : Bytes) : String := String.ofList (decodeLossy bs)

def decode? (bs : Bytes) : Option (List Char) := (scan bs).mapM id

inductive Malformed
  | start
  | continuation
  | ending
deriving DecidableEq, Repr

structure Flaw where
  place : Nat
  length : Nat
  reason : Malformed
deriving DecidableEq, Repr

def following : Nat → UInt8 → UInt8 → Bytes → Nat
  | n + 1, lo, hi, b :: rest => if within lo hi b then following n 0x80 0xbf rest + 1 else 0
  | _, _, _, _ => 0

def flaw? (bs : Bytes) : Option Flaw :=
  let place := (encode (((scan bs).takeWhile Option.isSome).filterMap id)).length
  match bs.drop place with
  | [] => none
  | b :: rest =>
    match lead b with
    | none => some ⟨place, 1, .start⟩
    | some (n, lo, hi) =>
      let length := following n lo hi rest + 1
      some ⟨place, length, if length = rest.length + 1 then .ending else .continuation⟩

end Playpen.Utf8
