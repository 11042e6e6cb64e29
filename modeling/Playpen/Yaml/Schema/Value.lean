import Playpen.Text.Base64
import Playpen.Text.Codec
import Playpen.Text.Lower
import Playpen.Value
import Playpen.Yaml.Fault
import Playpen.Yaml.Schema

namespace Playpen.Yaml.Schema

open Text (isAsciiDigit)

def withoutLines (s : List Char) : List Char := s.filter (· ≠ '_')

def digitValue? (c : Char) : Option Nat :=
  let c := Numeral.lowerAscii c
  if isAsciiDigit c then some (c.toNat - 48)
  else if 'a' ≤ c ∧ c ≤ 'f' then some (c.toNat - 87)
  else none

def toBase (base : Nat) (s : List Char) : Option Nat :=
  if s.isEmpty then none
  else s.foldlM (fun n c => do
    let d ← digitValue? c
    if d < base then some (base * n + d) else none) 0

def inBase? (base : Nat) (letter : Char) (s : List Char) : Option Int :=
  let (negative, body) := Numeral.sign (Text.trimBy Text.isEdgeBlank (s.map Numeral.normalize))
  let digits := match body with
    | '0' :: c :: rest => if Numeral.lowerAscii c = letter then rest else body
    | body => body
  (toBase base digits).map fun n => if negative then -(n : Int) else n

def inSixtieths (parts : List (List Char)) : Option Int :=
  parts.foldlM (fun n p => do
    let d ← Numeral.integer? (String.ofList p)
    some (60 * n + d)) 0

def orBad {α : Type} (a : Option α) : Except Kind α := a.elim (.error .value) .ok

def integer (s : List Char) : Except Kind Int := do
  let (negative, body) := Numeral.sign (withoutLines s)
  let size ← match body with
    | [] => .error .index
    | ['0'] => .ok 0
    | '0' :: 'b' :: rest => orBad (inBase? 2 'b' rest)
    | '0' :: 'x' :: rest => orBad (inBase? 16 'x' rest)
    | '0' :: rest => orBad (inBase? 8 'o' ('0' :: rest))
    | body =>
      if body.contains ':' then orBad (inSixtieths (Text.split ':' body))
      else orBad (Numeral.integer? (String.ofList body))
  .ok (if negative then -size else size)

def sixtiethSum (parts : List Double) : Except Kind Double := do
  let (sum, _) ← parts.foldlM (fun (sum, unit) d =>
    match Double.ofInt unit with
    | .infinite _ => Except.error Kind.overflow
    | x => .ok (Double.add sum (d.mul x), 60 * unit)) ((Double.zero false, 1) : Double × Int)
  .ok sum

def signed (negative : Bool) (x : Double) : Double := if negative then x.neg else x

def float (mark : Nat) (s : List Char) : Except Kind Scalar := do
  let text := withoutLines (s.map Numeral.lowerAscii)
  let (negative, body) := Numeral.sign text
  if text = [] then .error .index
  else if body = ".nan".toList then .ok (.float .nan)
  else
    let size ←
      if body = ".inf".toList then .ok (.infinite false)
      else if body.contains ':' then do
        let parts ← orBad ((Text.split ':' body).mapM fun p => Numeral.double? (String.ofList p))
        sixtiethSum parts.reverse
      else orBad (Numeral.double? (String.ofList body))
    .ok (match signed negative size with
      | .nan => .nan mark
      | x => .float x)

def truth? (s : List Char) : Option Bool := truths.lookup (Text.lower (String.ofList s))

def timestamp (s : List Char) : Except Kind Scalar :=
  match Timestamp.parse? s with
  | none => .error .member
  | some t => orBad t.value?

def binary (s : List Char) : Except String (List UInt8) :=
  match Text.Codec.run? (128 ≤ ·) 0 (s.map Char.toNat) with
  | some run => .error ("failed to convert base64 data into ascii: " ++
      Text.Codec.unwritable "ascii" "ordinal not in range(128)" run)
  | none => (Base64.decode s).mapError fun f => "failed to decode base64 data: " ++ f.text

def value (name : String) (mark : Nat) (start : Mark) (s : List Char) : Except Fault Scalar :=
  match name with
  | "null" => .ok .null
  | "bool" => (truth? s).elim (.error (.noValue .lookup)) fun b => .ok (.bool b)
  | "int" => ((integer s).map .int).mapError .noValue
  | "float" => (float mark s).mapError .noValue
  | "timestamp" => (timestamp s).mapError .noValue
  | "binary" => ((binary s).map .bytes).mapError fun problem => .malformed none problem start
  | _ => .ok (.text (String.ofList s))

end Playpen.Yaml.Schema
