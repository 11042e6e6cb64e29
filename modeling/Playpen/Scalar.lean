import Playpen.Calendar
import Playpen.Number.Numeral
import Playpen.Text.Quoted

namespace Playpen

inductive Misuse
  | wrongType
  | badText
  | notANumber
  | tooLarge
  | tooLong
  | tooDeep
deriving DecidableEq, Repr

inductive Scalar
  | null
  | bool (b : Bool)
  | int (i : Int)
  | float (x : Double)
  /-- The result of a calculation that has none; such results differ from each other by their marks. -/
  | nan (mark : Nat)
  | text (s : String)
  | bytes (data : List UInt8)
  | day (d : Day)
  | moment (m : Moment)
deriving DecidableEq

inductive Number
  | int (i : Int)
  | float (x : Double)

inductive Key
  | itself (s : Scalar)
  | instant (microseconds : Int)
deriving DecidableEq

namespace Scalar

def isWritable (i : Int) : Bool :=
  i.natAbs.log2 < 3 * Numeral.maxDigits || i.natAbs < Nat.pow 10 Numeral.maxDigits

def integerText (i : Int) : Except Misuse (List Char) :=
  if isWritable i then .ok (toString i).toList else .error .tooLong

def written : Scalar → Except Misuse (List Char)
  | null => .ok "None".toList
  | bool b => .ok (if b then "True" else "False").toList
  | int i => integerText i
  | float x => .ok x.roundTrip.toList
  | nan _ => .ok Double.nan.roundTrip.toList
  | text s => .ok (Text.quoted s.toList)
  | bytes data => .ok (Text.quotedBytes data)
  | day d => .ok d.written.toList
  | moment m => .ok m.written.toList

def display : Scalar → Except Misuse String
  | text s => .ok s
  | day d => .ok d.text
  | moment m => .ok m.text
  | s => s.written.map String.ofList

def truth : Scalar → Bool
  | null => false
  | bool b => b
  | int i => i != 0
  | float x => !x.isZero
  | text s => s != ""
  | bytes data => data != []
  | nan _ | day _ | moment _ => true

def number? : Scalar → Option Number
  | bool b => some (.int (if b then 1 else 0))
  | int i => some (.int i)
  | float x => some (.float x)
  | nan _ => some (.float .nan)
  | _ => none

def whole? (f : Double.Finite) : Option Int :=
  if f.signedQuanta % Double.unit = 0 then some (f.signedQuanta / Double.unit) else none

/-- Numbers count as keys by what they count, moments by their instants, all else by form. -/
def key : Scalar → Key
  | bool b => .itself (.int (if b then 1 else 0))
  | float (.finite f) => .itself ((whole? f).elim (.float (.finite f)) .int)
  | moment m => m.instant?.elim (.itself (.moment m)) .instant
  | s => .itself s

def sameKey (a b : Scalar) : Bool := a.key = b.key

end Scalar

end Playpen
