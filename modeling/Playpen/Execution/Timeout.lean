import Playpen.Value

namespace Playpen.Timeout

def parts : List (String × Nat) :=
  [("microseconds", 1), ("milliseconds", 1000), ("seconds", 1000000), ("minutes", 60000000),
    ("hours", 3600000000), ("days", 86400000000), ("weeks", 604800000000)]

structure Sum where
  whole : Int := 0
  leftover : Double := Double.zero false

def split (x : Double) : Except Misuse (Int × Double) :=
  match x.truncate with
  | .error .nan => .error .notANumber
  | .error .infinite => .error .tooLarge
  | .ok i => .ok (i, x.sub (Double.ofInt i))

def addPart (factor : Nat) (s : Sum) (v : Value) : Except Misuse Sum :=
  match v.number? with
  | some (.int i) => .ok { s with whole := s.whole + i * factor }
  | some (.float x) => do
    let (i, fraction) ← split x
    let (j, rest) ← split (fraction.mul (Double.ofInt factor))
    .ok { whole := s.whole + i * factor + j, leftover := s.leftover.add rest }
  | none => .error .wrongType

def Sum.total (s : Sum) : Except Misuse Int :=
  match s.leftover with
  | .finite f =>
    let n := f.signedQuanta
    let low := n.fdiv Double.unit
    let twice := 2 * (n - low * Double.unit)
    let low := s.whole + low
    if twice < Double.unit then .ok low
    else if (Double.unit : Int) < twice then .ok (low + 1)
    else .ok (if low % 2 = 0 then low else low + 1)
  | .nan => .error .notANumber
  | .infinite _ => .error .tooLarge

def maxDays : Int := 999999999

def ofSpan (entries : List (Scalar × Value)) : Except Misuse Double := do
  if entries.any fun (k, _) => !(parts.any fun (name, _) => k = .text name) then
    .error .wrongType
  let sum ← parts.foldlM (fun s (name, factor) =>
    match Value.find? name entries with
    | some v => addPart factor s v
    | none => .ok s) {}
  let us ← sum.total
  let days := us.fdiv 86400000000
  if days < -maxDays || maxDays < days then .error .tooLarge
  else .ok (Double.ofQuotient (decide (us < 0)) (us.natAbs * Double.unit) 1000000)

def ofValue : Value → Except Misuse (Option Double)
  | .null => .ok none
  | .map entries => (ofSpan entries).map some
  | v => v.toDouble.map some

end Playpen.Timeout
