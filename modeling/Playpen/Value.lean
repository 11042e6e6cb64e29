import Playpen.Scalar
/-!
Data values as configuration files hold them, and what a program asks of a value whose type is not
known: its text, its truth, its number. Mappings keep their keys in order of first appearance.
-/
namespace Playpen

inductive Value
  | scalar (s : Scalar)
  | list (items : List Value)
  | tuple (items : List Value)
  | map (entries : List (Scalar × Value))
  | set (items : List Scalar)
  /-- A mapping or a list that encloses this place, where a value holds itself. -/
  | knot (isMap : Bool)

instance : Inhabited Value := ⟨.scalar .null⟩

namespace Value

@[match_pattern] abbrev null : Value := .scalar .null

@[match_pattern] abbrev bool (b : Bool) : Value := .scalar (.bool b)

@[match_pattern] abbrev int (i : Int) : Value := .scalar (.int i)

@[match_pattern] abbrev float (x : Double) : Value := .scalar (.float x)

@[match_pattern] abbrev text (s : String) : Value := .scalar (.text s)

@[match_pattern] abbrev bytes (data : List UInt8) : Value := .scalar (.bytes data)

mutual

def decEq : (a b : Value) → Decidable (a = b)
  | .scalar a, .scalar b => decidable_of_iff (a = b) (by simp)
  | .list a, .list b => have := decEqItems a b; decidable_of_iff (a = b) (by simp)
  | .tuple a, .tuple b => have := decEqItems a b; decidable_of_iff (a = b) (by simp)
  | .map a, .map b => have := decEqEntries a b; decidable_of_iff (a = b) (by simp)
  | .set a, .set b => decidable_of_iff (a = b) (by simp)
  | .knot a, .knot b => decidable_of_iff (a = b) (by simp)
  | .scalar _, .list _ | .scalar _, .tuple _ | .scalar _, .map _ | .scalar _, .set _ | .scalar _, .knot _
  | .list _, .scalar _ | .list _, .tuple _ | .list _, .map _ | .list _, .set _ | .list _, .knot _
  | .tuple _, .scalar _ | .tuple _, .list _ | .tuple _, .map _ | .tuple _, .set _ | .tuple _, .knot _
  | .map _, .scalar _ | .map _, .list _ | .map _, .tuple _ | .map _, .set _ | .map _, .knot _
  | .set _, .scalar _ | .set _, .list _ | .set _, .tuple _ | .set _, .map _ | .set _, .knot _
  | .knot _, .scalar _ | .knot _, .list _ | .knot _, .tuple _ | .knot _, .map _ | .knot _, .set _ =>
    isFalse (by simp)

def decEqItems : (a b : List Value) → Decidable (a = b)
  | [], [] => isTrue rfl
  | [], _ :: _ | _ :: _, [] => isFalse (by simp)
  | a :: as, b :: bs =>
    have := decEq a b
    have := decEqItems as bs
    decidable_of_iff (a = b ∧ as = bs) (by simp)

def decEqEntries : (a b : List (Scalar × Value)) → Decidable (a = b)
  | [], [] => isTrue rfl
  | [], _ :: _ | _ :: _, [] => isFalse (by simp)
  | (k, v) :: as, (l, w) :: bs =>
    have := decEq v w
    have := decEqEntries as bs
    decidable_of_iff ((k = l ∧ v = w) ∧ as = bs) (by simp)

end

instance : DecidableEq Value := decEq

def commas : List (List Char) → List Char
  | [] => []
  | [part] => part
  | part :: parts => part ++ ',' :: ' ' :: commas parts

mutual

def written : Value → Except Misuse (List Char)
  | .scalar s => s.written
  | .list items => do
    let parts ← writtenItems items
    .ok ('[' :: commas parts ++ [']'])
  | .tuple items => do
    let parts ← writtenItems items
    .ok ('(' :: commas parts ++ (if parts.length = 1 then [',', ')'] else [')']))
  | .map entries => do
    let parts ← writtenEntries entries
    .ok ('\x7b' :: commas parts ++ ['\x7d'])
  | .set [] => .ok "set()".toList
  | .set items => do
    let parts ← items.mapM Scalar.written
    .ok ('\x7b' :: commas parts ++ ['\x7d'])
  | .knot isMap => .ok (if isMap then "\x7b...\x7d" else "[...]").toList

def writtenItems : List Value → Except Misuse (List (List Char))
  | [] => .ok []
  | v :: rest => do
    let part ← written v
    let parts ← writtenItems rest
    .ok (part :: parts)

def writtenEntries : List (Scalar × Value) → Except Misuse (List (List Char))
  | [] => .ok []
  | (k, v) :: rest => do
    let name ← k.written
    let part ← written v
    let parts ← writtenEntries rest
    .ok ((name ++ ':' :: ' ' :: part) :: parts)

end

mutual

def depth : Value → Nat
  | .scalar _ | .knot _ => 0
  | .set _ => 1
  | .list items | .tuple items => deepest items + 1
  | .map entries => deepestEntry entries + 1

def deepest : List Value → Nat
  | [] => 0
  | v :: rest => max (depth v) (deepest rest)

def deepestEntry : List (Scalar × Value) → Nat
  | [] => 0
  | (_, v) :: rest => max (depth v) (deepestEntry rest)

end

mutual

def isKnotted : Value → Bool
  | .knot _ => true
  | .scalar _ | .set _ => false
  | .list items | .tuple items => anyKnotted items
  | .map entries => anyEntryKnotted entries

def anyKnotted : List Value → Bool
  | [] => false
  | v :: rest => isKnotted v || anyKnotted rest

def anyEntryKnotted : List (Scalar × Value) → Bool
  | [] => false
  | (_, v) :: rest => isKnotted v || anyEntryKnotted rest

end

def maxDepth : Nat := 985

def display : Value → Except Misuse String
  | .scalar s => s.display
  | v => if maxDepth < v.depth then .error .tooDeep else (written v).map String.ofList

def truth : Value → Bool
  | .scalar s => s.truth
  | .list items | .tuple items => !items.isEmpty
  | .map entries => !entries.isEmpty
  | .set items => !items.isEmpty
  | .knot _ => true

def key? : Value → Option Key
  | .scalar s => some s.key
  | _ => none

def isKey (v : Value) : Bool := v.key?.isSome

def sameKey (a b : Value) : Bool := a.isKey && a.key? = b.key?

def lookUp {α : Type} (key : Value) : List (Value × α) → Option α
  | [] => none
  | (k, a) :: rest => if k.sameKey key then some a else lookUp key rest

def number? : Value → Option Number
  | .scalar s => s.number?
  | _ => none

def insert {α : Type} (key : Scalar) (value : α) : List (Scalar × α) → List (Scalar × α)
  | [] => [(key, value)]
  | (k, v) :: rest =>
    if k.sameKey key then (k, value) :: rest else (k, v) :: insert key value rest

def ofPairs {α : Type} (pairs : List (Scalar × α)) : List (Scalar × α) :=
  pairs.foldl (fun entries (k, v) => insert k v entries) []

def find? (name : String) : List (Scalar × Value) → Option Value
  | [] => none
  | (k, v) :: rest => if k = .text name then some v else find? name rest

def firstItems (count : Nat) : Value → Except Misuse Value
  | .text s => .ok (.text (String.ofList (s.toList.take count)))
  | .bytes data => .ok (.bytes (data.take count))
  | .list items => .ok (.list (items.take count))
  | .tuple items => .ok (.tuple (items.take count))
  | _ => .error .wrongType

def atMostZero (v : Value) : Except Misuse Bool :=
  match v.number? with
  | some (.int i) => .ok (decide (i ≤ 0))
  | some (.float x) => .ok (x.le (Double.zero false))
  | none => .error .wrongType

def wholePart (x : Double) : Except Misuse Int :=
  match x.truncate with
  | .ok i => .ok i
  | .error .nan => .error .notANumber
  | .error .infinite => .error .tooLarge

def toInt (v : Value) : Except Misuse Int :=
  match v, v.number? with
  | .text s, _ => (Numeral.integer? s).elim (.error .badText) .ok
  | _, some (.int i) => .ok i
  | _, some (.float x) => wholePart x
  | _, none => .error .wrongType

def doubleOfInt (i : Int) : Except Misuse Double :=
  match Double.ofInt i with
  | .infinite _ => .error .tooLarge
  | x => .ok x

def toDouble (v : Value) : Except Misuse Double :=
  match v, v.number? with
  | .text s, _ => (Numeral.double? s).elim (.error .badText) .ok
  | _, some (.int i) => doubleOfInt i
  | _, some (.float x) => .ok x
  | _, none => .error .wrongType

end Value

end Playpen
