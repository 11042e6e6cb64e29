import Playpen.Text.Units
import Playpen.Value

namespace Playpen.Json

def escape (c : Char) : List Char :=
  if c = '"' then ['\\', '"']
  else if c = '\\' then ['\\', '\\']
  else if c = '\n' then ['\\', 'n']
  else if c = '\r' then ['\\', 'r']
  else if c = '\t' then ['\\', 't']
  else if c = '\x08' then ['\\', 'b']
  else if c = '\x0c' then ['\\', 'f']
  else if 0x20 ≤ c.toNat ∧ c.toNat < 0x7f then [c]
  else (Text.Units.encodeChar c).flatMap fun n => '\\' :: 'u' :: Text.hex 4 n

def string (s : String) : List Char := '"' :: s.toList.flatMap escape ++ ['"']

def number (x : Double) : List Char :=
  (Double.inWords ⟨"NaN", "Infinity"⟩ x Double.roundTripDigits).toList

structure Layout where
  indent : Option Nat
  integer : Int → Except Misuse (List Char) := Scalar.integerText

def Layout.line (layout : Layout) (depth : Nat) : List Char :=
  match layout.indent with
  | none => []
  | some columns => '\n' :: List.replicate (columns * depth) ' '

def Layout.between (layout : Layout) (depth : Nat) : List Char :=
  match layout.indent with
  | none => [',', ' ']
  | some _ => ',' :: layout.line depth

structure Draft where
  text : List Char
  stop : Option Misuse := none

namespace Draft

def append (a b : Draft) : Draft :=
  match a.stop with
  | some _ => a
  | none => ⟨a.text ++ b.text, b.stop⟩

instance : Append Draft := ⟨append⟩

def ofText (r : Except Misuse (List Char)) : Draft :=
  match r with
  | .ok text => ⟨text, none⟩
  | .error misuse => ⟨[], some misuse⟩

end Draft

def scalar (layout : Layout) : Scalar → Except Misuse (List Char)
  | .null => .ok "null".toList
  | .bool b => .ok (if b then "true" else "false").toList
  | .int i => layout.integer i
  | .float x => .ok (number x)
  | .nan _ => .ok (number .nan)
  | .text s => .ok (string s)
  | .bytes _ | .day _ | .moment _ => .error .wrongType

def key (layout : Layout) : Scalar → Except Misuse (List Char)
  | .text s => .ok (string s)
  | s => (scalar layout s).map fun text => '"' :: text ++ ['"']

mutual

def render (layout : Layout) (depth : Nat) (lead : List Char) : Value → Draft
  | .scalar s =>
    match scalar layout s with
    | .ok text => ⟨lead ++ text, none⟩
    | .error .tooLong => ⟨[], some .tooLong⟩
    | .error misuse => ⟨lead, some misuse⟩
  | .list items | .tuple items => renderAll layout depth lead items
  | .map [] => ⟨lead ++ ['\x7b', '\x7d'], none⟩
  | .map entries =>
    ⟨lead ++ '\x7b' :: layout.line (depth + 1), none⟩ ++ renderEntries layout (depth + 1) [] entries ++
      ⟨layout.line depth ++ ['\x7d'], none⟩
  | .set _ => ⟨lead, some .wrongType⟩
  | .knot _ => ⟨lead, some .tooDeep⟩

def renderAll (layout : Layout) (depth : Nat) (lead : List Char) : List Value → Draft
  | [] => ⟨lead ++ ['[', ']'], none⟩
  | v :: rest =>
    render layout (depth + 1) (lead ++ '[' :: layout.line (depth + 1)) v ++
      renderItems layout (depth + 1) rest ++ ⟨layout.line depth ++ [']'], none⟩

def renderItems (layout : Layout) (depth : Nat) : List Value → Draft
  | [] => ⟨[], none⟩
  | v :: rest => render layout depth (layout.between depth) v ++ renderItems layout depth rest

def renderEntries (layout : Layout) (depth : Nat) (lead : List Char) : List (Scalar × Value) → Draft
  | [] => ⟨[], none⟩
  | (k, v) :: rest =>
    .ofText ((key layout k).map fun name => lead ++ name ++ [':', ' ']) ++ render layout depth [] v ++
      renderEntries layout depth (layout.between depth) rest

end

def draft (layout : Layout) (v : Value) : Draft := render layout 0 [] v

def print (layout : Layout) (v : Value) : Except Misuse String :=
  match draft layout v with
  | ⟨text, none⟩ => .ok (String.ofList text)
  | ⟨_, some misuse⟩ => .error misuse

end Playpen.Json
