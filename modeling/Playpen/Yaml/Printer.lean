import Playpen.Text.Base64
import Playpen.Yaml.Scalar.Quoted
import Playpen.Yaml.Scalar.Style

namespace Playpen.Yaml

/-- What has been written, the last character first, and where the next one goes. -/
structure Sheet where
  written : List Char := []
  column : Nat := 0
  blank : Bool := true
  fresh : Bool := true

namespace Sheet

def width : Nat := 80

def step : Nat := 2

def put (s : List Char) (h : Sheet) : Sheet :=
  { h with written := s.reverse ++ h.written, column := h.column + s.length }

def breakLine (h : Sheet) : Sheet :=
  { written := '\n' :: h.written, column := 0, blank := true, fresh := true }

def indentTo (indent : Nat) (h : Sheet) : Sheet :=
  let h :=
    if !h.fresh || indent < h.column || (h.column = indent && !h.blank) then h.breakLine else h
  if h.column < indent then
    { h.put (List.replicate (indent - h.column) ' ') with blank := true }
  else h

def inUse (h : Sheet) : Sheet := { h with blank := false, fresh := false }

def mark (s : List Char) (needsBlank : Bool) (h : Sheet) : Sheet :=
  let h := h.put (if h.blank || !needsBlank then s else ' ' :: s)
  { h with blank := false, fresh := false }

def entryMark (c : Char) (h : Sheet) : Sheet :=
  let fresh := h.fresh
  { h.mark [c] true with fresh }

inductive Run
  | spaces (count : Nat)
  | breaks (count : Nat)
  | word (s : List Char)

def addRun (c : Char) : List Run → List Run
  | .spaces n :: rest => if c = ' ' then .spaces (n + 1) :: rest else start c (.spaces n :: rest)
  | .breaks n :: rest => if c = '\n' then .breaks (n + 1) :: rest else start c (.breaks n :: rest)
  | .word s :: rest =>
    if c = ' ' ∨ c = '\n' then start c (.word s :: rest) else .word (c :: s) :: rest
  | [] => start c []
where
  start (c : Char) (rest : List Run) : List Run :=
    (if c = ' ' then .spaces 1 else if c = '\n' then .breaks 1 else .word [c]) :: rest

def runs (s : List Char) : List Run := s.foldr addRun []

def folds (split : Bool) (count : Nat) (h : Sheet) : Bool := split && count = 1 && width < h.column

def plainRun (split : Bool) (indent : Nat) (h : Sheet) : Run → Sheet
  | .spaces n => if folds split n h then (h.indentTo indent).inUse else h.put (List.replicate n ' ')
  | .breaks n => (n.fold (fun _ _ h => h.breakLine) h.breakLine).indentTo indent |>.inUse
  | .word s => h.put s

def plain (split : Bool) (indent : Nat) (s : List Char) (h : Sheet) : Sheet :=
  if s.isEmpty then h
  else
    let h := if h.blank then h else h.put [' ']
    (runs s).foldl (plainRun split indent) h.inUse

def doubleQuotes (s : List Char) : List Char :=
  s.flatMap fun c => if c = '\'' then ['\'', '\''] else [c]

def singleRun (split : Bool) (indent : Nat) (atEnd : Bool) (h : Sheet) : Run → Sheet
  | .spaces n =>
    if !atEnd && folds split n h then h.indentTo indent else h.put (List.replicate n ' ')
  | .breaks n => (n.fold (fun _ _ h => h.breakLine) h.breakLine).indentTo indent
  | .word s => h.put (doubleQuotes s)

def singleRuns (split : Bool) (indent : Nat) : Bool → List Run → Sheet → Sheet
  | _, [], h => h
  | first, r :: rest, h =>
    singleRuns split indent false rest (singleRun split indent (first || rest.isEmpty) h r)

def single (split : Bool) (indent : Nat) (s : List Char) (h : Sheet) : Sheet :=
  (singleRuns split indent true (runs s) (h.mark ['\''] true)).mark ['\''] false

def shortEscapes : List (Char × Char) := [
  ('\x00', '0'), ('\x07', 'a'), ('\x08', 'b'), ('\t', 't'), ('\n', 'n'), ('\x0b', 'v'), ('\x0c', 'f'),
  ('\r', 'r'), ('\x1b', 'e'), ('"', '"'), ('\\', '\\'), ('\x85', 'N'), ('\xa0', '_'),
  ('\u2028', 'L'), ('\u2029', 'P')]

def capitalHex (width n : Nat) : List Char := (Text.hex width n).map Schema.upperAscii

def escape? (c : Char) : Option (List Char) :=
  match shortEscapes.lookup c with
  | some e => some ['\\', e]
  | none =>
    let n := c.toNat
    if 0x20 ≤ n && n ≤ 0x7e then none
    else if n ≤ 0xff then some ('\\' :: 'x' :: capitalHex 2 n)
    else if n ≤ 0xffff then some ('\\' :: 'u' :: capitalHex 4 n)
    else some ('\\' :: 'U' :: capitalHex 8 n)

def fold (indent : Nat) (next : Char) (h : Sheet) : Sheet :=
  let h := ((h.put ['\\']).indentTo indent).inUse
  if next = ' ' then h.put ['\\'] else h

def doubleRest (split : Bool) (indent : Nat) : Bool → List Char → List Char → Sheet → Sheet
  | _, held, [], h => h.put held.reverse
  | first, held, c :: rest, h =>
    let foldable := split && !first && !rest.isEmpty
    match escape? c with
    | some e =>
      let h := (h.put held.reverse).put e
      let h := if foldable && width + 1 < h.column then fold indent (rest.headD '\x00') h else h
      doubleRest split indent false [] rest h
    | none =>
      if foldable && (c = ' ' || held.isEmpty) && width < h.column + held.length then
        doubleRest split indent false [c] rest (fold indent c (h.put held.reverse))
      else doubleRest split indent false (c :: held) rest h

def double (split : Bool) (indent : Nat) (s : List Char) (h : Sheet) : Sheet :=
  (doubleRest split indent true [] s (h.mark ['"'] true)).mark ['"'] false

def scalar (tag : String) (simpleKey : Bool) (indent : Nat) (s : List Char) (h : Sheet) : Sheet :=
  match Style.choose tag simpleKey s with
  | .plain => plain (!simpleKey) indent s h
  | .single => single (!simpleKey) indent s h
  | .double => double (!simpleKey) indent s h

end Sheet

namespace Printer

def floatText (x : Double) : String :=
  match x with
  | .nan => ".nan"
  | .infinite negative => if negative then "-.inf" else ".inf"
  | x =>
    let s := x.roundTrip.toList
    let head := s.takeWhile (· ≠ 'e')
    String.ofList (if head.contains '.' || head.length = s.length then s
      else head ++ '.' :: '0' :: s.drop head.length)

def textOf : Scalar → Except Misuse (String × List Char)
  | .null => .ok (core "null", "null".toList)
  | .bool b => .ok (core "bool", (if b then "true" else "false").toList)
  | .int i => (Scalar.integerText i).map fun s => (core "int", s)
  | .float x => .ok (core "float", (floatText x).toList)
  | .nan _ => .ok (core "float", (floatText .nan).toList)
  | .text s => .ok (strTag, s.toList)
  | .bytes data => .ok (core "binary", Base64.encode data)
  | .day d => .ok (core "timestamp", d.text.toList)
  | .moment m => .ok (core "timestamp", m.text.toList)

def tagWidth (tag : String) : Nat := tag.length - (core "").length + 2

def isSimpleKey (tag : String) (s : List Char) : Bool :=
  tagWidth tag + s.length < 128 && !s.isEmpty && !Style.isMultiline s

def deeper (indent : Option Nat) (first : Nat) : Nat := (indent.map (· + Sheet.step)).getD first

def itemIndent (indent : Option Nat) (inMapping : Bool) (h : Sheet) : Nat :=
  match indent with
  | some n => if inMapping && !h.fresh then n else n + Sheet.step
  | none => 0

def literal (indent : Nat) (s : List Char) (h : Sheet) : Sheet :=
  (Text.split '\n' s).foldl (fun h line => if line.isEmpty then h else ((h.indentTo indent).put line).breakLine)
    (h.mark ['|'] true).breakLine

def scalar (indent : Option Nat) (simpleKey : Bool) (tag : String) (s : List Char) (h : Sheet) : Sheet :=
  let inside := deeper indent Sheet.step
  if tag = core "binary" then
    let h := h.mark "!!binary".toList true
    if s.isEmpty then h.double (!simpleKey) inside s else literal inside s h
  else h.scalar tag simpleKey inside s

def key (indent : Nat) (k : Scalar) (h : Sheet) : Except Misuse Sheet := do
  let (tag, s) ← textOf k
  let h := h.indentTo indent
  if isSimpleKey tag s then .ok ((scalar (some indent) true tag s h).mark [':'] false)
  else
    let h := scalar (some indent) false tag s (h.entryMark '?')
    .ok ((h.indentTo indent).entryMark ':')

def keys (indent : Nat) : List Scalar → Sheet → Except Misuse Sheet
  | [], h => .ok h
  | k :: rest, h => do
    let h ← key indent k h
    keys indent rest (scalar (some indent) false (core "null") "null".toList h)

mutual

def node (indent : Option Nat) (inMapping : Bool) : Value → Sheet → Except Misuse Sheet
  | .scalar s, h => do
    let (tag, s) ← textOf s
    .ok (scalar indent false tag s h)
  | .list [], h | .tuple [], h => .ok ((h.mark ['['] true).put [']'])
  | .list xs, h | .tuple xs, h => items (itemIndent indent inMapping h) xs h
  | .map [], h => .ok ((h.mark ['\x7b'] true).put ['\x7d'])
  | .map es, h => entries (deeper indent 0) es h
  | .set [], h => .ok (((h.mark "!!set".toList true).mark ['\x7b'] true).put ['\x7d'])
  | .set xs, h => keys (deeper indent 0) xs (h.mark "!!set".toList true)
  | .knot _, _ => .error .tooDeep

def items (indent : Nat) : List Value → Sheet → Except Misuse Sheet
  | [], h => .ok h
  | v :: rest, h => do
    let h ← node (some indent) false v ((h.indentTo indent).entryMark '-')
    items indent rest h

def entries (indent : Nat) : List (Scalar × Value) → Sheet → Except Misuse Sheet
  | [], h => .ok h
  | (k, v) :: rest, h => do
    let h ← key indent k h
    let h ← node (some indent) true v h
    entries indent rest h

end

end Printer

def print (v : Value) : Except Misuse (List Char) :=
  (Printer.node none false v {}).map fun h => (h.indentTo 0).written.reverse

end Playpen.Yaml
