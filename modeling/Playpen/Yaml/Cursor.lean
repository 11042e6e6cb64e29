import Playpen.Act
import Playpen.Yaml.Fault

namespace Playpen.Yaml

def isBreak (c : Char) : Bool := c = '\n' || c = '\x85' || c = '\u2028' || c = '\u2029'

def endsLine (c : Char) : Bool := c = '\x00' || isBreak c

def endsItem (c : Char) : Bool := c = ' ' || endsLine c

def endsWord (c : Char) : Bool := c = '\t' || endsItem c

def isWordChar (c : Char) : Bool :=
  ('0' ≤ c && c ≤ '9') || ('A' ≤ c && c ≤ 'Z') || ('a' ≤ c && c ≤ 'z') || c = '-' || c = '_'

structure Cursor where
  rest : List Char
  offset : Nat := 0
  line : Nat := 0
  column : Nat := 0
  overran : Bool := false

namespace Cursor

def mark (c : Cursor) : Mark := ⟨c.line, c.column⟩

def peek (c : Cursor) (ahead : Nat := 0) : Char := c.rest[ahead]?.getD '\x00'

def step (c : Cursor) : Cursor :=
  match c.rest with
  | [] => c
  | x :: rest =>
    if isBreak x then { c with rest, offset := c.offset + 1, line := c.line + 1, column := 0 }
    else { c with rest, offset := c.offset + 1, column := if x = '\ufeff' then c.column else c.column + 1 }

def advance : Nat → Cursor → Cursor
  | 0, c => c
  | n + 1, c => advance n c.step

def span (c : Cursor) (p : Char → Bool) : List Char := c.rest.takeWhile p

def skip (c : Cursor) (p : Char → Bool) : Cursor := advance (c.span p).length c

def isSpace (c : Char) : Bool := c = ' '

def skipSpaces (c : Cursor) : Cursor := c.skip isSpace

def skipComment (c : Cursor) : Cursor :=
  if c.peek = '#' then c.skip (!endsLine ·) else c

def breakText (c : Char) : Char := if c = '\u2028' ∨ c = '\u2029' then c else '\n'

def takeBreak (c : Cursor) : List Char × Cursor :=
  if isBreak c.peek then ([breakText c.peek], c.step) else ([], c)

def atSeparator (c : Cursor) : Bool :=
  let three := c.rest.take 3
  (three = ['-', '-', '-'] || three = ['.', '.', '.']) && endsWord (c.peek 3)

end Cursor

abbrev Scan (α : Type) : Type := Act Cursor Fault α

namespace Scan

def peek (ahead : Nat := 0) : Scan Char := do
  let c ← get
  if (c.rest.drop ahead).isEmpty then set { c with overran := true }
  pure (c.peek ahead)

def mark : Scan Mark := do return (← get).mark

def forward (n : Nat := 1) : Scan Unit := modify (Cursor.advance n)

def takeWhile (p : Char → Bool) : Scan (List Char) := do
  let taken := (← get).span p
  forward taken.length
  pure taken

def skipSpaces : Scan Unit := modify Cursor.skipSpaces

def takeBreak : Scan (List Char) := do
  let (text, c) := (← get).takeBreak
  set c
  pure text

def fail {α : Type} (context : String) (start : Mark) (problem : String) : Scan α := do
  throw (.malformed (some (context, start)) problem (← mark))

def restOfLine (context : String) (start : Mark) : Scan Unit := do
  skipSpaces
  modify Cursor.skipComment
  let c ← peek
  if !endsLine c then fail context start s!"expected a comment or a line break, but found {shown c}"
  let _ ← takeBreak

end Scan

end Playpen.Yaml
