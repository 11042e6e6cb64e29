import Playpen.Text.Digit
import Playpen.Yaml.Cursor

namespace Playpen.Yaml

inductive Chomping
  | clip
  | strip
  | keep
deriving DecidableEq

structure BlockHeader where
  chomping : Chomping := .clip
  indent : Option Nat := none

def blockContext : String := "while scanning a block scalar"

namespace Cursor

def blankLines : Nat → Nat → Cursor → List Char × Nat × Cursor
  | 0, widest, c => ([], widest, c)
  | fuel + 1, widest, c =>
    if c.peek = ' ' then
      let c := c.step
      blankLines fuel (max widest c.column) c
    else if isBreak c.peek then
      let (text, c) := c.takeBreak
      let (more, widest, c) := blankLines fuel widest c
      (text ++ more, widest, c)
    else ([], widest, c)

def indentTo (indent : Nat) (c : Cursor) : Cursor :=
  advance (min (indent - c.column) (c.span isSpace).length) c

def indentedBreaks (indent : Nat) : Nat → Cursor → List Char × Cursor
  | 0, c => ([], c)
  | fuel + 1, c =>
    let c := indentTo indent c
    if isBreak c.peek then
      let (text, c) := c.takeBreak
      let (more, c) := indentedBreaks indent fuel c
      (text ++ more, c)
    else ([], c)

def isBlankStart (c : Cursor) : Bool := c.peek = ' ' || c.peek = '\t'

end Cursor

structure BlockBody where
  pieces : List (List Char) := []
  lastBreak : List Char := []
  breaks : List Char

def BlockBody.text (b : BlockBody) : List Char := b.pieces.reverse.flatten

def blockLines (folded : Bool) (indent : Nat) : Nat → BlockBody → Cursor → BlockBody × Cursor
  | 0, body, c => (body, c)
  | fuel + 1, body, c =>
    if c.column = indent && c.peek ≠ '\x00' then
      let solid := !c.isBlankStart
      let line := c.span (!endsLine ·)
      let (lastBreak, c) := (c.skip (!endsLine ·)).takeBreak
      let (breaks, c) := c.indentedBreaks indent fuel
      let goesOn := c.column = indent && c.peek ≠ '\x00'
      let between :=
        if !goesOn then []
        else if folded && lastBreak = ['\n'] && solid && !c.isBlankStart then
          if breaks.isEmpty then [' '] else []
        else lastBreak
      blockLines folded indent fuel ⟨between :: line :: body.breaks :: body.pieces, lastBreak, breaks⟩ c
    else (body, c)

namespace Scan

def chomping? (c : Char) : Option Chomping :=
  if c = '+' then some .keep else if c = '-' then some .strip else none

def blockIndent? (start : Mark) : Scan (Option Nat) := do
  let c ← peek
  if !Text.isAsciiDigit c then pure none
  else if c = '0' then
    fail blockContext start "expected indentation indicator in the range 1-9, but found 0"
  else do
    forward
    pure (some (c.toNat - 48))

def blockChomping? : Scan (Option Chomping) := do
  match chomping? (← peek) with
  | none => pure none
  | some x =>
    forward
    pure (some x)

def blockHeader (start : Mark) : Scan BlockHeader := do
  let header : BlockHeader ← match ← blockChomping? with
    | some chomping => do
      let indent ← blockIndent? start
      pure { chomping, indent }
    | none => do
      match ← blockIndent? start with
      | none => pure {}
      | some n =>
        let chomping ← blockChomping?
        pure { chomping := chomping.getD .clip, indent := some n }
  let c ← peek
  if !endsItem c then
    fail blockContext start
      s!"expected chomping or indentation indicators, but found {shown c}"
  pure header

def block (folded : Bool) (outer : Int) (fuel : Nat) : Scan (List Char) := do
  let start ← mark
  forward
  let header ← blockHeader start
  restOfLine blockContext start
  let least := (max 1 (outer + 1)).toNat
  let c ← get
  let (indent, breaks, c) := match header.indent with
    | none =>
      let (breaks, widest, c) := c.blankLines fuel 0
      (max least widest, breaks, c)
    | some n =>
      let indent := least + n - 1
      let (breaks, c) := c.indentedBreaks indent fuel
      (indent, breaks, c)
  let (body, c) := blockLines folded indent fuel { breaks } c
  set c
  pure (match header.chomping with
    | .strip => body.text
    | .clip => body.text ++ body.lastBreak
    | .keep => body.text ++ body.lastBreak ++ body.breaks)

end Scan

end Playpen.Yaml
