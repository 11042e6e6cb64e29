import Playpen.Yaml.Cursor

namespace Playpen.Yaml

def isFlowMark (c : Char) : Bool :=
  [',', '?', '[', ']', '\x7b', '\x7d'].contains c

def plainWord (flow : Bool) : List Char → List Char
  | [] => []
  | c :: rest =>
    let next := rest.headD '\x00'
    let closes := endsWord next || (flow && isFlowMark next && next != '?')
    if endsWord c || (c = ':' && closes) || (flow && isFlowMark c) then []
    else c :: plainWord flow rest

def plainBreaks : Nat → Cursor → Option (List Char) × Cursor
  | 0, c => (some [], c)
  | fuel + 1, c =>
    if c.peek = ' ' then plainBreaks fuel c.step
    else if isBreak c.peek then
      let (text, c) := c.takeBreak
      if c.atSeparator then (none, c)
      else
        let (more, c) := plainBreaks fuel c
        (more.map (text ++ ·), c)
    else (some [], c)

structure Gap where
  text : List Char
  hasBreak : Bool

def plainGap (fuel : Nat) (c : Cursor) : Gap × Cursor :=
  let blanks := c.span Cursor.isSpace
  let c := c.skipSpaces
  if isBreak c.peek then
    let (first, c) := c.takeBreak
    if c.atSeparator then (⟨[], true⟩, c)
    else match plainBreaks fuel c with
      | (none, c) => (⟨[], true⟩, c)
      | (some breaks, c) =>
        let lead := if first ≠ ['\n'] then first else if breaks.isEmpty then [' '] else []
        (⟨lead ++ breaks, true⟩, c)
  else (⟨blanks, false⟩, c)

structure Plain where
  pieces : List (List Char) := []
  stop : Mark
  passedBreak : Bool := false

def Plain.text (p : Plain) : List Char := p.pieces.reverse.flatten

def plainFrom (flow : Bool) (indent : Int) : Nat → Plain → Gap → Cursor → Plain × Cursor
  | 0, done, _, c => (done, c)
  | fuel + 1, done, gap, c =>
    let word := if c.peek = '#' then [] else plainWord flow c.rest
    if word.isEmpty then (done, c)
    else
      let after := c.advance word.length
      let (next, c) := plainGap fuel after
      let done : Plain := ⟨word :: gap.text :: done.pieces, after.mark, next.hasBreak⟩
      if next.text.isEmpty || c.peek = '#' || (!flow && (c.column : Int) < indent) then (done, c)
      else plainFrom flow indent fuel done next c

def Scan.plain (flow : Bool) (indent : Int) (fuel : Nat) : Scan Plain := do
  let c ← get
  let (result, c) := plainFrom flow indent fuel { stop := c.mark } ⟨[], false⟩ c
  set c
  pure result

end Playpen.Yaml
