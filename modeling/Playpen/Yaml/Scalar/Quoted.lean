import Playpen.Text.Units
import Playpen.Yaml.Cursor

namespace Playpen.Yaml

inductive Quote
  | single
  | double
deriving DecidableEq

def Quote.mark : Quote → Char
  | single => '\''
  | double => '"'

def escapes : List (Char × Char) := [
  ('0', '\x00'), ('a', '\x07'), ('b', '\x08'), ('t', '\t'), ('\t', '\t'), ('n', '\n'), ('v', '\x0b'),
  ('f', '\x0c'), ('r', '\r'), ('e', '\x1b'), (' ', ' '), ('"', '"'), ('\\', '\\'), ('/', '/'),
  ('N', '\x85'), ('_', '\xa0'), ('L', '\u2028'), ('P', '\u2029')]

def numberEscapes : List (Char × Nat) := [('x', 2), ('u', 4), ('U', 8)]

def quotedContext : String := "while scanning a quoted scalar"

def doubleContext : String := "while scanning a double-quoted scalar"

def isBlank (c : Char) : Bool := c = ' ' || c = '\t'

def isQuotedPlain (c : Char) : Bool :=
  !(endsWord c || c = '\'' || c = '"' || c = '\\')

def pointOf (n : Nat) : Scan Nat :=
  if 0x7fffffff < n then throw (.noValue .overflow)
  else if 0x10ffff < n then throw (.noValue .value)
  else pure n

def points (text : List Char) : List Nat := text.map Char.toNat

namespace Scan

def quotedBreaks (start : Mark) : Nat → Scan (List Char)
  | 0 => pure []
  | fuel + 1 => do
    if (← get).atSeparator then
      fail quotedContext start "found unexpected document separator"
    let _ ← takeWhile isBlank
    if isBreak (← peek) then
      let text ← takeBreak
      let rest ← quotedBreaks start fuel
      pure (text ++ rest)
    else pure []

def quotedGap (start : Mark) (fuel : Nat) : Scan (List Nat) := do
  let blanks ← takeWhile isBlank
  let c ← peek
  if c = '\x00' then fail quotedContext start "found unexpected end of stream"
  else if isBreak c then do
    let first ← takeBreak
    let breaks ← quotedBreaks start fuel
    let lead := if first ≠ ['\n'] then first else if breaks.isEmpty then [' '] else []
    pure (points (lead ++ breaks))
  else pure (points blanks)

def escapeDigit (start : Mark) (count k : Nat) : Scan Nat := do
  let c ← peek k
  match Text.Units.hexValue? c with
  | some d => pure d
  | none =>
    fail doubleContext start
      s!"expected escape sequence of {count} hexadecimal numbers, but found {shown c}"

def escapeNumber (start : Mark) (count : Nat) : Scan Nat := do
  let digits ← (List.range count).mapM (escapeDigit start count)
  forward count
  pure (digits.foldl (fun n d => 16 * n + d) 0)

def escaped (start : Mark) (fuel : Nat) : Scan (List Nat) := do
  forward
  let c ← peek
  match escapes.lookup c, numberEscapes.lookup c with
  | some x, _ =>
    forward
    pure [x.toNat]
  | none, some count =>
    forward
    let n ← escapeNumber start count
    let x ← pointOf n
    pure [x]
  | none, none =>
    if isBreak c then
      let _ ← takeBreak
      points <$> quotedBreaks start fuel
    else fail doubleContext start s!"found unknown escape character {shown c}"

def quotedMark (quote : Quote) (start : Mark) (fuel : Nat) : Scan (Option (List Nat)) := do
  let c ← peek
  let next ← if quote = .single && c = '\'' then peek 1 else pure '\x00'
  if next = '\'' then
    forward 2
    pure (some (points ['\'']))
  else if (quote = .double && c = '\'') || (quote = .single && (c = '"' || c = '\\')) then
    forward
    pure (some (points [c]))
  else if quote = .double && c = '\\' then some <$> escaped start fuel
  else pure none

def quotedWord (quote : Quote) (start : Mark) : Nat → Scan (List Nat)
  | 0 => pure []
  | fuel + 1 => do
    let plain ← takeWhile isQuotedPlain
    match ← quotedMark quote start fuel with
    | none => pure (points plain)
    | some text =>
      let rest ← quotedWord quote start fuel
      pure (points plain ++ text ++ rest)

def quotedRest (quote : Quote) (start : Mark) : Nat → Scan (List Nat)
  | 0 => pure []
  | fuel + 1 => do
    if (← peek) = quote.mark then
      forward
      pure []
    else
      let gap ← quotedGap start fuel
      let word ← quotedWord quote start fuel
      let rest ← quotedRest quote start fuel
      pure (gap ++ word ++ rest)

/-- A quoted scalar, in a text with fewer characters left than `fuel`. Two escapes may be the halves of
one character. -/
def quoted (quote : Quote) (fuel : Nat) : Scan (List Char) := do
  let start ← mark
  forward
  let word ← quotedWord quote start fuel
  let rest ← quotedRest quote start fuel
  pure (Text.Units.decode (word ++ rest))

end Scan

end Playpen.Yaml
