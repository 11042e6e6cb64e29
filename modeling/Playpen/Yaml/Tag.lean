import Playpen.Text.Codec
import Playpen.Text.Units
import Playpen.Yaml.Cursor

namespace Playpen.Yaml

structure Tag where
  handle : Option String
  suffix : String
deriving DecidableEq

inductive Directive
  | version (major minor : Nat)
  | handle (name : String) (meaning : String)
  | other
deriving DecidableEq

def isUriChar (c : Char) : Bool :=
  isWordChar c || [';', '/', '?', ':', '@', '&', '=', '+', '$', ',', '.', '!', '~', '*', '\'', '(',
    ')', '[', ']', '%'].contains c

namespace Scan

def hexByte (context : String) (start : Mark) : Scan UInt8 := do
  let digit (k : Nat) : Scan Nat := do
    let c ← peek k
    match Text.Units.hexValue? c with
    | some n => pure n
    | none =>
      fail context start
        s!"expected URI escape sequence of 2 hexadecimal numbers, but found {shown c}"
  let high ← digit 0
  let low ← digit 1
  forward 2
  pure (UInt8.ofNat (16 * high + low))

def escapedBytes (context : String) (start : Mark) : Nat → Scan (List UInt8)
  | 0 => pure []
  | fuel + 1 => do
    if (← peek) ≠ '%' then pure []
    else
      forward
      let b ← hexByte context start
      let rest ← escapedBytes context start fuel
      pure (b :: rest)

def uriText (context : String) (start : Mark) : Nat → Scan (List Char)
  | 0 => pure []
  | fuel + 1 => do
    let plain ← takeWhile fun c => isUriChar c && c != '%'
    if (← peek) ≠ '%' then pure plain
    else
      let here ← mark
      let bytes ← escapedBytes context start fuel
      match Utf8.flaw? bytes with
      | some flaw =>
        throw (.malformed (some (context, start)) (Text.Codec.unreadable bytes flaw) here)
      | none =>
        let rest ← uriText context start fuel
        pure (plain ++ Utf8.decodeLossy bytes ++ rest)

def uri (name : String) (start : Mark) : Scan String := do
  let fuel := (← get).rest.length + 1
  let text ← uriText s!"while scanning a {name}" start fuel
  if text.isEmpty then
    fail s!"while parsing a {name}" start s!"expected URI, but found {shown (← peek)}"
  pure (String.ofList text)

def tagHandle (name : String) (start : Mark) : Scan String := do
  let context := s!"while scanning a {name}"
  let first ← peek
  if first ≠ '!' then fail context start s!"expected '!', but found {shown first}"
  forward
  if (← peek) = ' ' then pure "!"
  else
    let word ← takeWhile isWordChar
    let last ← peek
    if last ≠ '!' then fail context start s!"expected '!', but found {shown last}"
    forward
    pure (String.ofList ('!' :: word ++ ['!']))

def hasHandle : Scan Bool := do
  let word := ((← get).rest.drop 1).takeWhile fun c => !endsItem c
  pure (word.contains '!')

def tag : Scan Tag := do
  let start ← mark
  let next ← peek 1
  let result : Tag ←
    if next = '<' then do
      forward 2
      let suffix ← uri "tag" start
      let c ← peek
      if c ≠ '>' then fail "while parsing a tag" start s!"expected '>', but found {shown c}"
      forward
      pure ⟨none, suffix⟩
    else if endsWord next then do
      forward
      pure ⟨none, "!"⟩
    else do
      let handle ← if ← hasHandle then tagHandle "tag" start else do
        forward
        pure "!"
      let suffix ← uri "tag" start
      pure ⟨some handle, suffix⟩
  let c ← peek
  if !endsItem c then fail "while scanning a tag" start s!"expected ' ', but found {shown c}"
  pure result

def directiveContext : String := "while scanning a directive"

def directiveName (start : Mark) : Scan String := do
  let name ← takeWhile isWordChar
  let c ← peek
  if name.isEmpty || !endsItem c then
    fail directiveContext start s!"expected alphabetic or numeric character, but found {shown c}"
  pure (String.ofList name)

def versionNumber (start : Mark) : Scan Nat := do
  let digits ← takeWhile Text.isAsciiDigit
  if digits.isEmpty then
    fail directiveContext start s!"expected a digit, but found {shown (← peek)}"
  if Numeral.maxDigits < digits.length then throw (.noValue .value)
  pure (Numeral.ofDigits digits)

def version (start : Mark) : Scan Directive := do
  skipSpaces
  let major ← versionNumber start
  let dot ← peek
  if dot ≠ '.' then
    fail directiveContext start s!"expected a digit or '.', but found {shown dot}"
  forward
  let minor ← versionNumber start
  let c ← peek
  if !endsItem c then
    fail directiveContext start s!"expected a digit or ' ', but found {shown c}"
  pure (.version major minor)

def handleMeaning (start : Mark) : Scan Directive := do
  skipSpaces
  let name ← tagHandle "directive" start
  let c ← peek
  if c ≠ ' ' then fail directiveContext start s!"expected ' ', but found {shown c}"
  skipSpaces
  let meaning ← uri "directive" start
  let c ← peek
  if !endsItem c then fail directiveContext start s!"expected ' ', but found {shown c}"
  pure (.handle name meaning)

def directive : Scan Directive := do
  let start ← mark
  forward
  let name ← directiveName start
  let result ←
    if name = "YAML" then version start
    else if name = "TAG" then handleMeaning start
    else do
      let _ ← takeWhile (!endsLine ·)
      pure .other
  restOfLine directiveContext start
  pure result

def anchorName (kind : String) : Scan String := do
  let start ← mark
  forward
  let name ← takeWhile isWordChar
  let c ← peek
  let closed := endsWord c || ['?', ':', ',', ']', '\x7d', '%', '@', '\x60'].contains c
  if name.isEmpty || !closed then
    fail s!"while scanning an {kind}" start
      s!"expected alphabetic or numeric character, but found {shown c}"
  pure (String.ofList name)

end Scan

end Playpen.Yaml
