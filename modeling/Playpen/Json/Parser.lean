import Playpen.Text.Units
import Playpen.Value

namespace Playpen.Json

inductive Problem
  | value
  | propertyName
  | colon
  | comma
  | extra
  | control
  | unterminated
  | escape
  | unitEscape
  | byteOrderMark
deriving DecidableEq, Repr

def Problem.message : Problem → String
  | value => "Expecting value"
  | propertyName => "Expecting property name enclosed in double quotes"
  | colon => "Expecting ':' delimiter"
  | comma => "Expecting ',' delimiter"
  | extra => "Extra data"
  | control => "Invalid control character at"
  | unterminated => "Unterminated string starting at"
  | escape => "Invalid \\escape"
  | unitEscape => "Invalid \\uXXXX escape"
  | byteOrderMark => "Unexpected UTF-8 BOM (decode using utf-8-sig)"

inductive ParseError
  | malformed (problem : Problem) (left : Nat)
  | tooManyDigits
  | tooDeep
deriving DecidableEq, Repr

def isSpace (c : Char) : Bool := c = ' ' || c = '\t' || c = '\n' || c = '\r'

def skipSpace (s : List Char) : List Char := s.dropWhile isSpace

def simpleEscape? : Char → Option Char
  | '"' => some '"'
  | '\\' => some '\\'
  | '/' => some '/'
  | 'b' => some '\x08'
  | 'f' => some '\x0c'
  | 'n' => some '\n'
  | 'r' => some '\r'
  | 't' => some '\t'
  | _ => none

def unitsTail (start : List Char) : List Char → Except ParseError (List Nat × List Char)
  | [] => .error (.malformed .unterminated (start.length + 1))
  | '"' :: rest => .ok ([], rest)
  | ['\\'] => .error (.malformed .unterminated (start.length + 1))
  | '\\' :: 'u' :: rest =>
    match rest with
    | a :: b :: c :: d :: rest =>
      match Text.Units.ofHex? a b c d, rest with
      | some n, _ :: _ => do
        let (body, rest) ← unitsTail start rest
        .ok (n :: body, rest)
      | _, _ => .error (.malformed .unitEscape (rest.length + 5))
    | _ => .error (.malformed .unitEscape (rest.length + 1))
  | '\\' :: e :: rest =>
    match simpleEscape? e with
    | none => .error (.malformed .escape (rest.length + 2))
    | some c => do
      let (body, rest) ← unitsTail start rest
      .ok (c.toNat :: body, rest)
  | c :: rest =>
    if c.toNat < 0x20 then .error (.malformed .control (rest.length + 1))
    else do
      let (body, rest) ← unitsTail start rest
      .ok (c.toNat :: body, rest)

def stringTail (s : List Char) : Except ParseError (String × List Char) := do
  let (body, rest) ← unitsTail s s
  .ok (String.ofList (Text.Units.decode body), rest)

def fractionOf : List Char → List Char × List Char
  | '.' :: c :: rest =>
    if Text.isAsciiDigit c then
      (c :: rest.takeWhile Text.isAsciiDigit, rest.dropWhile Text.isAsciiDigit)
    else ([], '.' :: c :: rest)
  | s => ([], s)

def exponentOf (s : List Char) : Option (Int × List Char) :=
  match s with
  | e :: rest =>
    if e = 'e' ∨ e = 'E' then
      let (negative, body) := Numeral.sign rest
      let ds := body.takeWhile Text.isAsciiDigit
      if ds = [] then none
      else
        let n : Int := Numeral.ofDigits ds
        some (if negative then -n else n, body.dropWhile Text.isAsciiDigit)
    else none
  | [] => none

def wholeOf : List Char → Option (List Char × List Char)
  | '0' :: rest => some (['0'], rest)
  | c :: rest =>
    if Text.isAsciiDigit c then
      some (c :: rest.takeWhile Text.isAsciiDigit, rest.dropWhile Text.isAsciiDigit)
    else none
  | [] => none

def numberOf (start : List Char) (negative : Bool) (s : List Char) : Except ParseError (Value × List Char) :=
  match wholeOf s with
  | none => .error (.malformed .value start.length)
  | some (whole, rest) =>
    let (fraction, rest) := fractionOf rest
    match fraction, exponentOf rest with
    | [], none =>
      if Numeral.maxDigits < whole.length then .error .tooManyDigits
      else
        let n : Int := Numeral.ofDigits whole
        .ok (.int (if negative then -n else n), rest)
    | _, none =>
      .ok (.float (Double.ofDecimal negative (Numeral.ofDigits (whole ++ fraction))
        (-(fraction.length : Int))), rest)
    | _, some (e, rest) =>
      .ok (.float (Double.ofDecimal negative (Numeral.ofDigits (whole ++ fraction))
        (e - fraction.length)), rest)

def words : List (String × Value) :=
  [("null", .null), ("true", .bool true), ("false", .bool false), ("NaN", .float .nan),
    ("Infinity", .float (.infinite false)), ("-Infinity", .float (.infinite true))]

def word? (s : List Char) : Option (Value × List Char) :=
  words.findSome? fun (w, v) =>
    if w.toList.isPrefixOf s then some (v, s.drop w.length) else none

def maxDepth : Nat := 985

mutual

def valueOf (depth : Nat) : Nat → List Char → Except ParseError (Value × List Char)
  | 0, s => .error (.malformed .value s.length)
  | fuel + 1, s =>
    match s with
    | '"' :: rest => do
      let (text, rest) ← stringTail rest
      .ok (.text text, rest)
    | '[' :: rest =>
      if maxDepth ≤ depth then .error .tooDeep
      else match skipSpace rest with
        | ']' :: rest => .ok (.list [], rest)
        | rest => do
          let (items, rest) ← itemsOf (depth + 1) fuel rest
          .ok (.list items, rest)
    | '\x7b' :: rest =>
      if maxDepth ≤ depth then .error .tooDeep
      else match skipSpace rest with
        | '\x7d' :: rest => .ok (.map [], rest)
        | rest => do
          let (pairs, rest) ← pairsOf (depth + 1) fuel rest
          .ok (.map (Value.ofPairs pairs), rest)
    | s =>
      match word? s with
      | some found => .ok found
      | none =>
        match s with
        | '-' :: rest => numberOf s true rest
        | s => numberOf s false s

def itemsOf (depth : Nat) : Nat → List Char → Except ParseError (List Value × List Char)
  | 0, s => .error (.malformed .value s.length)
  | fuel + 1, s => do
    let (v, rest) ← valueOf depth fuel s
    match skipSpace rest with
    | ']' :: rest => .ok ([v], rest)
    | ',' :: rest => do
      let (others, rest) ← itemsOf depth fuel (skipSpace rest)
      .ok (v :: others, rest)
    | rest => .error (.malformed .comma rest.length)

def pairsOf (depth : Nat) : Nat → List Char → Except ParseError (List (Scalar × Value) × List Char)
  | 0, s => .error (.malformed .propertyName s.length)
  | fuel + 1, s =>
    match s with
    | '"' :: rest => do
      let (name, rest) ← stringTail rest
      match skipSpace rest with
      | ':' :: rest => do
        let (v, rest) ← valueOf depth fuel (skipSpace rest)
        match skipSpace rest with
        | '\x7d' :: rest => .ok ([(.text name, v)], rest)
        | ',' :: rest => do
          let (others, rest) ← pairsOf depth fuel (skipSpace rest)
          .ok ((.text name, v) :: others, rest)
        | rest => .error (.malformed .comma rest.length)
      | rest => .error (.malformed .colon rest.length)
    | s => .error (.malformed .propertyName s.length)

end

def parse (s : List Char) : Except ParseError Value :=
  if s.head? = some '\ufeff' then .error (.malformed .byteOrderMark s.length)
  else match valueOf 0 (2 * s.length + 2) (skipSpace s) with
  | .error e => .error e
  | .ok (v, rest) =>
    match skipSpace rest with
    | [] => .ok v
    | rest => .error (.malformed .extra rest.length)

def describe (s : List Char) (problem : Problem) (left : Nat) : String :=
  let offset := s.length - left
  let before := s.take offset
  let line := before.count '\n' + 1
  let column := (before.reverse.takeWhile (· ≠ '\n')).length + 1
  s!"{problem.message}: line {line} column {column} (char {offset})"

end Playpen.Json
