import Playpen.Yaml.Scalar.Block
import Playpen.Yaml.Scalar.Plain
import Playpen.Yaml.Scalar.Quoted
import Playpen.Yaml.Source
import Playpen.Yaml.Token
/-!
From text to tokens. A key of a mapping is known as such only at its colon, so every token that could
begin one is remembered, and the colon puts the missing tokens in front of it. Such a key stays on one
line and is at most 1024 characters long.
-/
namespace Playpen.Yaml

structure Candidate where
  index : Nat
  required : Bool
  offset : Nat
  mark : Mark

structure Lexer where
  cursor : Cursor
  tokens : List Token := []
  count : Nat := 0
  flow : Nat := 0
  indent : Int := -1
  outer : List Int := []
  keysAllowed : Bool := true
  candidates : List (Nat × Candidate) := []
  done : Bool := false

abbrev Lex (α : Type) : Type := Act Lexer Fault α

namespace Lex

def scan {α : Type} (x : Scan α) : Lex α :=
  Act.within Lexer.cursor (fun cursor l => { l with cursor }) x

def mark : Lex Mark := do return (← get).cursor.mark

def peek (ahead : Nat := 0) : Lex Char := do return (← get).cursor.peek ahead

def inFlow : Lex Bool := do return (← get).flow ≠ 0

def emit (kind : Token.Kind) (start stop : Mark) : Lex Unit :=
  modify fun l => { l with tokens := ⟨kind, start, stop⟩ :: l.tokens, count := l.count + 1 }

def emitScan (x : Scan Token.Kind) : Lex Unit := do
  let start ← mark
  let kind ← scan x
  let stop ← mark
  emit kind start stop

def emitMark (kind : Token.Kind) (width : Nat := 1) : Lex Unit :=
  emitScan do
    Scan.forward width
    pure kind

def allowKeys (b : Bool) : Lex Unit := modify fun l => { l with keysAllowed := b }

def noColon : String := "could not find expected ':'"

def simpleKeyContext : String := "while scanning a simple key"

def dropCandidate (level : Nat) : Lex Unit :=
  modify fun l => { l with candidates := l.candidates.filter (·.1 ≠ level) }

def giveUp (level : Nat) (k : Candidate) : Lex Unit := do
  if k.required then
    throw (.malformed (some (simpleKeyContext, k.mark)) noColon (← mark))
  dropCandidate level

def dropStale : Lex Unit := do
  let l ← get
  for (level, k) in l.candidates do
    if k.mark.line ≠ l.cursor.line || 1024 < l.cursor.offset - k.offset then giveUp level k

def dropCurrent : Lex Unit := do
  let l ← get
  match l.candidates.lookup l.flow with
  | some k => giveUp l.flow k
  | none => pure ()

def saveCandidate : Lex Unit := do
  let l ← get
  if l.keysAllowed then
    dropCurrent
    let k : Candidate := {
      index := l.count
      required := l.flow = 0 && l.indent = l.cursor.column
      offset := l.cursor.offset
      mark := l.cursor.mark }
    modify fun l => { l with candidates := l.candidates ++ [(l.flow, k)] }

def closeBlocks (column : Int) : Nat → Lex Unit
  | 0 => pure ()
  | fuel + 1 => do
    let l ← get
    if l.indent > column then
      set { l with indent := l.outer.headD (-1), outer := l.outer.drop 1 }
      emit .blockEnd l.cursor.mark l.cursor.mark
      closeBlocks column fuel

def unwind (column : Int) : Lex Unit := do
  let l ← get
  if l.flow = 0 then closeBlocks column (l.outer.length + 1)

def openBlock (column : Nat) : Lex Bool := do
  let l ← get
  if l.indent < column then
    set { l with indent := (column : Int), outer := l.indent :: l.outer }
    pure true
  else pure false

def toNextToken : Nat → Lex Unit
  | 0 => pure ()
  | fuel + 1 => do
    scan Scan.skipSpaces
    scan (modify Cursor.skipComment)
    if isBreak (← peek) then
      let _ ← scan Scan.takeBreak
      if !(← inFlow) then allowKeys true
      toNextToken fuel

def streamEnd : Lex Unit := do
  unwind (-1)
  dropCurrent
  allowKeys false
  modify fun l => { l with candidates := [], done := true }
  let m ← mark
  emit .streamEnd m m

def directive : Lex Unit := do
  unwind (-1)
  dropCurrent
  allowKeys false
  emitScan (.directive <$> Scan.directive)

def documentMark (kind : Token.Kind) : Lex Unit := do
  unwind (-1)
  dropCurrent
  allowKeys false
  emitMark kind 3

def openFlow (kind : Token.Kind) : Lex Unit := do
  saveCandidate
  modify fun l => { l with flow := l.flow + 1 }
  allowKeys true
  emitMark kind

def closeFlow (kind : Token.Kind) : Lex Unit := do
  dropCurrent
  modify fun l => { l with flow := l.flow - 1 }
  allowKeys false
  emitMark kind

def flowEntry : Lex Unit := do
  allowKeys true
  dropCurrent
  emitMark .flowEntry

def openHere (kind : Token.Kind) (refusal : String) : Lex Unit := do
  let l ← get
  if l.flow = 0 then
    if !l.keysAllowed then throw (.malformed none refusal l.cursor.mark)
    if ← openBlock l.cursor.column then emit kind l.cursor.mark l.cursor.mark

def blockEntry : Lex Unit := do
  openHere .blockSequence "sequence entries are not allowed here"
  allowKeys true
  dropCurrent
  emitMark .blockEntry

def key : Lex Unit := do
  openHere .blockMapping "mapping keys are not allowed here"
  allowKeys (!(← inFlow))
  dropCurrent
  emitMark .key

def insertAt (k : Candidate) (kind : Token.Kind) : Lex Unit :=
  modify fun l =>
    let later := l.count - k.index
    { l with
      tokens := l.tokens.take later ++ ⟨kind, k.mark, k.mark⟩ :: l.tokens.drop later
      count := l.count + 1 }

def value : Lex Unit := do
  let l ← get
  match l.candidates.lookup l.flow with
  | some k =>
    dropCandidate l.flow
    insertAt k .key
    if l.flow = 0 then
      if ← openBlock k.mark.column then insertAt k .blockMapping
    allowKeys false
  | none =>
    openHere .blockMapping "mapping values are not allowed here"
    allowKeys (!(← inFlow))
    dropCurrent
  emitMark .value

def keyPart (x : Scan Token.Kind) : Lex Unit := do
  saveCandidate
  allowKeys false
  emitScan x

def blockScalar (folded : Bool) (fuel : Nat) : Lex Unit := do
  allowKeys true
  dropCurrent
  let outer := (← get).indent
  emitScan do
    let text ← Scan.block folded outer fuel
    pure (.scalar text false)

def quotedScalar (quote : Quote) (fuel : Nat) : Lex Unit :=
  keyPart do
    let text ← Scan.quoted quote fuel
    pure (.scalar text false)

def plainScalar (fuel : Nat) : Lex Unit := do
  saveCandidate
  let l ← get
  let p ← scan (Scan.plain (l.flow ≠ 0) (l.indent + 1) fuel)
  allowKeys p.passedBreak
  emit (.scalar p.text true) l.cursor.mark p.stop

def isIndicator (c : Char) : Bool :=
  ['-', '?', ':', ',', '[', ']', '\x7b', '\x7d', '#', '&', '*', '!', '|', '>', '\'', '"', '%', '@',
    '\x60'].contains c

def startsPlain (flow : Bool) (c next : Char) : Bool :=
  !(endsWord c || isIndicator c) ||
    (!endsWord next && (c = '-' || (!flow && (c = '?' || c = ':'))))

def token (fuel : Nat) (cursor : Cursor) (flow : Bool) : Lex Unit :=
  let c := cursor.peek
  let after := cursor.peek 1
  let first := cursor.column = 0
  if c = '\x00' then streamEnd
  else if c = '%' && first then directive
  else if c = '-' && first && cursor.atSeparator then documentMark .documentStart
  else if c = '.' && first && cursor.atSeparator then documentMark .documentEnd
  else if c = '[' then openFlow .flowSequence
  else if c = '\x7b' then openFlow .flowMapping
  else if c = ']' then closeFlow .flowSequenceEnd
  else if c = '\x7d' then closeFlow .flowMappingEnd
  else if c = ',' then flowEntry
  else if c = '-' && endsWord after then blockEntry
  else if c = '?' && (flow || endsWord after) then key
  else if c = ':' && (flow || endsWord after) then value
  else if c = '*' then keyPart (.reference <$> Scan.anchorName "alias")
  else if c = '&' then keyPart (.anchor <$> Scan.anchorName "anchor")
  else if c = '!' then keyPart (.tag <$> Scan.tag)
  else if c = '|' && !flow then blockScalar false fuel
  else if c = '>' && !flow then blockScalar true fuel
  else if c = '\'' then quotedScalar .single fuel
  else if c = '"' then quotedScalar .double fuel
  else if startsPlain flow c after then plainScalar fuel
  else
    throw (.malformed none
      s!"while scanning for the next token\nfound character {shown c} that cannot start any token"
      cursor.mark)

def next (fuel : Nat) : Lex Unit := do
  toNextToken fuel
  dropStale
  let l ← get
  unwind l.cursor.column
  token fuel l.cursor (l.flow ≠ 0)

def settled (l : Lexer) : Nat :=
  l.candidates.foldl (fun n (_, k) => min n k.index) l.count

def atEnd (l : Lexer) : Bool := l.cursor.overran || l.cursor.rest.isEmpty

/-- The tokens up to the end, or those settled before a fault; `beyond` is the fault that the text
ends with. Each token takes a character at least, so that there are always fewer left than `fuel`. -/
def all (beyond : Option Fault) : Nat → Lexer → List Token × Option Fault
  | 0, l => (l.tokens.reverse, none)
  | fuel + 1, l =>
    if l.done then (l.tokens.reverse, none)
    else
      let (result, after) := (do next fuel; dropStale : Lex Unit) l
      match (if atEnd after then beyond else none), result with
      | some fault, _ | none, .error fault => ((l.tokens.drop (l.count - settled l)).reverse, some fault)
      | none, .ok _ => all beyond fuel after

end Lex

def tokens (source : Source) : List Token × Option Fault :=
  let cursor : Cursor := { rest := source.text }
  let cursor := if cursor.peek = '\ufeff' then cursor.step else cursor
  Lex.all source.fault (source.text.length + 2) { cursor }

end Playpen.Yaml
