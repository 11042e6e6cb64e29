import Playpen.Yaml.Cursor
import Playpen.Yaml.Schema

namespace Playpen.Yaml

inductive Style
  | plain
  | single
  | double
deriving DecidableEq, Repr

namespace Style

def isSpecial (c : Char) : Bool := !(c = '\n' || (0x20 ≤ c.toNat && c.toNat ≤ 0x7e))

def neighbours (before : Char) : List Char → List (Char × Char × Char)
  | [] => []
  | c :: rest => (before, c, rest.headD '\x00') :: neighbours c rest

def leads (c next : Char) : Bool :=
  ['#', ',', '[', ']', '\x7b', '\x7d', '&', '*', '!', '|', '>', '\'', '"', '%', '@', '\x60'].contains c ||
    (['?', ':', '-'].contains c && endsWord next)

def interrupts (before c next : Char) : Bool :=
  (c = ':' && endsWord next) || (c = '#' && endsWord before)

def startsSeparator (s : List Char) : Bool :=
  ['-', '-', '-'].isPrefixOf s || ['.', '.', '.'].isPrefixOf s

def hasIndicator : List Char → Bool
  | [] => false
  | c :: rest =>
    startsSeparator (c :: rest) || leads c (rest.headD '\x00') ||
      (neighbours c rest).any fun (before, c, next) => interrupts before c next

def isGap (c : Char) : Bool := c = ' ' || isBreak c

def hasPair (p q : Char → Bool) : List Char → Bool
  | c :: d :: rest => (p c && q d) || hasPair p q (d :: rest)
  | _ => false

def isMultiline (s : List Char) : Bool := s.any isBreak

def allowsPlain (s : List Char) : Bool :=
  !(s.head?.any isGap || s.getLast?.any isGap || isMultiline s || s.any isSpecial || hasIndicator s)

def allowsSingle (s : List Char) : Bool :=
  !(hasPair isBreak (· = ' ') s || hasPair (· = ' ') isBreak s || s.any isSpecial)

def choose (tag : String) (simpleKey : Bool) (s : List Char) : Style :=
  if Schema.tagOf s = tag && allowsPlain s && !(simpleKey && s.isEmpty) then .plain
  else if allowsSingle s && !(simpleKey && isMultiline s) then .single
  else .double

end Style

end Playpen.Yaml
