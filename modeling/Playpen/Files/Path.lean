import Playpen.Text.Lower
import Playpen.Text.Search

namespace Playpen

structure Path where
  anchor : String := ""
  names : List String := []
deriving DecidableEq

namespace Path

def isName (piece : List Char) : Bool := !piece.isEmpty && piece != ['.']

def anchorOf (s : List Char) : String :=
  match s.takeWhile (· = '/') with
  | [] => ""
  | ['/', '/'] => "//"
  | _ => "/"

def ofText (s : String) : Path where
  anchor := anchorOf s.toList
  names := ((Text.split '/' s.toList).filter isName).map String.ofList

def text (p : Path) : String :=
  if p.anchor = "" ∧ p.names = [] then "." else p.anchor ++ Text.joinWith "/" p.names

def below (base p : Path) : Path :=
  if p.anchor = "" then { base with names := base.names ++ p.names } else p

def parent (p : Path) : Path := { p with names := p.names.dropLast }

def suffix (p : Path) : String :=
  let name := (p.names.getLast?.getD "").toList.reverse
  let tail := name.takeWhile (· ≠ '.')
  let head := name.drop (tail.length + 1)
  if tail.isEmpty || head.isEmpty then "" else String.ofList ('.' :: tail.reverse)

def isJson (p : Path) : Bool := Text.lower p.suffix = ".json"

end Path

end Playpen
