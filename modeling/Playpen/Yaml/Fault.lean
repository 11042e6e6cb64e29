import Playpen.Failure
import Playpen.Text.Quoted
import Playpen.Text.Search

namespace Playpen.Yaml

structure Mark where
  line : Nat
  column : Nat
deriving DecidableEq, Repr, Inhabited

def Mark.describe (file : String) (m : Mark) : String :=
  s!"  in \"{file}\", line {m.line + 1}, column {m.column + 1}"

inductive Fault
  | malformed (context : Option (String × Mark)) (problem : String) (mark : Mark)
  | unprintable (code : Nat) (offset : Nat)
  | noValue (kind : Kind)
deriving DecidableEq

namespace Fault

def lines (file : String) : Fault → List String
  | malformed none problem mark => [problem, mark.describe file]
  | malformed (some (context, start)) problem mark =>
    context :: (if start = mark then [] else [start.describe file]) ++ [problem, mark.describe file]
  | unprintable code offset =>
    [s!"unacceptable character #x{Text.hexText 4 code}: special characters are not allowed",
      s!"  in \"{file}\", position {offset}"]
  | noValue _ => []

def describe (file : String) (f : Fault) : String := Text.joinWith "\n" (f.lines file)

end Fault

def shown (c : Char) : String := Text.quote c.toString

end Playpen.Yaml
