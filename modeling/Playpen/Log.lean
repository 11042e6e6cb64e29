import Playpen.Value
import Playpen.Text.Lower

namespace Playpen

inductive Level
  | debug
  | info
  | warning
  | error
deriving DecidableEq, Repr

def Level.rank : Level → Int
  | debug => 10
  | info => 20
  | warning => 30
  | error => 40

structure Record where
  level : Level
  message : String
deriving DecidableEq

namespace Log

def thresholds : List (String × Int) :=
  [("CRITICAL", 50), ("FATAL", 50), ("ERROR", 40), ("WARN", 30), ("WARNING", 30), ("INFO", 20),
    ("DEBUG", 10), ("NOTSET", 0)]

def upperChar (c : Char) : Char :=
  if 'a' ≤ c ∧ c ≤ 'z' then Char.ofNat (c.toNat - 32)
  else if c = 'ı' then 'I'
  else if c = 'ſ' then 'S'
  else c

def namedThreshold (name : String) : Int :=
  let upper := String.ofList ((Text.trimBy Text.isBlank name.toList).map upperChar)
  (thresholds.lookup upper).getD 20

def threshold (setting : Value) (verbose : Bool) : Except Misuse Value :=
  if verbose then .ok (.int 10)
  else match setting with
    | .text name => .ok (.int (namedThreshold name))
    | .int i => .ok (.int i)
    | .bool b => .ok (.bool b)
    | _ => .error .wrongType

def passing (limit : Int) (log : List Record) : List Record :=
  log.filter fun r => limit ≤ r.level.rank

def root : String := "yz_playground"

def qualified (name : String) : String :=
  if name = root || (root ++ ".").toList.isPrefixOf name.toList then name else root ++ "." ++ name

end Log

end Playpen
