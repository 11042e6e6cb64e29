import Playpen.Text.Search
import Playpen.Text.Digit
import Playpen.Yaml.Timestamp
/-!
What kind of value a plain scalar stands for, by its form alone. The forms are those of YAML 1.1: `yes`
and `off` are truth values, and integers and floats may be written to the base 60. One line end behind a
form does not count.
-/
namespace Playpen.Yaml

def core (name : String) : String := "tag:yaml.org,2002:" ++ name

def strTag : String := core "str"

def seqTag : String := core "seq"

def mapTag : String := core "map"

namespace Schema

open Text (isAsciiDigit)

def truths : List (String × Bool) := [("yes", true), ("no", false), ("true", true), ("false", false),
  ("on", true), ("off", false)]

def upperAscii (c : Char) : Char := if 'a' ≤ c ∧ c ≤ 'z' then Char.ofNat (c.toNat - 32) else c

def casings (word : String) : List (List Char) :=
  match word.toList with
  | [] => [[]]
  | c :: rest => [c :: rest, upperAscii c :: rest, (c :: rest).map upperAscii]

def isOneOf (words : List String) (s : List Char) : Bool := words.any fun w => (casings w).contains s

def isNull (s : List Char) : Bool := s.isEmpty || s = ['~'] || isOneOf ["null"] s

def unsigned (s : List Char) : List Char := (Numeral.sign s).2

def digitOrLine (c : Char) : Bool := isAsciiDigit c || c = '_'

def isSixtieth (s : List Char) : Bool :=
  match s with
  | [a] => isAsciiDigit a
  | [a, b] => '0' ≤ a && a ≤ '5' && isAsciiDigit b
  | _ => false

def beginsWithDigit (s : List Char) : Bool := s.head?.any isAsciiDigit

def isDecimalWhole (s : List Char) : Bool := beginsWithDigit s && s.all digitOrLine

def areSixtieths (parts : List (List Char)) : Bool := !parts.isEmpty && parts.all isSixtieth

def isInteger (s : List Char) : Bool :=
  match unsigned s with
  | ['0'] => true
  | '0' :: 'b' :: rest => !rest.isEmpty && rest.all fun c => c = '0' || c = '1' || c = '_'
  | '0' :: 'x' :: rest => !rest.isEmpty && rest.all fun c =>
      isAsciiDigit c || ('a' ≤ c && c ≤ 'f') || ('A' ≤ c && c ≤ 'F') || c = '_'
  | '0' :: rest => !rest.isEmpty && rest.all fun c => ('0' ≤ c && c ≤ '7') || c = '_'
  | s =>
    match Text.split ':' s with
    | [whole] => isDecimalWhole whole
    | first :: rest => isDecimalWhole first && areSixtieths rest
    | [] => false

def isExponent : List Char → Bool
  | [] => true
  | e :: sgn :: ds =>
    (e = 'e' || e = 'E') && (sgn = '-' || sgn = '+') && !ds.isEmpty && ds.all isAsciiDigit
  | _ => false

def isFraction (s : List Char) : Bool := isExponent (s.dropWhile digitOrLine)

def isPointed (whole : List Char → Bool) (after : List Char → Bool) (s : List Char) : Bool :=
  let head := s.takeWhile (· ≠ '.')
  match s.drop head.length with
  | '.' :: rest => whole head && after rest
  | _ => false

def isSixtiethWhole (s : List Char) : Bool :=
  match Text.split ':' s with
  | first :: rest => isDecimalWhole first && areSixtieths rest
  | [] => false

def isFloat (s : List Char) : Bool :=
  let body := unsigned s
  isPointed isDecimalWhole isFraction body ||
    isPointed List.isEmpty (fun r => beginsWithDigit r && isFraction r) s ||
    isPointed isSixtiethWhole (·.all digitOrLine) body ||
    isPointed List.isEmpty (isOneOf ["inf"]) body ||
    (s.head? = some '.' && ["nan", "NaN", "NAN"].contains (String.ofList (s.drop 1)))

def formTag (s : List Char) : String :=
  if isNull s then core "null"
  else if isOneOf (truths.map (·.1)) s then core "bool"
  else if isFloat s then core "float"
  else if isInteger s then core "int"
  else if s = ['<', '<'] then core "merge"
  else if Timestamp.isPlain s then core "timestamp"
  else if s = ['='] then core "value"
  else if ['!', '&', '*'].any fun c => s = [c] then core "yaml"
  else strTag

def tagOf (s : List Char) : String :=
  if s = ['\n'] then strTag else formTag (Timestamp.withoutLineEnd s)

end Schema

end Playpen.Yaml
