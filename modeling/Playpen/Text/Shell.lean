namespace Playpen.Shell

def isSafe (c : Char) : Bool :=
  ('a' ≤ c && c ≤ 'z') || ('A' ≤ c && c ≤ 'Z') || ('0' ≤ c && c ≤ '9') ||
    ['_', '@', '%', '+', '=', ':', ',', '.', '/', '-'].contains c

def escape (c : Char) : List Char := if c = '\'' then "'\"'\"'".toList else [c]

def quote (s : List Char) : List Char :=
  if s.isEmpty then ['\'', '\'']
  else if s.all isSafe then s
  else '\'' :: s.flatMap escape ++ ['\'']

end Playpen.Shell
