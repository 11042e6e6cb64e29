namespace Playpen.Text

def isBlank (c : Char) : Bool :=
  let n := c.toNat
  (9 ≤ n && n ≤ 13) || (28 ≤ n && n ≤ 32) || n == 0x85 || n == 0xa0 || n == 0x1680 ||
    (0x2000 ≤ n && n ≤ 0x200a) || n == 0x2028 || n == 0x2029 || n == 0x202f || n == 0x205f ||
    n == 0x3000

def isSeparator (c : Char) : Bool := 0x1c ≤ c.toNat && c.toNat ≤ 0x1f

def isEdgeBlank (c : Char) : Bool := isBlank c && !isSeparator c

def trimEnd (p : Char → Bool) (s : List Char) : List Char := (s.reverse.dropWhile p).reverse

def trimBy (p : Char → Bool) (s : List Char) : List Char := trimEnd p (s.dropWhile p)

def trim (s : String) : String := String.ofList (trimBy isBlank s.toList)

end Playpen.Text
