import Playpen.Terminal.Shown

namespace Playpen

namespace Shown

def untagged : List Char → List Char
  | [] => []
  | c :: rest =>
    if c = '[' then untagged (rest.dropWhile (· ≠ ']')).tail
    else c :: untagged rest
termination_by s => s.length
decreasing_by
  · have : (rest.dropWhile (· ≠ ']')).length ≤ rest.length := (List.dropWhile_suffix _).length_le
    simp only [List.length_tail, List.length_cons]
    omega
  · simp

def contentText : Content → String
  | .styled s => s.text
  | .markup s => String.ofList (untagged s.toList)
  | .listing s => s

def tableRow (cells : List String) : String := Text.joinWith " | " cells

def plain : Shown → List String
  | .content c => [contentText c]
  | .panel title _ body => [s!"-- {title} --", contentText body]
  | .table title columns rows =>
    s!"-- {title} --" :: tableRow columns :: rows.map fun r => tableRow (r.map contentText)
  | .json s => [s]

end Shown

end Playpen
