import Playpen.Yaml.Node.Object
import Playpen.Yaml.Node.Reader

namespace Playpen.Yaml

abbrev Unfold (α : Type) : Type := StateM (Array (Option Value)) α

namespace Unfold

abbrev Knotted (α : Type) : Type := α × Bool

def all {α : Type} (parts : List (Knotted α)) : Knotted (List α) := (parts.map (·.1), parts.any (·.2))

def both (value : NodeId → Unfold (Knotted Value)) (pair : NodeId × NodeId) : Unfold (Knotted Value) := do
  let (a, p) ← value pair.1
  let (b, q) ← value pair.2
  pure (.tuple [a, b], p || q)

def entry (value : NodeId → Unfold (Knotted Value)) (e : Scalar × NodeId) :
    Unfold (Knotted (Scalar × Value)) := do
  let (v, p) ← value e.2
  pure ((e.1, v), p)

def contents (value : NodeId → Unfold (Knotted Value)) : Object → Unfold (Knotted Value)
  | .plain s => pure (.scalar s, false)
  | .set items => pure (.set items, false)
  | .list items => do
    let (values, p) := all (← items.mapM value)
    pure (.list values, p)
  | .pairs items => do
    let (values, p) := all (← items.mapM (both value))
    pure (.list values, p)
  | .map entries => do
    let (values, p) := all (← entries.mapM (entry value))
    pure (.map values, p)

def isMap : Object → Bool
  | .map _ => true
  | _ => false

/-- The value of a node below others. The root and the sections below it are not looked at as a whole,
so knots count from the level below those, that is when no `free` levels are left. -/
def value (objects : Array (Option Object)) (free : Nat) (above : List NodeId) :
    Nat → NodeId → Unfold (Knotted Value)
  | 0, _ => pure (.knot false, true)
  | fuel + 1, id => do
    match (← get).getD id none, objects.getD id none with
    | some v, _ => pure (v, false)
    | none, none => pure (.null, false)
    | none, some o =>
      if above.contains id then pure (.knot (isMap o), true)
      else
        let above := if free = 0 then id :: above else above
        let (v, p) ← contents (value objects (free - 1) above fuel) o
        if !p then modify fun memo => memo.set! id (some v)
        pure (v, p)

end Unfold

def parse (data : Utf8.Bytes) : Except Fault Value := do
  match ← Nodes.ofSource (.ofBytes data) with
  | (_, none) => .ok .null
  | (ns, some root) =>
    let objects ← ns.objects root
    let memo := Array.replicate ns.size none
    let ((v, _), _) := (Unfold.value objects 2 [] (ns.size + 3) root).run memo
    .ok v

end Playpen.Yaml
