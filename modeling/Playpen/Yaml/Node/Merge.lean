import Playpen.Yaml.Node
/-!
Merging: the entries of a mapping whose key is the merge mark stand for the entries of the mappings they
hold. They give way to the entries that the mapping has of its own, which come last.
-/
namespace Playpen.Yaml

abbrev Merging (α : Type) : Type := StateT Nodes (Except Fault) α

namespace Merging

def maxDepth : Nat := 975

def context : String := "while constructing a mapping"

def takeMark? (ns : Nodes) : List (NodeId × NodeId) → Option (NodeId × List (NodeId × NodeId))
  | [] => none
  | (k, v) :: rest =>
    if (ns.node k).tag = core "merge" then some (v, rest)
    else (takeMark? ns rest).map fun (found, rest) => (found, (k, v) :: rest)

def itemEntries (flatten : NodeId → Merging Unit) (start : Mark) (id : NodeId) :
    Merging (List (NodeId × NodeId)) := do
  let n := (← get).node id
  match n.content with
  | .mapping _ =>
    flatten id
    return (← get).entries id
  | _ => throw (.malformed (some (context, start))
      s!"expected a mapping for merging, but found {n.kindName}" n.start)

def entriesOf (flatten : NodeId → Merging Unit) (start : Mark) (id : NodeId) :
    Merging (List (NodeId × NodeId)) := do
  let n := (← get).node id
  match n.content with
  | .mapping _ =>
    flatten id
    return (← get).entries id
  | .sequence items =>
    let parts ← items.mapM (itemEntries flatten start)
    pure parts.reverse.flatten
  | .scalar _ => throw (.malformed (some (context, start))
      s!"expected a mapping or list of mappings for merging, but found {n.kindName}" n.start)

def takeMarks (flatten : NodeId → Merging Unit) (start : Mark) (id : NodeId) :
    Nat → Merging (List (NodeId × NodeId))
  | 0 => pure []
  | fuel + 1 => do
    let ns ← get
    match takeMark? ns (ns.entries id) with
    | none => pure []
    | some (value, rest) =>
      set (ns.setContent id (.mapping rest))
      let entries ← entriesOf flatten start value
      let more ← takeMarks flatten start id fuel
      pure (entries ++ more)

def setTextTag (ns : Nodes) (key : NodeId) : Nodes :=
  if (ns.node key).tag = core "value" then ns.setTag key strTag else ns

/-- Merges all that is to be merged into a mapping, and first into the mappings that it merges. While
that is done, its own marks are gone, so it may merge itself. -/
def flatten : Nat → NodeId → Merging Unit
  | 0, _ => throw (.noValue .nesting)
  | depth + 1, id => do
    let ns ← get
    let merged ← takeMarks (flatten depth) (ns.node id).start id (ns.entries id).length
    let ns ← get
    let own := ns.entries id
    set ((own.foldl (fun ns (k, _) => setTextTag ns k) ns).setContent id (.mapping (merged ++ own)))

end Merging

end Playpen.Yaml
