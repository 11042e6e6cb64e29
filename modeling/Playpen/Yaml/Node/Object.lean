import Playpen.Yaml.Node.Merge
import Playpen.Yaml.Schema.Value
/-!
What nodes stand for: one object for each node, made when the node is first come to. A collection is
made empty and filled later, in the order in which collections were made, so a node may be part of
itself, and faults in an outer collection come before those in the collections inside it.
-/
namespace Playpen.Yaml

inductive Object
  | plain (s : Scalar)
  | list (items : List NodeId)
  | pairs (items : List (NodeId × NodeId))
  | map (entries : List (Scalar × NodeId))
  | set (items : List Scalar)

structure Builder where
  nodes : Nodes
  objects : Array (Option Object)
  made : List NodeId := []

abbrev Build (α : Type) : Type := StateT Builder (Except Fault) α

namespace Build

def undefinedTag (n : Node) : Fault :=
  .malformed none s!"could not determine a constructor for the tag {Text.quote n.tag}" n.start

def expected (what : String) (n : Node) : Fault :=
  .malformed none s!"expected a {what} node, but found {n.kindName}" n.start

def scalarText (ns : Nodes) : Nat → NodeId → Except Fault (List Char)
  | 0, _ => .error (.noValue .nesting)
  | depth + 1, id =>
    match (ns.node id).content with
    | .scalar text => .ok text
    | .mapping entries =>
      match entries.find? fun (k, _) => (ns.node k).tag = core "value" with
      | some (_, v) => scalarText ns depth v
      | none => .error (expected "scalar" (ns.node id))
    | .sequence _ => .error (expected "scalar" (ns.node id))

def scalarNames : List String := ["str", "null", "bool", "int", "float", "timestamp", "binary"]

def emptyObjects : List (String × Object) :=
  [("seq", .list []), ("map", .map []), ("set", .set []), ("omap", .pairs []), ("pairs", .pairs [])]

def scalar (ns : Nodes) (id : NodeId) (name : String) : Except Fault Scalar := do
  let n := ns.node id
  let text ← scalarText ns Merging.maxDepth id
  match name, n.content with
  | "timestamp", .mapping _ => .error (.noValue .type)
  | _, _ => Schema.value name id n.start text

def put (id : NodeId) (o : Object) : Build Unit :=
  modify fun b => { b with objects := b.objects.set! id (some o) }

def reach (id : NodeId) : Build Unit := do
  let b ← get
  if (b.objects.getD id none).isNone then
    let n := b.nodes.node id
    match scalarNames.find? (core · = n.tag), emptyObjects.find? (core ·.1 = n.tag) with
    | some name, _ => put id (.plain (← scalar b.nodes id name))
    | none, some (_, o) =>
      put id o
      modify fun b => { b with made := id :: b.made }
    | none, none => throw (undefinedTag n)

def flatten (id : NodeId) : Build Unit := do
  let b ← get
  let (_, nodes) ← Merging.flatten Merging.maxDepth id b.nodes
  set { b with nodes }

def entriesOf (start : Mark) (entries : List (NodeId × NodeId)) : Build (List (Scalar × NodeId)) := do
  let pairs ← entries.mapM fun (k, v) => do
    reach k
    let b ← get
    match b.objects.getD k none with
    | some (.plain key) =>
      reach v
      pure (key, v)
    | _ => throw (.malformed (some (Merging.context, start)) "found unhashable key" (b.nodes.node k).start)
  pure (Value.ofPairs pairs)

def pairOf (context : String) (start : Mark) (id : NodeId) : Build (NodeId × NodeId) := do
  let n := (← get).nodes.node id
  let fail (problem : String) : Build (NodeId × NodeId) :=
    throw (.malformed (some (context, start)) problem n.start)
  match n.content with
  | .mapping [(k, v)] =>
    reach k
    reach v
    pure (k, v)
  | .mapping entries => fail s!"expected a single mapping item, but found {entries.length} items"
  | _ => fail s!"expected a mapping of length 1, but found {n.kindName}"

def pairsContext (tag : String) : String :=
  if tag = core "omap" then "while constructing an ordered map" else "while constructing pairs"

def fill (id : NodeId) : Build Unit := do
  let b ← get
  let n := b.nodes.node id
  match b.objects.getD id none, n.content with
  | some (.list _), .sequence items =>
    items.forM reach
    put id (.list items)
  | some (.list _), _ => throw (expected "sequence" n)
  | some (.pairs _), .sequence items =>
    put id (.pairs (← items.mapM (pairOf (pairsContext n.tag) n.start)))
  | some (.pairs _), _ => throw (.malformed (some (pairsContext n.tag, n.start))
      s!"expected a sequence, but found {n.kindName}" n.start)
  | some (.map _), .mapping _ =>
    flatten id
    put id (.map (← entriesOf n.start ((← get).nodes.entries id)))
  | some (.set _), .mapping _ =>
    flatten id
    let entries ← entriesOf n.start ((← get).nodes.entries id)
    put id (.set (entries.map (·.1)))
  | some (.map _), _ | some (.set _), _ => throw (expected "mapping" n)
  | some (.plain _), _ | none, _ => pure ()

def fillAll : Nat → Build Unit
  | 0 => pure ()
  | fuel + 1 => do
    let made := (← get).made.reverse
    if !made.isEmpty then
      modify fun b => { b with made := [] }
      made.forM fill
      fillAll fuel

end Build

def Nodes.objects (ns : Nodes) (root : NodeId) : Except Fault (Array (Option Object)) := do
  let (_, b) ← (do Build.reach root; Build.fillAll (ns.size + 1) : Build Unit)
    { nodes := ns, objects := Array.replicate ns.size none }
  pure b.objects

end Playpen.Yaml
