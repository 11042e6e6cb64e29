import Playpen.Yaml.Schema
import Playpen.Yaml.Fault

namespace Playpen.Yaml

abbrev NodeId : Type := Nat

inductive Content
  | scalar (text : List Char)
  | sequence (items : List NodeId)
  | mapping (entries : List (NodeId × NodeId))
deriving Inhabited

structure Node where
  tag : String
  start : Mark
  content : Content
deriving Inhabited

def Node.kindName (n : Node) : String :=
  match n.content with
  | .scalar _ => "scalar"
  | .sequence _ => "sequence"
  | .mapping _ => "mapping"

abbrev Nodes : Type := Array Node

namespace Nodes

def node (ns : Nodes) (id : NodeId) : Node := ns.getD id default

def entries (ns : Nodes) (id : NodeId) : List (NodeId × NodeId) :=
  match (ns.node id).content with
  | .mapping entries => entries
  | _ => []

def setTag (id : NodeId) (tag : String) (ns : Nodes) : Nodes := ns.modify id fun n => { n with tag }

def setContent (id : NodeId) (content : Content) (ns : Nodes) : Nodes :=
  ns.modify id fun n => { n with content }

end Nodes

end Playpen.Yaml
