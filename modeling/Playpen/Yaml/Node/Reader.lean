import Playpen.Yaml.Node
import Playpen.Yaml.Token.Lexer

namespace Playpen.Yaml

structure Reader where
  tokens : List Token
  fault : Option Fault
  handles : List (String × String) := []
  anchors : List (String × NodeId) := []
  nodes : Nodes := #[]

abbrev Read (α : Type) : Type := StateT Reader (Except Fault) α

namespace Read

def nowhere : Mark := ⟨0, 0⟩

def peek : Read Token := do
  let r ← get
  match r.tokens, r.fault with
  | t :: _, _ => pure t
  | [], some fault => throw fault
  | [], none => pure ⟨.streamEnd, nowhere, nowhere⟩

def kind : Read Token.Kind := do return (← peek).kind

def take : Read Token := do
  let t ← peek
  modify fun r => { r with tokens := r.tokens.drop 1 }
  pure t

def takeIf (k : Token.Kind) : Read Bool := do
  if (← kind) = k then
    let _ ← take
    pure true
  else pure false

def fail {α : Type} (context : Option (String × Mark)) (problem : String) (mark : Mark) : Read α :=
  throw (.malformed context problem mark)

def tooDeep {α : Type} : Read α := throw (.noValue .nesting)

def add (tag : String) (start : Mark) (content : Content) : Read NodeId := do
  let id := (← get).nodes.size
  modify fun r => { r with nodes := r.nodes.push ⟨tag, start, content⟩ }
  pure id

def empty (m : Mark) : Read NodeId := add (core "null") m (.scalar [])

structure Properties where
  anchor : Option String := none
  tag : Option Tag := none
  start : Option Mark := none
  tagMark : Option Mark := none

def anchorPart (p : Properties) : Read Properties := do
  match ← peek with
  | ⟨.anchor name, start, _⟩ =>
    let _ ← take
    pure { p with anchor := some name, start := p.start.or (some start) }
  | _ => pure p

def tagPart (p : Properties) : Read Properties := do
  match ← peek with
  | ⟨.tag t, start, _⟩ =>
    let _ ← take
    pure { p with tag := some t, start := p.start.or (some start), tagMark := some start }
  | _ => pure p

def properties : Read Properties := do
  match ← kind with
  | .tag _ => anchorPart (← tagPart {})
  | _ => tagPart (← anchorPart {})

def fullTag (p : Properties) (start : Mark) : Read (Option String) := do
  match p.tag with
  | none => pure none
  | some ⟨none, suffix⟩ => pure (some suffix)
  | some ⟨some handle, suffix⟩ =>
    match (← get).handles.lookup handle with
    | some meaning => pure (some (meaning ++ suffix))
    | none =>
      fail (some ("while parsing a node", start))
        s!"found undefined tag handle {Text.quote handle}" (p.tagMark.getD start)

def checkAnchor (name : Option String) (start : Mark) : Read Unit := do
  let r ← get
  match name.bind (r.anchors.lookup ·), name with
  | some first, some name =>
    fail (some (s!"found duplicate anchor {Text.quote name}; first occurrence", (r.nodes.node first).start))
      "second occurrence" start
  | _, _ => pure ()

def named (name : Option String) (start : Mark) (make : Read NodeId) : Read NodeId := do
  checkAnchor name start
  let id ← make
  if let some name := name then
    modify fun r => { r with anchors := (name, id) :: r.anchors }
  pure id

def aliased (name : String) (m : Mark) : Read NodeId := do
  match (← get).anchors.lookup name with
  | some id => pure id
  | none => fail none s!"found undefined alias {Text.quote name}" m

def maxDepth : Nat := 485

def collection (depth : Nat) (name : Option String) (tag : String) (start : Mark) (read : Read Content) :
    Read NodeId := do
  let id ← named name start (add tag start (.sequence []))
  if maxDepth ≤ depth then tooDeep
  let content ← read
  modify fun r => { r with nodes := r.nodes.setContent id content }
  pure id

def scalarTag (tag : Option String) (plain : Bool) (text : List Char) : String :=
  match tag with
  | some t => if t = "!" then Schema.tagOf text else t
  | none => if plain then Schema.tagOf text else strTag

def collectionTag (tag : Option String) (standard : String) : String :=
  match tag with
  | some t => if t = "!" then standard else t
  | none => standard

def endsBlockItem (k : Token.Kind) : Bool := k = .blockEntry || k = .blockEnd

def endsIndentless (k : Token.Kind) : Bool :=
  k = .blockEntry || k = .key || k = .value || k = .blockEnd

def endsBlockKey (k : Token.Kind) : Bool := k = .key || k = .value || k = .blockEnd

def endsFlowItem (close : Token.Kind) (k : Token.Kind) : Bool := k = .flowEntry || k = close

def endsFlowKey (close : Token.Kind) (k : Token.Kind) : Bool :=
  k = .value || endsFlowItem close k

def comma (context : String) (start : Mark) (expected : String) : Read Unit := do
  if !(← takeIf .flowEntry) then
    let t ← peek
    fail (some (context, start)) s!"expected {expected}, but got {t.kind.quoted}" t.start

inductive Place
  | block
  | mappingPart
  | flow
deriving DecidableEq

def Place.name : Place → String
  | flow => "flow"
  | _ => "block"

mutual

def node (place : Place) (depth : Nat) : Nat → Read NodeId
  | 0 => tooDeep
  | fuel + 1 => do
    match ← peek with
    | ⟨.reference name, start, _⟩ =>
      let _ ← take
      aliased name start
    | _ =>
      let p ← properties
      let start ← match p.start with
        | some start => pure start
        | none => Token.start <$> peek
      let tag ← fullTag p start
      let next ← peek
      let sequence := collection depth p.anchor (collectionTag tag seqTag) start
      let mapping := collection depth p.anchor (collectionTag tag mapTag) start
      match next.kind, place with
      | .blockEntry, .mappingPart => sequence (.sequence <$> indentlessItems (depth + 1) fuel)
      | .scalar text plain, _ =>
        let _ ← take
        named p.anchor start (add (scalarTag tag plain text) start (.scalar text))
      | .flowSequence, _ => sequence (.sequence <$> flowItems next.start true (depth + 1) fuel)
      | .flowMapping, _ => mapping (.mapping <$> flowEntries next.start true (depth + 1) fuel)
      | .blockSequence, .block | .blockSequence, .mappingPart =>
        sequence do
          let _ ← take
          .sequence <$> blockItems next.start (depth + 1) fuel
      | .blockMapping, .block | .blockMapping, .mappingPart =>
        mapping do
          let _ ← take
          .mapping <$> blockEntries next.start (depth + 1) fuel
      | k, _ =>
        if p.anchor.isSome || p.tag.isSome then
          named p.anchor start (if tag.isNone then empty start
            else add (scalarTag tag false []) start (.scalar []))
        else
          fail (some (s!"while parsing a {place.name} node", start))
            s!"expected the node content, but found {k.quoted}" next.start
termination_by structural fuel => fuel

def nodeUnless (place : Place) (ends : Token.Kind → Bool) (m : Mark) (depth : Nat) : Nat → Read NodeId
  | 0 => tooDeep
  | fuel + 1 => do
    if ends (← kind) then empty m else node place depth fuel
termination_by structural fuel => fuel

def blockItems (start : Mark) (depth : Nat) : Nat → Read (List NodeId)
  | 0 => tooDeep
  | fuel + 1 => do
    let t ← take
    match t.kind with
    | .blockEntry =>
      let item ← nodeUnless .block endsBlockItem t.stop depth fuel
      let rest ← blockItems start depth fuel
      pure (item :: rest)
    | .blockEnd => pure []
    | k =>
      fail (some ("while parsing a block collection", start))
        s!"expected <block end>, but found {k.quoted}" t.start
termination_by structural fuel => fuel

def indentlessItems (depth : Nat) : Nat → Read (List NodeId)
  | 0 => tooDeep
  | fuel + 1 => do
    let t ← peek
    if t.kind = .blockEntry then
      let _ ← take
      let item ← nodeUnless .block endsIndentless t.stop depth fuel
      let rest ← indentlessItems depth fuel
      pure (item :: rest)
    else pure []
termination_by structural fuel => fuel

def blockEntries (start : Mark) (depth : Nat) : Nat → Read (List (NodeId × NodeId))
  | 0 => tooDeep
  | fuel + 1 => do
    let t ← peek
    match t.kind with
    | .key =>
      let _ ← take
      let key ← nodeUnless .mappingPart endsBlockKey t.stop depth fuel
      let value ← blockValue depth fuel
      let rest ← blockEntries start depth fuel
      pure ((key, value) :: rest)
    | .blockEnd =>
      let _ ← take
      pure []
    | k =>
      fail (some ("while parsing a block mapping", start))
        s!"expected <block end>, but found {k.quoted}" t.start
termination_by structural fuel => fuel

def blockValue (depth : Nat) : Nat → Read NodeId
  | 0 => tooDeep
  | fuel + 1 => do
    let t ← peek
    if t.kind = .value then
      let _ ← take
      nodeUnless .mappingPart endsBlockKey t.stop depth fuel
    else empty t.start
termination_by structural fuel => fuel

def flowValue (close : Token.Kind) (depth : Nat) : Nat → Read NodeId
  | 0 => tooDeep
  | fuel + 1 => do
    let t ← peek
    if t.kind = .value then
      let _ ← take
      nodeUnless .flow (endsFlowItem close) t.stop depth fuel
    else empty t.start
termination_by structural fuel => fuel

def flowItems (start : Mark) (first : Bool) (depth : Nat) : Nat → Read (List NodeId)
  | 0 => tooDeep
  | fuel + 1 => do
    if first then let _ ← take
    if ← takeIf .flowSequenceEnd then pure []
    else
      if !first then comma "while parsing a flow sequence" start "',' or ']'"
      let t ← peek
      match t.kind with
      | .flowSequenceEnd =>
        let _ ← take
        pure []
      | .key =>
        let item ← collection depth none mapTag t.start do
          let _ ← take
          let key ← nodeUnless .flow (endsFlowKey .flowSequenceEnd) t.stop (depth + 1) fuel
          let value ← flowValue .flowSequenceEnd (depth + 1) fuel
          pure (.mapping [(key, value)])
        let rest ← flowItems start false depth fuel
        pure (item :: rest)
      | _ =>
        let item ← node .flow depth fuel
        let rest ← flowItems start false depth fuel
        pure (item :: rest)
termination_by structural fuel => fuel

def flowEntries (start : Mark) (first : Bool) (depth : Nat) : Nat → Read (List (NodeId × NodeId))
  | 0 => tooDeep
  | fuel + 1 => do
    if first then let _ ← take
    if ← takeIf .flowMappingEnd then pure []
    else
      if !first then comma "while parsing a flow mapping" start "',' or '\x7d'"
      let t ← peek
      match t.kind with
      | .flowMappingEnd =>
        let _ ← take
        pure []
      | .key =>
        let _ ← take
        let key ← nodeUnless .flow (endsFlowKey .flowMappingEnd) t.stop depth fuel
        let value ← flowValue .flowMappingEnd depth fuel
        let rest ← flowEntries start false depth fuel
        pure ((key, value) :: rest)
      | _ =>
        let key ← node .flow depth fuel
        let value ← empty (← peek).start
        let rest ← flowEntries start false depth fuel
        pure ((key, value) :: rest)
termination_by structural fuel => fuel

end

def standardHandles : List (String × String) := [("!", "!"), ("!!", "tag:yaml.org,2002:")]

def directives (hasVersion : Bool) (own : List (String × String)) : Nat → Read Unit
  | 0 => pure ()
  | fuel + 1 => do
    let t ← peek
    match t.kind with
    | .directive (.version major _) =>
      let _ ← take
      if hasVersion then fail none "found duplicate YAML directive" t.start
      if major ≠ 1 then
        fail none "found incompatible YAML document (version 1.* is required)" t.start
      directives true own fuel
    | .directive (.handle name meaning) =>
      let _ ← take
      if (own.lookup name).isSome then
        fail none s!"duplicate tag handle {Text.quote name}" t.start
      directives hasVersion ((name, meaning) :: own) fuel
    | .directive .other =>
      let _ ← take
      directives hasVersion own fuel
    | _ => modify fun r => { r with handles := own ++ standardHandles }

def skipDocumentEnds : Nat → Read Unit
  | 0 => pure ()
  | fuel + 1 => do
    if ← takeIf .documentEnd then skipDocumentEnds fuel

def marked (fuel : Nat) : Read (Option Mark) := do
  skipDocumentEnds fuel
  let t ← peek
  if t.kind = .streamEnd then pure none
  else
    directives false [] fuel
    let next ← peek
    if next.kind ≠ .documentStart then
      fail none s!"expected '<document start>', but found {next.kind.quoted}" next.start
    let _ ← take
    pure (some t.start)

def isDirective : Token.Kind → Bool
  | .directive _ => true
  | _ => false

def endsDocument (k : Token.Kind) : Bool :=
  isDirective k || k = .documentStart || k = .documentEnd || k = .streamEnd

def document (fuel : Nat) : Read (Option NodeId) := do
  let t ← peek
  let root ←
    if !(isDirective t.kind || t.kind = .documentStart || t.kind = .streamEnd) then do
      modify fun r => { r with handles := standardHandles }
      let id ← node .block 0 fuel
      pure (some id)
    else do
      match ← marked fuel with
      | none => pure none
      | some _ =>
        let id ← nodeUnless .block endsDocument (← peek).start 0 fuel
        pure (some id)
  match root with
  | none => pure none
  | some id =>
    let _ ← takeIf .documentEnd
    match ← marked fuel with
    | none => pure (some id)
    | some second =>
      fail (some ("expected a single document in the stream", ((← get).nodes.node id).start))
        "but found another document" second

end Read

def Nodes.ofSource (source : Source) : Except Fault (Nodes × Option NodeId) := do
  let (tokens, fault) := tokens source
  let (root, r) ← Read.document (8 * tokens.length + 16) { tokens, fault }
  pure (r.nodes, root)

end Playpen.Yaml
