import Playpen.Config.Layers
import Playpen.Files.Tree
import Playpen.Json.Parser
import Playpen.Json.Printer
import Playpen.Yaml.Node.Value
import Playpen.Yaml.Printer

namespace Playpen.Config

def loadFailure (detail : String) : Fault :=
  .configuration ("Failed to load configuration: " ++ detail)

def saveFailure (detail : String) : Fault :=
  .configuration ("Failed to save configuration: " ++ detail)

def fileFault (report : String → Fault) (trouble : Tree.Trouble) (path : Path) : Fault :=
  if trouble = .nullInName then .other .value none else report (trouble.describe path)

def readJson (text : List Char) : Except Fault Value :=
  match Json.parse text with
  | .ok v => .ok v
  | .error (.malformed problem left) => .error (loadFailure (Json.describe text problem left))
  | .error .tooManyDigits => .error (.other .value none)
  | .error .tooDeep => .error (.other .nesting none)

def readYaml (path : Path) (data : Utf8.Bytes) : Except Fault Value :=
  match Yaml.parse data with
  | .ok v => .ok v
  | .error (.noValue kind) => .error (.other kind none)
  | .error fault => .error (loadFailure (fault.describe path.text))

def readFile (files : Tree) (path : Path) : Except Fault Value :=
  match files.read path with
  | .error trouble => .error (fileFault loadFailure trouble path)
  | .ok data =>
    if path.isJson then
      match Tree.textOf? data with
      | none => .error (.other .decoding none)
      | some text => readJson text
    else readYaml path data

def isMappingOrNull : Value → Bool
  | .null | .map _ => true
  | _ => false

def isThere (files : Tree) (path : Path) : Except Fault Bool :=
  (files.has path).mapError fun _ => .other .system none

def missing (path : Path) : Fault :=
  .configuration ("Configuration file not found: " ++ path.text)

def load (files : Tree) (path : Path) : Noted Config := do
  if !(← Act.lift (isThere files path)) then throw (missing path)
  let v ← Act.lift (readFile files path)
  if !isMappingOrNull v then
    throw (.configuration ("Configuration root must be a mapping: " ++ path.text))
  ofValue v

def maxDepth : Nat := 490

def maxYamlDepth : Nat := 325

def draft (c : Config) (path : Path) : Json.Draft :=
  let v := c.toMap
  if path.isJson then Json.draft { indent := some 2 } v
  else if maxYamlDepth < v.depth then ⟨[], some .tooDeep⟩
  else .ofText (Yaml.print v)

/-- Saves a configuration in a file whose folders are made first; gives the text written. A file that
cannot be written to its end keeps what was written of it. -/
def save (path : Path) (c : Config) : Act Tree Fault (List Char) := do
  let onTree (p : Path) (x : Act Tree Tree.Trouble Unit) : Act Tree Fault Unit := fun files =>
    let (result, files) := x files
    (result.mapError (fileFault saveFailure · p), files)
  onTree path.parent (Tree.makeFolders path.parent)
  let v := c.toMap
  if v.isKnotted || maxDepth < v.depth then throw (.other .nesting none)
  let draft := c.draft path
  onTree path (Tree.write path (Utf8.encode draft.text))
  match draft.stop with
  | none => pure draft.text
  | some misuse => throw misuse.failure

end Playpen.Config
