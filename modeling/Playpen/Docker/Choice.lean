import Playpen.Text.Search
import Playpen.Value

namespace Playpen.Docker

inductive Choice
  | cli
  | api
deriving DecidableEq, Repr

def Choice.name : Choice → String
  | cli => "docker-cli"
  | api => "docker-api"

def choices : List Choice := [.cli, .api]

def supported : List String := choices.map Choice.name

def choice? (name : String) : Option Choice := choices.find? (·.name = name)

def supportedText : String := Text.joinWith ", " supported

def unsupported (name : Value) : Except Misuse String := do
  let name ← name.display
  pure s!"Unsupported control plane '{name}'. Supported: {supportedText}"

end Playpen.Docker
