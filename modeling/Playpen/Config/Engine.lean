import Playpen.Config.Validation
import Playpen.Execution.Engine

namespace Playpen.Config

def engine (c : Config) : Except Misuse (Engine Double) := do
  let settings ← c.settings
  pure {
    settings
    defaultKey := c.sandbox.defaultSessionKey
    versionKey := c.sandbox.versionSessionKey
    recycleOnTimeout := c.sandbox.recycleOnTimeout.truth }

def Sandbox.attribute? (s : Sandbox) (name : String) : Option Value :=
  (Field.named? Sandbox.fields name).map fun f => f.get s

end Playpen.Config
