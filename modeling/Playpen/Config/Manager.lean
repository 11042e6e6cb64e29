import Playpen.Config.File

namespace Playpen.Config

structure Manager where
  path : Path
  current : Option Config := none

namespace Manager

def fileName : String := "yz_playground.yaml"

def ofPaths (root : Path) (file : Option Path) : Manager where
  path := file.getD (root.below ⟨"", [fileName]⟩)

def read (files : Tree) (vars : Variables) (path : Path) : Noted Config := do
  if ← Act.lift (isThere files path) then
    let c ← Config.load files path
    overridden vars c
  else
    Act.modify (· ++ [⟨.debug, s!"No configuration at {path.text}; using defaults"⟩])
    overridden vars {}

def load (files : Tree) (vars : Variables) (m : Manager) : Noted Manager := do
  let c ← read files vars m.path
  pure { m with current := some c }

def ensureLoaded (files : Tree) (vars : Variables) (m : Manager) : Noted Manager :=
  if m.current.isSome then pure m else m.load files vars

def save (m : Manager) : Act Tree Fault (List Char) :=
  match m.current with
  | none => throw (.configuration "No configuration to save")
  | some c => c.save m.path

end Manager

end Playpen.Config
