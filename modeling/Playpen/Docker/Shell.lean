import Playpen.Sandbox.ControlPlane

namespace Playpen.Docker

open Utf8 (Bytes)

structure Launch (τ : Type) where
  words : List Value
  timeout : τ
  merged : Bool := false
  input : Option Bytes := none
  text : Bool := false

inductive Ending (τ : Type)
  | exited (status : Int) (output error : Option Bytes)
  | timedOut
  | failed (cause : Failure τ)

structure Shell (ω τ : Type) where
  launch : Launch τ → ω → Ending τ × ω
  which : Value → ω → Bool

namespace Shell

variable {ω τ : Type}

def bare : Shell ω τ where
  launch l world :=
    let binary := ((l.words.headD .null).display.toOption).getD ""
    (.failed (.other .fileMissing (some s!"No such file or directory: {binary}")), world)
  which _ _ := false

def run (shell : Shell ω τ) (l : Launch τ) : Effect ω τ (Ending τ) := fun env =>
  let (ending, world) := shell.launch l env.world
  (.ok ending, { env with world })

def found (shell : Shell ω τ) (binary : Value) : Effect ω τ Bool :=
  Act.read fun env => shell.which binary env.world

end Shell

end Playpen.Docker
