import Playpen.Sandbox.Settings

namespace Playpen

open Utf8 (Bytes)

/-- Parameters of one isolated environment. Equal memory and swap ceilings disable swap. -/
structure EnvironmentSpec where
  image : Value
  name : Value
  user : Value
  workingDir : Value
  memoryLimit : Int
  memorySwap : Int
  networkEnabled : Value := .bool false
  privileged : Value := .bool false
  command : List Value := [.text "sleep", .text "infinity"]

structure Command (τ : Type) where
  line : Value
  user : Value
  workingDir : Value
  timeout : τ

structure Capture where
  exitCode : Int
  output : Bytes
deriving DecidableEq

abbrev Link : Type := Nat

structure ControlPlane (ω τ : Type) where
  connect : Settings τ → Effect ω τ Link
  create : Link → EnvironmentSpec → Effect ω τ EnvironmentId
  inject : Link → EnvironmentId → Value → Bytes → Effect ω τ Unit
  exec : Link → EnvironmentId → Command τ → Effect ω τ Capture
  terminate : Link → EnvironmentId → Value → Effect ω τ Unit
  isRunning : Link → EnvironmentId → Effect ω τ Bool
  memoryUsage : Link → EnvironmentId → Effect ω τ Value
  remove : Link → EnvironmentId → Effect ω τ Unit
  close : Link → Effect ω τ Unit

/-- A control plane that is all outside: its operations change the world and nothing else. -/
structure Remote (ω τ : Type) where
  connect : Settings τ → Call ω τ Link
  create : Link → EnvironmentSpec → Call ω τ EnvironmentId
  inject : Link → EnvironmentId → Value → Bytes → Call ω τ Unit
  exec : Link → EnvironmentId → Command τ → Call ω τ Capture
  terminate : Link → EnvironmentId → Value → Call ω τ Unit
  isRunning : Link → EnvironmentId → Call ω τ Bool
  memoryUsage : Link → EnvironmentId → Call ω τ Value
  remove : Link → EnvironmentId → Call ω τ Unit
  close : Link → Call ω τ Unit

def Remote.plane {ω τ : Type} (r : Remote ω τ) : ControlPlane ω τ where
  connect s := Env.call (r.connect s)
  create l spec := Env.call (r.create l spec)
  inject l id dest archive := Env.call (r.inject l id dest archive)
  exec l id command := Env.call (r.exec l id command)
  terminate l id user := Env.call (r.terminate l id user)
  isRunning l id := Env.call (r.isRunning l id)
  memoryUsage l id := Env.call (r.memoryUsage l id)
  remove l id := Env.call (r.remove l id)
  close l := Env.call (r.close l)

end Playpen
