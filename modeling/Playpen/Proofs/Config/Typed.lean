import Playpen.Proofs.Config.Validation

namespace Playpen

namespace Value

def IsText (v : Value) : Prop := ∃ s, v = .text s

def IsFlag (v : Value) : Prop := ∃ b, v = .bool b

def IsInteger (v : Value) : Prop := ∃ i, v = .int i ∧ Scalar.isWritable i = true

theorem IsInteger.display {v : Value} (h : v.IsInteger) : ∃ text, v.display = .ok text := by
  obtain ⟨i, rfl, hi⟩ := h
  exact ⟨_, congrArg (Except.map String.ofList) (if_pos hi)⟩

inductive IsReal : Value → Prop
  | float (x : Double) : IsReal (.float x)
  | nan (mark : Nat) : IsReal (.scalar (.nan mark))
  | int {v : Value} (h : v.IsInteger) : IsReal v

end Value

namespace Config

structure Sandbox.Typed (s : Sandbox) : Prop where
  controlPlane : s.controlPlane.IsText
  image : s.image.IsText
  containerName : s.containerName = .null ∨ s.containerName.IsText
  containerPrefix : s.containerPrefix.IsText
  user : s.user.IsText
  workingDir : s.workingDir.IsText
  memoryLimit : s.memoryLimit.IsInteger
  maxExecutionTime : s.maxExecutionTime.IsReal
  networkEnabled : s.networkEnabled.IsFlag
  privileged : s.privileged.IsFlag
  controlTimeout : s.controlTimeout.IsReal
  defaultSessionKey : s.defaultSessionKey.IsText
  versionSessionKey : s.versionSessionKey.IsText
  recycleOnTimeout : s.recycleOnTimeout.IsFlag
  dockerBinary : s.dockerBinary.IsText

structure Toolchain.Typed (t : Toolchain) : Prop where
  compiler : t.compiler.IsText
  sourceFilename : t.sourceFilename.IsText
  runCommand : t.runCommand.IsText
  generatedCodeCommand : t.generatedCodeCommand.IsText
  versionCommand : t.versionCommand.IsText
  generatedCodeBegin : t.generatedCodeBegin.IsText
  generatedCodeEnd : t.generatedCodeEnd.IsText
  noiseMarkers : ∃ markers : List String, t.noiseMarkers = .list (markers.map .text)

structure Typed (c : Config) : Prop where
  name : c.name.IsText
  sandbox : c.sandbox.Typed
  toolchain : c.toolchain.Typed
  maxCodeSize : c.maxCodeSize.IsInteger
  logLevel : c.logLevel.IsText

theorem typed_default : Typed {} where
  name := ⟨_, rfl⟩
  sandbox := {
    controlPlane := ⟨_, rfl⟩
    image := ⟨_, rfl⟩
    containerName := .inl rfl
    containerPrefix := ⟨_, rfl⟩
    user := ⟨_, rfl⟩
    workingDir := ⟨_, rfl⟩
    memoryLimit := ⟨_, rfl, by decide⟩
    maxExecutionTime := .float _
    networkEnabled := ⟨_, rfl⟩
    privileged := ⟨_, rfl⟩
    controlTimeout := .float _
    defaultSessionKey := ⟨_, rfl⟩
    versionSessionKey := ⟨_, rfl⟩
    recycleOnTimeout := ⟨_, rfl⟩
    dockerBinary := ⟨_, rfl⟩ }
  toolchain := {
    compiler := ⟨_, rfl⟩
    sourceFilename := ⟨_, rfl⟩
    runCommand := ⟨_, rfl⟩
    generatedCodeCommand := ⟨_, rfl⟩
    versionCommand := ⟨_, rfl⟩
    generatedCodeBegin := ⟨_, rfl⟩
    generatedCodeEnd := ⟨_, rfl⟩
    noiseMarkers := ⟨[_, _, _, _], rfl⟩ }
  maxCodeSize := ⟨_, rfl, by decide⟩
  logLevel := ⟨_, rfl⟩

end Config

end Playpen
