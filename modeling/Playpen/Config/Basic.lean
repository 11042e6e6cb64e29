import Playpen.Value

namespace Playpen

namespace Config

structure Sandbox where
  controlPlane : Value := .text "docker-cli"
  image : Value := .text "yz-sandbox:latest"
  containerName : Value := .null
  containerPrefix : Value := .text "yz-sandbox"
  user : Value := .text "yzuser"
  workingDir : Value := .text "/workspace"
  memoryLimit : Value := .int 256
  maxExecutionTime : Value := .float (Double.ofInt 10)
  networkEnabled : Value := .bool false
  privileged : Value := .bool false
  controlTimeout : Value := .float (Double.ofInt 30)
  defaultSessionKey : Value := .text "default"
  versionSessionKey : Value := .text "version"
  recycleOnTimeout : Value := .bool true
  dockerBinary : Value := .text "docker"
deriving DecidableEq

structure Toolchain where
  compiler : Value := .text "yzc"
  sourceFilename : Value := .text "main.yz"
  runCommand : Value := .text "cd \x7bworkdir\x7d && \x7bcompiler\x7d \x7bsource\x7d"
  generatedCodeCommand : Value := .text "cd \x7bworkdir\x7d && \x7bcompiler\x7d -e \x7bsource\x7d"
  versionCommand : Value := .text "\x7bcompiler\x7d --version"
  generatedCodeBegin : Value := .text "=== Generated Code ==="
  generatedCodeEnd : Value := .text "=== End Generated Code ==="
  noiseMarkers : Value := .list [.text "Built:", .text "yzc build", .text "running generated app",
    .text "Execution completed"]
deriving DecidableEq

structure Field (σ : Type) where
  name : String
  get : σ → Value
  set : Value → σ → σ

namespace Field

variable {σ : Type}

def entries (fields : List (Field σ)) (s : σ) : List (Scalar × Value) :=
  fields.map fun f => (.text f.name, f.get s)

def assign (fields : List (Field σ)) (mapping : List (Scalar × Value)) (s : σ) : σ :=
  fields.foldl (fun s f => ((Value.find? f.name mapping).map fun v => f.set v s).getD s) s

def named? (fields : List (Field σ)) (name : String) : Option (Field σ) :=
  fields.find? (·.name = name)

end Field

def Sandbox.fields : List (Field Sandbox) := [
  ⟨"control_plane", controlPlane, fun v s => { s with controlPlane := v }⟩,
  ⟨"image", image, fun v s => { s with image := v }⟩,
  ⟨"container_name", containerName, fun v s => { s with containerName := v }⟩,
  ⟨"container_prefix", containerPrefix, fun v s => { s with containerPrefix := v }⟩,
  ⟨"user", user, fun v s => { s with user := v }⟩,
  ⟨"working_dir", workingDir, fun v s => { s with workingDir := v }⟩,
  ⟨"memory_limit_mb", memoryLimit, fun v s => { s with memoryLimit := v }⟩,
  ⟨"max_execution_time_seconds", maxExecutionTime, fun v s => { s with maxExecutionTime := v }⟩,
  ⟨"network_enabled", networkEnabled, fun v s => { s with networkEnabled := v }⟩,
  ⟨"privileged", privileged, fun v s => { s with privileged := v }⟩,
  ⟨"control_timeout_seconds", controlTimeout, fun v s => { s with controlTimeout := v }⟩,
  ⟨"default_session_key", defaultSessionKey, fun v s => { s with defaultSessionKey := v }⟩,
  ⟨"version_session_key", versionSessionKey, fun v s => { s with versionSessionKey := v }⟩,
  ⟨"recycle_on_timeout", recycleOnTimeout, fun v s => { s with recycleOnTimeout := v }⟩,
  ⟨"docker_binary", dockerBinary, fun v s => { s with dockerBinary := v }⟩]

def Toolchain.fields : List (Field Toolchain) := [
  ⟨"compiler", compiler, fun v s => { s with compiler := v }⟩,
  ⟨"source_filename", sourceFilename, fun v s => { s with sourceFilename := v }⟩,
  ⟨"run_command", runCommand, fun v s => { s with runCommand := v }⟩,
  ⟨"generated_code_command", generatedCodeCommand, fun v s => { s with generatedCodeCommand := v }⟩,
  ⟨"version_command", versionCommand, fun v s => { s with versionCommand := v }⟩,
  ⟨"generated_code_begin", generatedCodeBegin, fun v s => { s with generatedCodeBegin := v }⟩,
  ⟨"generated_code_end", generatedCodeEnd, fun v s => { s with generatedCodeEnd := v }⟩,
  ⟨"noise_markers", noiseMarkers, fun v s => { s with noiseMarkers := v }⟩]

end Config

structure Config where
  name : Value := .text "yz-playground"
  sandbox : Config.Sandbox := {}
  toolchain : Config.Toolchain := {}
  maxCodeSize : Value := .int 10000
  logLevel : Value := .text "INFO"
deriving DecidableEq

namespace Config

def topFields : List (Field Config) := [
  ⟨"name", Config.name, fun v c => { c with name := v }⟩,
  ⟨"max_code_size", maxCodeSize, fun v c => { c with maxCodeSize := v }⟩,
  ⟨"log_level", logLevel, fun v c => { c with logLevel := v }⟩]

def toMap (c : Config) : Value := .map [
  (.text "name", c.name),
  (.text "sandbox", .map (Field.entries Sandbox.fields c.sandbox)),
  (.text "toolchain", .map (Field.entries Toolchain.fields c.toolchain)),
  (.text "max_code_size", c.maxCodeSize),
  (.text "log_level", c.logLevel)]

end Config

end Playpen
