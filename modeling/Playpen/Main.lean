import Playpen.Terminal.Plain
import Playpen.Terminal.Program
/-!
The command. It hands the words of the command line to the program, with the variables, the files and
the input that they ask for, and prints what the program shows. Processes are not launched from here:
every binary counts as missing.
-/
namespace Playpen

structure BareHost where
  instant : Double

instance : Clock BareHost Double where
  now h := h.instant
  wall h := h.instant

namespace Surroundings

def variableNames : List String :=
  ["MAX_EXECUTION_TIME", "MAX_MEMORY", "MAX_CODE_SIZE"] ++
    Config.textVariables.map Config.TextVariable.name

def filesOf (home : Path) (words : List String) : List Path :=
  match CommandLine.Invocation.parse words with
  | .error _ => []
  | .ok i =>
    (Config.Manager.ofPaths home i.config).path :: match i.task with
      | some (.run r) => [r.file]
      | _ => []

def readsInput (words : List String) : Bool :=
  match CommandLine.Invocation.parse words with
  | .ok { task := some (.run r), .. } => r.file.text = "-"
  | _ => false

def variablesOfProcess : IO Config.Variables :=
  variableNames.filterMapM fun name => do
    match ← IO.getEnv name with
    | some text => pure (some (name, text))
    | none => pure none

def addFile (t : Tree) (p : Path) : IO Tree := do
  try
    let data ← IO.FS.readBinFile p.text
    pure (t.install p data.toList)
  catch _ => pure t

partial def readAll (input : IO.FS.Stream) (acc : ByteArray) : IO ByteArray := do
  let part ← input.read 65536
  if part.isEmpty then pure acc else readAll input (acc ++ part)

def here (words : List String) : IO Surroundings := do
  let home := Path.ofText (← IO.currentDir).toString
  let empty : Tree := { home, folders := [home.names] }
  let files ← (filesOf home words).foldlM addFile empty
  let input ← if readsInput words then readAll (← IO.getStdin) .empty else pure .empty
  pure { words, files, environment := ← variablesOfProcess, input := input.toList }

end Surroundings

def usage : String :=
  s!"usage: {CommandLine.Invocation.program} [--config FILE] [--verbose] [--debug] " ++
    "run FILE [--timeout SECONDS] [--show-generated-code] [--session KEY] [--json] | version | doctor"

def Terminal.printed (t : Terminal (Docker.Rack BareHost Double)) : List String :=
  t.shown.flatMap Shown.plain

def finish (outcome : Except Config.Fault Ending) (t : Terminal (Docker.Rack BareHost Double)) :
    IO UInt32 := do
  for line in t.printed do IO.println line
  for r in t.log do IO.eprintln r.message
  match outcome with
  | .ok e =>
    match e with
    | .halted .help => IO.println usage
    | .halted (.misuse program message) => IO.eprintln s!"{usage}\n{program}: error: {message}"
    | .status _ => pure ()
    pure (UInt32.ofNat e.code)
  | .error f =>
    IO.eprintln f.message
    pure 1

def command (words : List String) : IO UInt32 := do
  let surroundings ← Surroundings.here words
  let nanoseconds ← IO.monoNanosNow
  let host : BareHost := ⟨Double.ofQuotient false (nanoseconds * Double.unit) 1000000000⟩
  let start : Terminal (Docker.Rack BareHost Double) :=
    { site := { env := { world := { outer := host } } } }
  let plane := Docker.plane .bare .unreachable
  let (outcome, t) := Program.start .bare .unreachable plane surroundings start
  finish outcome t

end Playpen

def main (words : List String) : IO UInt32 := Playpen.command words
