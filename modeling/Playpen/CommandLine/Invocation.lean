import Playpen.CommandLine.Grammar
import Playpen.Files.Path
import Playpen.Number.Numeral
import Playpen.Scalar

namespace Playpen.CommandLine

structure RunRequest where
  file : Path := {}
  timeout : Except Misuse (Option Double) := .ok none
  generatedCode : Bool := false
  session : Option String := none
  json : Bool := false

inductive Task
  | run (request : RunRequest)
  | version
  | doctor

structure Invocation where
  config : Option Path := none
  verbose : Bool := false
  debug : Bool := false
  task : Option Task := none
  extras : List String := []

namespace Invocation

def program : String := "yz-playground"

def programOf (command : String) : String := s!"{program} {command}"

abbrev Part (σ : Type) : Type := σ × List String

def addExtras {σ : Type} (words : List String) (p : Part σ) : Part σ := (p.1, p.2 ++ words)

def helpOption {σ : Type} : Opt σ := ⟨["-h", "--help"], .help⟩

def setTimeout (value : Option String) (p : Part RunRequest) : Except String (Part RunRequest) :=
  match value, value.bind Numeral.double? with
  | none, _ => .ok ({ p.1 with timeout := .error .wrongType }, p.2)
  | some _, some x => .ok ({ p.1 with timeout := .ok (some x) }, p.2)
  | some text, none => .error s!"invalid float value: {Text.quote text}"

def setFile (words : List String) (p : Part RunRequest) : Except Halt (Part RunRequest) :=
  .ok ({ p.1 with file := Path.ofText (words.headD "") }, p.2)

def runGrammar : Grammar (Part RunRequest) where
  program := programOf "run"
  options := [
    helpOption,
    ⟨["--timeout"], .value setTimeout⟩,
    ⟨["--show-generated-code"], .flag fun p => ({ p.1 with generatedCode := true }, p.2)⟩,
    ⟨["--session"], .value fun s p => .ok ({ p.1 with session := s }, p.2)⟩,
    ⟨["--json"], .flag fun p => ({ p.1 with json := true }, p.2)⟩]
  positional := some ⟨"file", .one, setFile⟩
  addExtras := addExtras

def bareGrammar (command : String) : Grammar (Part Unit) where
  program := programOf command
  options := [helpOption]
  positional := none
  addExtras := addExtras

def commands : List String := ["run", "version", "doctor"]

def unknownCommand (word : String) : Halt :=
  let choices := Text.joinWith ", " (commands.map Text.quote)
  .misuse program
    s!"argument command: invalid choice: {Text.quote word} (choose from {choices})"

def bare (command : String) (task : Task) (words : List String) : Except Halt (Part Task) := do
  let ((), extras) ← (bareGrammar command).parse ((), []) words
  pure (task, extras)

def taskOf (command : String) (words : List String) : Except Halt (Part Task) :=
  if command = "run" then do
    let (request, extras) ← runGrammar.parse ({}, []) words
    pure (.run request, extras)
  else if command = "version" then bare command .version words
  else if command = "doctor" then bare command .doctor words
  else .error (unknownCommand command)

def setTask (words : List String) (l : Invocation) : Except Halt Invocation := do
  let (task, extras) ← taskOf (words.headD "") (words.drop 1)
  pure { l with task := some task, extras := l.extras ++ extras }

def grammar : Grammar Invocation where
  program := program
  options := [
    helpOption,
    ⟨["--config"], .value fun s l => .ok { l with config := s.map Path.ofText }⟩,
    ⟨["--verbose"], .flag fun l => { l with verbose := true }⟩,
    ⟨["--debug"], .flag fun l => { l with debug := true }⟩]
  positional := some ⟨"command", .rest, setTask⟩
  addExtras := fun words l => { l with extras := l.extras ++ words }

def parse (words : List String) : Except Halt Invocation := do
  let l ← grammar.parse {} words
  if l.extras.isEmpty then pure l
  else
    let words := Text.joinWith " " l.extras
    .error (.misuse program s!"unrecognized arguments: {words}")

end Invocation

end Playpen.CommandLine
