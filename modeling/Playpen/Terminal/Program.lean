import Playpen.CommandLine.Invocation
import Playpen.Config.Engine
import Playpen.Config.Manager
import Playpen.Terminal.Shown
/-!
The program: from the words of its command line to what it shows and the status it ends with. Whatever
happens after the engine is there, every environment is released before the end.
-/
namespace Playpen

inductive Input
  | bytes (data : List UInt8)
  | text (points : List Nat)

instance : Coe (List UInt8) Input := ⟨.bytes⟩

structure Surroundings where
  words : List String
  files : Tree
  environment : Config.Variables
  input : Input

structure Terminal (ω : Type) where
  site : Site ω Double
  shown : List Shown := []
  threshold : Option (Nat × Int) := none

inductive Ending
  | status (code : Nat)
  | halted (h : CommandLine.Halt)
deriving DecidableEq

def Ending.code : Ending → Nat
  | status code => code
  | halted .help => 0
  | halted (.misuse ..) => 2

namespace Terminal

variable {ω α : Type}

abbrev Session (ω α : Type) : Type := Act (Terminal ω) Config.Fault α

def onSite (x : SiteAct ω Double α) : Session ω α :=
  Act.within Terminal.site (fun site t => { t with site }) x

def noted (x : Config.Noted α) : Session ω α :=
  onSite (Site.effect (Act.within Env.log (fun log env => { env with log }) x))

def showAll (xs : List Shown) : Session ω Unit :=
  Act.modify fun t => { t with shown := t.shown ++ xs }

def usualThreshold : Int := 30

def effective (limit : Int) : Int := if limit = 0 then usualThreshold else limit

def log (t : Terminal ω) : List Record :=
  let records := t.site.env.log
  match t.threshold with
  | none => Log.passing usualThreshold records
  | some (count, limit) =>
    Log.passing usualThreshold (records.take count) ++
      Log.passing (effective limit) (records.drop count)

def setUpLog (setting : Value) (verbose : Bool) : Session ω Unit := do
  let v ← Act.lift (Config.used (Log.threshold setting verbose))
  let limit ← Act.lift (Config.used v.toInt)
  Act.modify fun t => { t with threshold := some (t.site.env.log.length, limit) }

end Terminal

namespace Program

open CommandLine (Invocation RunRequest Task)
open Terminal (Session onSite noted showAll setUpLog)

def exitOk : Nat := 0

def exitFailed : Nat := 1

def exitConfig : Nat := 2

variable {σ ω : Type} [Clock σ Double] [Clock ω Double] [Docker.Racked σ ω Double]
  (shell : Docker.Shell ω Double) (client : Docker.Client ω Double) (plane : ControlPlane σ Double)

def configuration (s : Surroundings) (i : Invocation) : Session σ Config := do
  let home := s.files.home
  if let some path := i.config then
    if !(← Act.lift (Config.isThere s.files path)) then throw (Config.missing path)
  let m := Config.Manager.ofPaths home i.config
  noted (Config.Manager.read s.files s.environment m.path)

def decoded (data : List UInt8) : Except Config.Fault (List Nat) :=
  match Tree.textOf? data with
  | some text => .ok (text.map Char.toNat)
  | none => .error (.other .decoding none)

def encoded (points : List Nat) : Except Config.Fault (List UInt8) :=
  if points.any Text.Units.isHalf then .error (.other .encoding none)
  else .ok (points.flatMap Utf8.encodePoint)

def textOfInput : Input → Except Config.Fault (List Nat)
  | .bytes data => decoded data
  | .text points => .ok points

def source (s : Surroundings) (file : Path) : Except Config.Fault (Except String (List Nat)) :=
  if file.text = "-" then (textOfInput s.input).map .ok
  else match s.files.read file with
    | .error .nullInName => .error (.other .value none)
    | .error trouble => .ok (.error s!"Cannot read {file.text}: {trouble.describe file}")
    | .ok data => (decoded data).map .ok

def exceeds (size : Nat) (limit : Value) : Except Misuse Bool :=
  match limit.number? with
  | some (.int i) => .ok (decide (i < size))
  | some (.float x) => .ok (x.lt (Double.ofInt size))
  | none => .error .wrongType

def submission (r : RunRequest) (timeout : Option Double) (code : List Nat) : Submission Double where
  source := .text code
  timeout
  sections := r.generatedCode
  key := (r.session.map .text).getD .null

def runSource (c : Config) (e : Engine Double) (r : RunRequest) (code : List Nat) : Session σ Nat := do
  let data ← Act.lift (encoded code)
  if ← Act.lift (Config.used (exceeds data.length c.maxCodeSize)) then
    let limit ← Act.lift (Config.used c.maxCodeSize.display)
    showAll [.markup s!"[red]Source is larger than the {limit} byte limit.[/red]"]
    pure exitFailed
  else
    let timeout ← Act.lift (Config.used r.timeout)
    let result ← onSite (e.execute plane (Runner.open plane e.settings) (submission r timeout code))
    if r.json then showAll [← Act.lift (Config.used (Shown.asJson result))]
    else
      showAll (Shown.ofResult result)
      showAll [← Act.lift (Config.used (Shown.usage result))]
    pure (if result.success then exitOk else exitFailed)

def run (s : Surroundings) (c : Config) (e : Engine Double) (r : RunRequest) : Session σ Nat := do
  match ← Act.lift (source s r.file) with
  | .error message =>
    showAll [.text message .red]
    pure exitConfig
  | .ok code => runSource plane c e r code

def version (e : Engine Double) : Session σ Nat := do
  let v ← onSite (e.toolchainVersion plane (Runner.open plane e.settings))
  showAll [.text v]
  pure exitOk

def doctor (c : Config) (e : Engine Double) : Session σ Nat := do
  let attributes := c.sandbox.attribute?
  let probe := e.toolchainVersion plane (Runner.open plane e.settings)
  let rack (s : Site σ Double) : Env (Docker.Rack ω Double) Double :=
    { s.env with world := Docker.Racked.rack s.env.world }
  let setRack (env : Env (Docker.Rack ω Double) Double) (s : Site σ Double) : Site σ Double :=
    { s with env := { env with world := Docker.Racked.setRack env.world s.env.world } }
  let checks ← onSite (Docker.Doctor.run shell client rack setRack attributes
    (Docker.Doctor.timeLimit attributes) (some probe))
  showAll [.ofChecks checks]
  pure (if checks.any (·.status = .fail) then exitFailed else exitOk)

def perform (s : Surroundings) (c : Config) (e : Engine Double) : Task → Session σ Nat
  | .run r => run plane s c e r
  | .version => version plane e
  | .doctor => doctor shell client plane c e

def report (f : Config.Fault) : Session σ Nat := do
  if f.isA .configuration then
    showAll [.text f.forUser .red]
    pure exitConfig
  else if f.isA .playground then
    onSite (Site.note .debug s!"Command failed: {f.message}")
    showAll [.text f.forUser .red]
    pure exitFailed
  else throw f

def cleanUp (debug : Bool) : Session σ Unit := do
  try onSite (Engine.shutdown plane)
  catch f =>
    if f.isA .playground then
      onSite (Site.note .warning s!"Sandbox cleanup failed: {f.message}")
    else throw f
  if debug then
    let t ← Act.read fun t => t.site.env.tracer
    showAll (Shown.timings t ++ Shown.calls t)

def prepare (i : Invocation) (c : Config) : Session σ Unit := do
  setUpLog c.logLevel i.verbose
  if i.debug then onSite (Site.effect (Env.updateTracer fun t => { t with enabled := true }))

def carryOut (s : Surroundings) (i : Invocation) (c : Config) (task : Task) : Session σ Nat := do
  prepare i c
  let e ← Act.lift (Config.used c.engine)
  let work : Session σ Nat := (perform shell client plane s c e task).rescue report
  work.ensure (cleanUp plane i.debug)

def invoke (s : Surroundings) (i : Invocation) (task : Task) : Session σ Nat := do
  match ← Act.outcome (configuration s i) with
  | .ok c => carryOut shell client plane s i c task
  | .error f =>
    if f.isA .configuration then
      showAll [.text f.message .red]
      pure exitConfig
    else throw f

def start (s : Surroundings) : Session σ Ending := do
  match Invocation.parse s.words with
  | .error h => pure (.halted h)
  | .ok i =>
    match i.task with
    | none => pure (.status exitOk)
    | some task => .status <$> invoke shell client plane s i task

end Program

end Playpen
