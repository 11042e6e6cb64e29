import Playpen.Proofs.Engine.History

namespace Playpen

structure Script where
  links : Nat := 0
  environments : Nat := 0
  execs : List (Except (Failure Double) Capture) := []
  running : Bool := true
  memory : Except (Failure Double) Value := .ok (.int 0)
  removal : Except (Failure Double) Unit := .ok ()

namespace Script

instance : Clock Script Double where
  now _ := Double.zero false
  wall _ := Double.zero false

def environmentId (n : Nat) : EnvironmentId := .text ("env" ++ Nat.repr n)

def answer {α : Type} (reply : Script → Except (Failure Double) α) : Effect Script Double α :=
  fun env => (reply env.world, env)

def plane : ControlPlane Script Double where
  connect _ := fun env =>
    (.ok env.world.links, { env with world := { env.world with links := env.world.links + 1 } })
  create _ _ := fun env =>
    (.ok (environmentId env.world.environments),
      { env with world := { env.world with environments := env.world.environments + 1 } })
  inject _ _ _ _ := answer fun _ => .ok ()
  exec _ _ _ := fun env =>
    (env.world.execs.headD (.ok ⟨0, []⟩),
      { env with world := { env.world with execs := env.world.execs.tail } })
  terminate _ _ _ := answer fun _ => .ok ()
  isRunning _ _ := answer fun s => .ok s.running
  memoryUsage _ _ := answer fun s => s.memory
  remove _ _ := answer fun s => s.removal
  close _ := answer fun _ => .ok ()

def settings : Settings Double where
  image := .text "image"
  memoryLimit := 1
  maxExecutionTime := Double.ofInt 1
  workingDir := .text "/work"
  compiler := .text "compiler"
  controlTimeout := Double.ofInt 1

theorem legible : plane.Legible settings where
  image := ⟨"image", rfl⟩
  created h := by
    cases h
    exact ⟨_, rfl⟩
  attached := nofun

theorem measures (w : Script) : Measures Script (Clock.now w : Double) := by
  have hzero : Seconds.millis (Seconds.sub (Double.zero false) (Double.zero false)) = .ok 0 := by
    decide +kernel
  exact fun _ => ⟨0, hzero⟩

def engine (recycling : Bool) : Engine Double := { settings, recycleOnTimeout := recycling }

def stalled : Script := { execs := [.error (.timeout (Double.ofInt 1))] }

def submission : Submission Double := { source := .text [109] }

def site (e : Engine Double) (w : Script) (ops : List (Operation Script Double)) :
    Site (Recorded Script Double) Double :=
  history plane settings e { world := w } ops

def execution (e : Engine Double) (w : Script) (ops : List (Operation Script Double)) :
    Except (Failure Double) ExecutionResult × Site (Recorded Script Double) Double :=
  e.execute plane.recorded (Runner.open plane.recorded settings) submission (site e w ops)

end Script

end Playpen
