import Playpen.Config.Validation

namespace Playpen.Config

abbrev Noted (α : Type) : Type := Act (List Record) Fault α

def warn (message : String) : Noted Unit := Act.modify (· ++ [⟨.warning, message⟩])

def pairOf (v : Value) : Except Misuse (Scalar × Value) := do
  match ← members v with
  | [.scalar k, v] => .ok (k, v)
  | [_, _] => .error .wrongType
  | _ => .error .badText

def mappingOf (v : Value) : Except Misuse (List (Scalar × Value)) :=
  if !v.truth then .ok []
  else match v with
    | .map entries => .ok entries
    | v => do
      let items ← members v
      let pairs ← items.mapM pairOf
      pure (Value.ofPairs pairs)

/-- A section of a mapping; a missing one, and any value that counts as false, is empty. -/
def section? (name : String) (mapping : List (Scalar × Value)) : Option (List (Scalar × Value)) :=
  match Value.find? name mapping with
  | none => some []
  | some v =>
    if !v.truth then some []
    else match v with
      | .map entries => some entries
      | _ => none

def unknownKeys (known : List String) (mapping : List (Scalar × Value)) :
    Except Misuse (List String) := do
  let unknown := (mapping.map (·.1)).filter fun k => !known.any fun name => k = .text name
  let texts ← unknown.mapM Scalar.display
  pure (texts.mergeSort fun a b => decide (a ≤ b))

def noteUnknown (title : String) (known : List String) (mapping : List (Scalar × Value)) :
    Noted Unit := do
  match ← Act.used (unknownKeys known mapping) with
  | [] => pure ()
  | unknown =>
    let names := Text.joinWith ", " unknown
    warn s!"Ignoring unknown {title} configuration keys: {names}"

def needSection (name : String) (mapping : List (Scalar × Value)) :
    Except Fault (List (Scalar × Value)) :=
  match section? name mapping with
  | some entries => .ok entries
  | none => .error (.configuration s!"'{name}' section must be a mapping")

def listOfMarkers (t : Toolchain) : Toolchain :=
  match t.noiseMarkers with
  | .text s => { t with noiseMarkers := .list [.text s] }
  | _ => t

def fieldNames {σ : Type} (fields : List (Field σ)) : List String := fields.map Field.name

def layered (mapping sandbox toolchain : List (Scalar × Value)) : Config :=
  Field.assign topFields mapping {
    sandbox := Field.assign Sandbox.fields sandbox {}
    toolchain := listOfMarkers (Field.assign Toolchain.fields toolchain {}) }

def ofValue (v : Value) : Noted Config := do
  let mapping ← Act.used (mappingOf v)
  let sandbox ← Act.lift (needSection "sandbox" mapping)
  let toolchain ← Act.lift (needSection "toolchain" mapping)
  noteUnknown "sandbox" (fieldNames Sandbox.fields) sandbox
  noteUnknown "toolchain" (fieldNames Toolchain.fields) toolchain
  noteUnknown "top-level" ("sandbox" :: "toolchain" :: fieldNames topFields) mapping
  let c := layered mapping sandbox toolchain
  Act.lift (validate c)
  pure c

abbrev Variables : Type := List (String × String)

def nonempty? (vars : Variables) (name : String) : Option String :=
  (vars.lookup name).filter (· ≠ "")

def integerVariable? (vars : Variables) (name : String) : Noted (Option Int) :=
  match nonempty? vars name with
  | none => pure none
  | some text =>
    match Numeral.integer? text with
    | some i => pure (some i)
    | none => do
      warn s!"Ignoring {name}={Text.quote text}: not an integer"
      pure none

structure TextVariable where
  name : String
  read : String → String
  set : Value → Config → Config

def textVariables : List TextVariable := [
  ⟨"SANDBOX_CONTAINER", id, fun v c => { c with sandbox := { c.sandbox with containerName := v } }⟩,
  ⟨"SANDBOX_IMAGE", id, fun v c => { c with sandbox := { c.sandbox with image := v } }⟩,
  ⟨"SANDBOX_CONTROL_PLANE", fun s => Text.lower (Text.trim s),
    fun v c => { c with sandbox := { c.sandbox with controlPlane := v } }⟩,
  ⟨"YZ_COMPILER_PATH", id, fun v c => { c with toolchain := { c.toolchain with compiler := v } }⟩,
  ⟨"LOG_LEVEL", id, fun v c => { c with logLevel := v }⟩]

def applyText (vars : Variables) (c : Config) : Config :=
  textVariables.foldl (fun c x => match nonempty? vars x.name with
    | some text => x.set (.text (x.read text)) c
    | none => c) c

def secondsOfMillis (ms : Int) : Except Misuse Value := do
  let x ← Value.doubleOfInt ms
  pure (.float (x.divNat 1000))

def withVariables (vars : Variables) (c : Config) : Noted Config := do
  let c ← match ← integerVariable? vars "MAX_EXECUTION_TIME" with
    | some ms =>
      let limit ← Act.used (secondsOfMillis ms)
      pure { c with sandbox := { c.sandbox with maxExecutionTime := limit } }
    | none => pure c
  let c ← match ← integerVariable? vars "MAX_MEMORY" with
    | some megabytes => pure { c with sandbox := { c.sandbox with memoryLimit := .int megabytes } }
    | none => pure c
  let c ← match ← integerVariable? vars "MAX_CODE_SIZE" with
    | some size => pure { c with maxCodeSize := .int size }
    | none => pure c
  pure (applyText vars c)

def overridden (vars : Variables) (c : Config) : Noted Config := do
  let c ← withVariables vars c
  Act.lift (validate c)
  pure c

end Playpen.Config
