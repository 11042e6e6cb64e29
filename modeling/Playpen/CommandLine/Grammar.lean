import Playpen.Text.Quoted
import Playpen.Text.Digit
import Playpen.Text.Search

namespace Playpen.CommandLine

inductive Halt
  | help
  | misuse (program message : String)
deriving DecidableEq, Repr

def Halt.text : Halt → Option String
  | help => none
  | misuse program message => some s!"{program}: error: {message}"

inductive Action (σ : Type)
  | help
  | flag (set : σ → σ)
  | value (set : Option String → σ → Except String σ)

structure Opt (σ : Type) where
  names : List String
  action : Action σ

inductive Extent
  | one
  | rest
deriving DecidableEq

structure Positional (σ : Type) where
  name : String
  extent : Extent
  set : List String → σ → Except Halt σ

structure Grammar (σ : Type) where
  program : String
  options : List (Opt σ)
  positional : Option (Positional σ)
  addExtras : List String → σ → σ

structure Met (σ : Type) where
  text : String
  opt : Option (Opt σ)
  spelled : String
  given : Option String := none

inductive Word (σ : Type)
  | plain (text : String)
  | dashes
  | option (m : Met σ)

namespace Word

variable {σ : Type}

def text : Word σ → String
  | plain s => s
  | dashes => "--"
  | option m => m.text

def isOption : Word σ → Bool
  | option _ => true
  | _ => false

def isDashes : Word σ → Bool
  | dashes => true
  | _ => false

def isPlain : Word σ → Bool
  | plain _ => true
  | _ => false

end Word

def cutAtEquals (s : String) : String × Option String :=
  let head := s.toList.takeWhile (· ≠ '=')
  match s.toList.drop head.length with
  | [] => (s, none)
  | _ :: value => (String.ofList head, some (String.ofList value))

def isNumeral (s : List Char) : Bool := !s.isEmpty && s.all fun c => (Text.digitValue? c).isSome

def isUnsigned (s : List Char) : Bool :=
  let head := s.takeWhile (· ≠ '.')
  isNumeral s || ((head.isEmpty || isNumeral head) && isNumeral (s.drop (head.length + 1)))

def isNegativeNumber (s : String) : Bool :=
  match s.toList with
  | '-' :: rest => isUnsigned (if rest.getLast? = some '\n' then rest.dropLast else rest)
  | _ => false

namespace Opt

variable {σ : Type}

def title (o : Opt σ) : String := Text.joinWith "/" o.names

def takesValue (o : Opt σ) : Bool := o.action matches .value _

def complaint (o : Opt σ) (message : String) : String := s!"argument {o.title}: {message}"

end Opt

namespace Grammar

variable {σ : Type} (g : Grammar σ)

def misuse {α : Type} (message : String) : Except Halt α := .error (.misuse g.program message)

def named? (name : String) : Option (Opt σ) := g.options.find? fun o => o.names.contains name

def spellings : List (String × Opt σ) := g.options.flatMap fun o => o.names.map fun n => (n, o)

def beginsWith (beginning name : String) : Bool := beginning.toList.isPrefixOf name.toList

def longMatches (s : String) : List (Met σ) :=
  let (beginning, given) := cutAtEquals s
  (g.spellings.filter fun (n, _) => beginsWith beginning n).map fun (n, o) => ⟨s, some o, n, given⟩

def shortMatches (s : String) : List (Met σ) :=
  let letter := String.ofList (s.toList.take 2)
  g.spellings.filterMap fun (n, o) =>
    if n = letter then some ⟨s, some o, n, some (String.ofList (s.toList.drop 2))⟩
    else if beginsWith s n then some ⟨s, some o, n, none⟩
    else none

def abbreviated (s : String) : List (Met σ) :=
  if beginsWith "--" s then g.longMatches s else g.shortMatches s

def exactWithValue? (s : String) : Option (Met σ) :=
  match cutAtEquals s with
  | (_, none) => none
  | (name, given) => (g.named? name).map fun o => ⟨s, some o, name, given⟩

def classify (s : String) : Except Halt (Word σ) :=
  if !beginsWith "-" s || s = "-" then .ok (.plain s)
  else match g.named? s, g.exactWithValue? s with
  | some o, _ => .ok (.option ⟨s, some o, s, none⟩)
  | none, some m => .ok (.option m)
  | none, none =>
    match g.abbreviated s with
    | [m] => .ok (.option m)
    | [] =>
      if isNegativeNumber s || s.toList.contains ' ' then .ok (.plain s)
      else .ok (.option ⟨s, none, s, none⟩)
    | ms =>
      let names := Text.joinWith ", " (ms.map Met.spelled)
      g.misuse s!"ambiguous option: {s} could match {names}"

def classifyAll : List String → Except Halt (List (Word σ))
  | [] => .ok []
  | s :: rest =>
    if s = "--" then .ok (.dashes :: rest.map .plain)
    else do
      let w ← g.classify s
      let ws ← classifyAll rest
      .ok (w :: ws)

def refuse {α : Type} (o : Opt σ) (message : String) : Except Halt α := g.misuse (o.complaint message)

def ignored {α : Type} (o : Opt σ) (given : String) : Except Halt α :=
  g.refuse o s!"ignored explicit argument {Text.quote given}"

def takeFlag (o : Opt σ) (s : σ) : Except Halt σ :=
  match o.action with
  | .help => .error .help
  | .flag set => .ok (set s)
  | .value _ => g.refuse o "expected one argument"

def setValue (o : Opt σ) (set : Option String → σ → Except String σ) (v : String) (s : σ) :
    Except Halt σ :=
  match set (if v = "--" then none else some v) s with
  | .ok s => .ok s
  | .error message => g.refuse o message

/-- The options of a word of one dash whose first is `o`, with letters behind it: each letter names one
more, up to one that takes a value. A fault in the word comes before any of them is carried out. -/
def bundle (text : String) (o : Opt σ) (spelled : String) : List Char → Except Halt (List (Met σ))
  | [] => .ok [⟨text, some o, spelled, none⟩]
  | letters@(c :: rest) =>
    if o.takesValue then .ok [⟨text, some o, spelled, some (String.ofList letters)⟩]
    else
      let next := String.ofList ['-', c]
      match g.named? next with
      | none => g.ignored o (String.ofList letters)
      | some p => do
        let others ← bundle text p next rest
        .ok (⟨text, some o, spelled, none⟩ :: others)

def apart (m : Met σ) : Except Halt (List (Met σ)) :=
  match m.opt, m.given with
  | some o, some given =>
    if o.takesValue then .ok [m]
    else if beginsWith "--" m.spelled || given = "" then g.ignored o given
    else g.bundle m.text o m.spelled given.toList
  | _, _ => .ok [m]

def takeOption (m : Met σ) (after : List (Word σ)) (s : σ) : Except Halt (σ × List (Word σ)) :=
  match m.opt with
  | none => .ok (g.addExtras [m.text] s, after)
  | some o =>
    match o.action, m.given with
    | .value set, some v => do
      let s ← g.setValue o set v s
      .ok (s, after)
    | .value set, none =>
      match after with
      | .plain v :: after => do
        let s ← g.setValue o set v s
        .ok (s, after)
      | _ => g.refuse o "expected one argument"
    | _, _ => do
      let s ← g.takeFlag o s
      .ok (s, after)

def takeOptions (ms : List (Met σ)) (after : List (Word σ)) (s : σ) : Except Halt (σ × List (Word σ)) :=
  ms.foldlM (fun (s, after) m => g.takeOption m after s) (s, after)

def extent (e : Extent) (words : List (Word σ)) : Option (List String × List (Word σ)) :=
  let lead := words.takeWhile Word.isDashes
  match words.drop lead.length with
  | .plain v :: rest =>
    match e with
    | .one => some ([v], rest.dropWhile Word.isDashes)
    | .rest => some (words.map Word.text, [])
  | _ => none

structure State (σ : Type) where
  value : σ
  wanted : Option (Positional σ)
  words : List (Word σ)

def takePositional (st : State σ) : Except Halt (Option (State σ)) :=
  match st.wanted with
  | none => .ok none
  | some p =>
    match extent p.extent st.words with
    | none => .ok none
    | some (taken, rest) => do
      let value ← p.set taken st.value
      .ok (some ⟨value, none, rest⟩)

def skip (n : Nat) (st : State σ) : State σ :=
  { st with
    value := g.addExtras ((st.words.take n).map Word.text) st.value
    words := st.words.drop n }

def consume : Nat → State σ → Except Halt (State σ)
  | 0, st => .ok st
  | fuel + 1, st =>
    match st.words with
    | [] => .ok st
    | .option m :: after => do
      let (value, words) ← g.takeOptions (← g.apart m) after st.value
      consume fuel { st with value, words }
    | _ => do
      match ← takePositional st with
      | some st => consume fuel st
      | none => consume fuel (g.skip (st.words.takeWhile fun w => !w.isOption).length st)

def parse (init : σ) (line : List String) : Except Halt σ := do
  let words ← g.classifyAll line
  let st ← g.consume (line.length + 1) ⟨init, g.positional, words⟩
  match st.wanted with
  | some p => g.misuse s!"the following arguments are required: {p.name}"
  | none => .ok st.value

end Grammar

end Playpen.CommandLine
