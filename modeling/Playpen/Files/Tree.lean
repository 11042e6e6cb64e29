import Playpen.Act
import Playpen.Files.Path
import Playpen.Text.Quoted
/-!
The files and folders that are known, by their places below the root, and reading and writing them. A
file is text when its bytes are UTF-8; every kind of line end then reads as a line feed.
-/
namespace Playpen

structure Tree where
  home : Path := {}
  files : List (List String × List UInt8) := []
  folders : List (List String) := []

namespace Tree

inductive Trouble
  | missing
  | exists
  | notFolder
  | isFolder
  | nameTooLong
  | nullInName
deriving DecidableEq, Repr

def Trouble.text : Trouble → String
  | missing => "[Errno 2] No such file or directory"
  | .exists => "[Errno 17] File exists"
  | notFolder => "[Errno 20] Not a directory"
  | isFolder => "[Errno 21] Is a directory"
  | nameTooLong => "[Errno 36] File name too long"
  | nullInName => "embedded null byte"

def Trouble.describe (t : Trouble) (p : Path) : String :=
  t.text ++ ": " ++ String.ofList (Text.quoted p.text.toList)

inductive Entry
  | file (data : List UInt8)
  | folder

def isPrefixOfSome (place : List String) (places : List (List String)) : Bool :=
  places.any fun p => place.isPrefixOf p

def entry? (t : Tree) (place : List String) : Option Entry :=
  match t.files.lookup place with
  | some data => some (.file data)
  | none =>
    if place = [] || isPrefixOfSome place t.folders || isPrefixOfSome place (t.files.map (·.1)) then
      some .folder
    else none

def longestName : Nat := 255

def follow (t : Tree) (place : List String) : List String → Except Trouble (List String)
  | [] => .ok place
  | name :: rest =>
    match t.entry? place with
    | none => .error .missing
    | some (.file _) => .error .notFolder
    | some .folder =>
      if longestName < name.utf8ByteSize then .error .nameTooLong
      else if name = ".." then follow t place.dropLast rest
      else follow t (place ++ [name]) rest

def longestPath : Nat := 4095

def checkText (p : Path) : Except Trouble Unit :=
  if p.text.toList.contains '\x00' then .error .nullInName
  else if longestPath < p.text.utf8ByteSize then .error .nameTooLong
  else .ok ()

def place (t : Tree) (p : Path) : Except Trouble (List String) := do
  checkText p
  follow t (if p.anchor = "" then t.home.names else []) p.names

def find (t : Tree) (p : Path) : Except Trouble Entry := do
  let place ← t.place p
  match t.entry? place with
  | some e => .ok e
  | none => .error .missing

def has (t : Tree) (p : Path) : Except Trouble Bool :=
  match t.find p with
  | .ok _ => .ok true
  | .error .nameTooLong => .error .nameTooLong
  | .error _ => .ok false

def read (t : Tree) (p : Path) : Except Trouble (List UInt8) := do
  match ← t.find p with
  | .file data => .ok data
  | .folder => .error .isFolder

def put (place : List String) (data : List UInt8) :
    List (List String × List UInt8) → List (List String × List UInt8)
  | [] => [(place, data)]
  | (p, d) :: rest => if p = place then (p, data) :: rest else (p, d) :: put place data rest

def write (p : Path) (data : List UInt8) : Act Tree Trouble Unit := do
  let t ← get
  let place ← Act.lift (t.place p)
  match t.entry? place with
  | some .folder => throw .isFolder
  | _ => set { t with files := put place data t.files }

def makeFolder (p : Path) : Act Tree Trouble Unit := do
  let t ← get
  let place ← Act.lift (t.place p)
  match t.entry? place with
  | some .folder => pure ()
  | some (.file _) => throw .exists
  | none => set { t with folders := t.folders ++ [place] }

def makeFolders (p : Path) : Act Tree Trouble Unit := do
  Act.lift (checkText p)
  (List.range (p.names.length + 1)).forM fun n => makeFolder { p with names := p.names.take n }

def install (t : Tree) (p : Path) (data : List UInt8) : Tree :=
  ((do makeFolders p.parent; write p data : Act Tree Trouble Unit) t).2

end Tree

def Text.unifyLineEnds : List Char → List Char
  | '\r' :: '\n' :: rest => '\n' :: unifyLineEnds rest
  | '\r' :: rest => '\n' :: unifyLineEnds rest
  | c :: rest => c :: unifyLineEnds rest
  | [] => []

def Tree.textOf? (data : List UInt8) : Option (List Char) :=
  (Utf8.decode? data).map Text.unifyLineEnds

end Playpen
