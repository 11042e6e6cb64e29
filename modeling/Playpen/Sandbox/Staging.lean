import Playpen.Archive.Basic
import Playpen.Sandbox.Settings
import Playpen.Text.Codec
import Playpen.Text.Units

namespace Playpen.Staging

open Utf8 (Bytes)

variable {τ : Type} [Seconds τ]

def surrogateDetail (run : Nat × Nat × Nat) : String :=
  Text.Codec.unwritable "utf-8" "surrogates not allowed" run

def sourceBytes : Raw → Except (Failure τ) Bytes
  | .absent => .error (.other .type none)
  | .bytes data => .ok data
  | .text points =>
    match Text.Codec.run? Text.Units.isHalf 0 points with
    | some found => .error (.workspace ("source is not valid UTF-8: " ++ surrogateDetail found))
    | none => .ok (points.flatMap Utf8.encodePoint)

def withNewline (data : Bytes) : Bytes := if data.getLast? = some 10 then data else data ++ [10]

def archive (filename : Value) (data : Bytes) (wall : τ) : Except (Failure τ) Bytes :=
  match Seconds.truncate wall with
  | .error .nan => do
    let name ← filename.display.mapError Misuse.failure
    .error (.workspace s!"could not archive {name}: cannot convert float NaN to integer")
  | .error .infinite => .error (.other .overflow none)
  | .ok mtime =>
    match filename with
    | .text name =>
      let file : Archive := ⟨name, 0o644, mtime, data⟩
      if file.isWritable then .ok file.encode
      else .error (.workspace s!"could not archive {name}: overflow in number field")
    | _ => .error (.other .member none)

end Playpen.Staging
