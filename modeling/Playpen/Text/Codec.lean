import Playpen.Text.Quoted

namespace Playpen.Text.Codec

def part (one many : String) (place length : Nat) : String :=
  if length = 1 then s!"{one} in position {place}"
  else s!"{many} in position {place}-{place + length - 1}"

def escapePoint (n : Nat) : String :=
  if n < 0x100 then "\\x" ++ hexText 2 n
  else if n < 0x10000 then "\\u" ++ hexText 4 n
  else "\\U" ++ hexText 8 n

def run? {α : Type} (p : α → Bool) : Nat → List α → Option (α × Nat × Nat)
  | _, [] => none
  | place, a :: rest =>
    if p a then some (a, place, (rest.takeWhile p).length + 1) else run? p (place + 1) rest

def unwritable (codec reason : String) : Nat × Nat × Nat → String
  | (n, place, length) =>
    s!"'{codec}' codec can't encode " ++
      part s!"character '{escapePoint n}'" "characters" place length ++ ": " ++ reason

def malformedText : Utf8.Malformed → String
  | .start => "invalid start byte"
  | .continuation => "invalid continuation byte"
  | .ending => "unexpected end of data"

def unreadable (data : Utf8.Bytes) (flaw : Utf8.Flaw) : String :=
  let byte := "0x" ++ hexText 2 (data.getD flaw.place 0).toNat
  "'utf-8' codec can't decode " ++ part s!"byte {byte}" "bytes" flaw.place flaw.length ++ ": " ++
    malformedText flaw.reason

end Playpen.Text.Codec
