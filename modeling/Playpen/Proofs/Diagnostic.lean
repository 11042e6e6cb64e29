import Playpen.Diagnostic
import Playpen.Proofs.Text.Lines

namespace Playpen.Diagnostic

open Text (strip)

def Speaks (line : List Char) : Prop :=
  ':' ∈ line ∧ ("error".toList <:+: line ∨ "Error".toList <:+: line)

def Decides (lines : List (List Char)) (line : List Char) : Prop :=
  ∃ before after, lines = before ++ line :: after ∧ Speaks line ∧ ∀ l ∈ before, ¬Speaks l

def Places (line : List Char) (place : Location) : Prop :=
  ∃ file number message, line = file ++ ':' :: (number ++ ':' :: message) ∧ ':' ∉ file ∧ ':' ∉ number ∧
    place = ⟨strip file, strip number, strip message⟩

theorem trim_eq (text : List Char) : trim text = strip text := Text.trimBy_isBlank text

theorem split_trim (text : List Char) : Text.split '\n' (trim text) = (strip text).splitOn '\n' := by
  rw [Text.split_eq, trim_eq]

theorem speaksOfError_iff (line : List Char) : speaksOfError line = true ↔ Speaks line := by
  rw [speaksOfError, Speaks, Bool.and_eq_true, Bool.or_eq_true, Text.occursIn_iff, Text.occursIn_iff,
    List.contains_iff_mem]

theorem find?_speaksOfError (lines : List (List Char)) (line : List Char) :
    lines.find? speaksOfError = some line ↔ Decides lines line := by
  rw [List.find?_eq_some_iff_append, Decides]
  constructor
  · rintro ⟨hspeaks, before, after, hlines, hbefore⟩
    refine ⟨before, after, hlines, (speaksOfError_iff line).mp hspeaks, ?_⟩
    intro l hl hs
    have hno := hbefore l hl
    rw [(speaksOfError_iff l).mpr hs] at hno
    cases hno
  · rintro ⟨before, after, hlines, hspeaks, hbefore⟩
    refine ⟨(speaksOfError_iff line).mpr hspeaks, before, after, hlines, ?_⟩
    intro l hl
    rw [Bool.not_eq_true', Bool.eq_false_iff]
    exact fun hs => hbefore l hl ((speaksOfError_iff l).mp hs)

theorem locationOf_eq_some_iff (line : List Char) (place : Location) :
    locationOf line = some place ↔ Places line place := by
  unfold locationOf
  constructor
  · intro h
    split at h
    · rename_i file number part parts hsplit
      have hwhole : line = file ++ ':' :: (number ++ ':' :: Text.join ':' (part :: parts)) := by
        rw [← Text.join_split ':' line, hsplit, Text.join_cons file (by simp), Text.join_cons number (by simp)]
      have hfile : ':' ∉ file := (Text.mem_split (l := file) (by rw [hsplit]; simp)).1
      have hnumber : ':' ∉ number := (Text.mem_split (l := number) (by rw [hsplit]; simp)).1
      obtain rfl := Option.some.inj h
      refine ⟨file, number, _, hwhole, hfile, hnumber, ?_⟩
      rw [trim_eq, trim_eq, trim_eq]
    · cases h
  · rintro ⟨file, number, message, rfl, hfile, hnumber, rfl⟩
    obtain ⟨part, parts, hparts⟩ := List.exists_cons_of_ne_nil (Text.split_ne_nil ':' message)
    have hsplit : Text.split ':' (file ++ ':' :: (number ++ ':' :: message)) = file :: number :: part :: parts := by
      rw [Text.split_append, Text.split_append, Text.split_of_not_mem hfile, Text.split_of_not_mem hnumber, hparts]
      rfl
    have hmessage : Text.join ':' (part :: parts) = message := by rw [← hparts, Text.join_split]
    simp only [hsplit, hmessage, trim_eq]

theorem exists_places_iff (line : List Char) : (∃ place, Places line place) ↔ 2 ≤ line.count ':' := by
  constructor
  · rintro ⟨place, file, number, message, rfl, -⟩
    simp only [List.count_append, List.count_cons_self]
    omega
  · intro h
    have hfirst : 0 < line.count ':' := by omega
    obtain ⟨file, rest, rfl, hfile⟩ := List.eq_append_cons_of_mem (List.count_pos_iff.mp hfirst)
    rw [List.count_append, List.count_cons_self, List.count_eq_zero_of_not_mem hfile] at h
    have hsecond : 0 < rest.count ':' := by omega
    obtain ⟨number, message, rfl, hnumber⟩ := List.eq_append_cons_of_mem (List.count_pos_iff.mp hsecond)
    exact ⟨_, file, number, message, rfl, hfile, hnumber, rfl⟩

theorem location_eq_some_iff (text : List Char) (place : Location) :
    (ofText text).location = some place ↔
      ∃ line, Decides ((strip text).splitOn '\n') line ∧ Places line place := by
  simp only [ofText, split_trim, Option.bind_eq_some_iff, find?_speaksOfError, locationOf_eq_some_iff]

theorem lookup_fields (d : Diagnostic) :
    let text (s : List Char) : Value := .text (String.ofList s)
    d.fields.lookup "raw_error" = some (text d.raw) ∧ d.fields.lookup "lines" = some (.list (d.lines.map text)) ∧
    d.fields.lookup "file" = d.location.map (fun place => text place.file) ∧
    d.fields.lookup "line" = d.location.map (fun place => text place.line) ∧
    d.fields.lookup "message" = d.location.map (fun place => text place.message) := by
  intro text
  rcases d with ⟨raw, lines, _ | place⟩
  all_goals exact ⟨rfl, rfl, rfl, rfl, rfl⟩

/-- A location is found exactly if the deciding line has two colons, and is what stands between them there.
What a diagnostic tells has the three parts of the location exactly if it was found. -/
theorem ofText_located (text : List Char) :
    let d := ofText text
    let lines := (strip text).splitOn '\n'
    let shown (s : List Char) : Value := .text (String.ofList s)
    d.raw = text ∧ d.lines = lines ∧
    (d.location.isSome = true ↔ ∃ line, Decides lines line ∧ 2 ≤ line.count ':') ∧
    (∀ place, d.location = some place ↔ ∃ line, Decides lines line ∧ Places line place) ∧
    d.fields.lookup "raw_error" = some (shown text) ∧ d.fields.lookup "lines" = some (.list (lines.map shown)) ∧
    d.fields.lookup "file" = d.location.map (fun place => shown place.file) ∧
    d.fields.lookup "line" = d.location.map (fun place => shown place.line) ∧
    d.fields.lookup "message" = d.location.map (fun place => shown place.message) := by
  intro d lines shown
  have hlines : d.lines = lines := split_trim text
  refine ⟨rfl, hlines, ?_, location_eq_some_iff text, ?_⟩
  · rw [Option.isSome_iff_exists]
    constructor
    · rintro ⟨place, h⟩
      obtain ⟨line, hdecides, hplaces⟩ := (location_eq_some_iff text place).mp h
      exact ⟨line, hdecides, (exists_places_iff line).mp ⟨place, hplaces⟩⟩
    · rintro ⟨line, hdecides, hcolons⟩
      obtain ⟨place, hplaces⟩ := (exists_places_iff line).mpr hcolons
      exact ⟨place, (location_eq_some_iff text place).mpr ⟨line, hdecides, hplaces⟩⟩
  · rw [← hlines]
    exact lookup_fields d

-- The second line has a place, but it is the first that decides.
example : (ofText "error: stop\na.c:1: error: no".toList).location = none := by decide

end Playpen.Diagnostic
