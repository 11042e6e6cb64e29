import Mathlib.Data.List.Infix
import Playpen.Output.Sanitizer
import Playpen.Proofs.Text.Lines

namespace Playpen

namespace Sanitizer

open Text (IsEdgeWhite strip)

def withoutReturn (line : List Char) : List Char := if line.getLast? = some '\r' then line.dropLast else line

def bare (line : List Char) : List Char := (line.dropWhile (IsEdgeWhite ·)).rdropWhile (IsEdgeWhite ·)

def Carries (marker line : List Char) : Prop := marker ≠ [] ∧ marker <:+: bare line

def IsUsable (m : Markers) (line : List Char) : Prop :=
  2 ≤ (bare line).length ∧ (∀ marker ∈ m.noise, ¬Carries marker line) ∧
    ∀ c ∈ bare line, ¬(1 ≤ c.toNat ∧ c.toNat ≤ 0x1f)

variable (m : Markers) (sections : Bool)

def IsOpening (line : List Char) : Prop :=
  sections = true ∧ bare line ≠ [] ∧ Carries m.opening line

def IsClosing (line : List Char) : Prop :=
  sections = true ∧ bare line ≠ [] ∧ ¬IsOpening m sections line ∧ Carries m.closing line

def Inside (ls : List (List Char)) (i : Nat) : Prop :=
  ∃ j < i, (∃ line ∈ ls[j]?, IsOpening m sections line) ∧
    ∀ k < i, j < k → ∀ line ∈ ls[k]?, ¬IsOpening m sections line ∧ ¬IsClosing m sections line

def IsGenerated (ls : List (List Char)) (i : Nat) (line : List Char) : Prop :=
  bare line ≠ [] ∧ Inside m sections ls i ∧ ¬IsOpening m sections line ∧ ¬IsClosing m sections line

def IsProgram (ls : List (List Char)) (i : Nat) (line : List Char) : Prop :=
  bare line ≠ [] ∧ ¬IsOpening m sections line ∧ ¬Inside m sections ls i ∧ IsUsable m line

instance (marker line : List Char) : Decidable (Carries marker line) :=
  inferInstanceAs (Decidable (_ ∧ _))

instance (line : List Char) : Decidable (IsUsable m line) :=
  inferInstanceAs (Decidable (_ ∧ _))

instance (line : List Char) : Decidable (IsOpening m sections line) :=
  inferInstanceAs (Decidable (_ ∧ _))

instance (line : List Char) : Decidable (IsClosing m sections line) :=
  inferInstanceAs (Decidable (_ ∧ _))

instance (ls : List (List Char)) (i : Nat) : Decidable (Inside m sections ls i) :=
  inferInstanceAs (Decidable (∃ j < i, _))

instance (ls : List (List Char)) (i : Nat) (line : List Char) : Decidable (IsGenerated m sections ls i line) :=
  inferInstanceAs (Decidable (_ ∧ _))

instance (ls : List (List Char)) (i : Nat) (line : List Char) : Decidable (IsProgram m sections ls i line) :=
  inferInstanceAs (Decidable (_ ∧ _))

def select (P : Nat → List Char → Prop) [∀ i line, Decidable (P i line)] (n : Nat) (ls : List (List Char)) :
    List (List Char) :=
  ((ls.zipIdx n).filter fun x => P x.2 x.1).map (·.1)

def byPosition (raw : Raw) : Sanitized :=
  let ls := ((Stream.clean raw).splitOn '\n').map withoutReturn
  let program := strip (['\n'].intercalate (select (IsProgram m sections ls) 0 ls))
  { program := if program = [] then "Program executed successfully (no output)".toList else program
    generated := strip (['\n'].intercalate (select (IsGenerated m sections ls) 0 ls))
    hasOutput := program ≠ [] }

theorem dropReturn_eq (line : List Char) : dropReturn line = withoutReturn line := by
  unfold dropReturn withoutReturn
  split
  · rename_i h
    rw [if_pos h]
  · rename_i h
    rw [if_neg h]

theorem edge_eq (line : List Char) : edge line = bare line := by
  rw [edge, Text.trimBy_eq, bare, funext Text.isEdgeBlank_eq]

theorem marks_iff (marker line : List Char) : marks marker (bare line) = true ↔ Carries marker line := by
  rw [marks, Bool.and_eq_true, Text.occursIn_iff, Bool.not_eq_true', List.isEmpty_eq_false_iff, Carries]

theorem isOutput_iff (line : List Char) : isOutput m (bare line) = true ↔ IsUsable m line := by
  simp only [isOutput, IsUsable, isControl, Bool.and_eq_true, Bool.not_eq_true', decide_eq_true_eq,
    List.any_eq_false, marks_iff, and_assoc, and_left_comm]

theorem opens_iff {line : List Char} (h : bare line ≠ []) :
    (sections && marks m.opening (bare line)) = true ↔ IsOpening m sections line := by
  rw [Bool.and_eq_true, marks_iff, IsOpening]
  exact ⟨fun ⟨hs, hc⟩ => ⟨hs, h, hc⟩, fun ⟨hs, _, hc⟩ => ⟨hs, hc⟩⟩

theorem inside_zero (ls : List (List Char)) : ¬Inside m sections ls 0 := by
  rintro ⟨j, hj, _⟩
  omega

theorem sections_of_inside {m : Markers} {sections : Bool} {ls : List (List Char)} {i : Nat}
    (h : Inside m sections ls i) : sections = true := by
  obtain ⟨_, _, ⟨_, _, hopening⟩, _⟩ := h
  exact hopening.1

theorem inside_succ {ls : List (List Char)} {i : Nat} {line : List Char}
    (h : ls[i]? = some line) :
    Inside m sections ls (i + 1) ↔
      IsOpening m sections line ∨ Inside m sections ls i ∧ ¬IsClosing m sections line := by
  constructor
  · rintro ⟨j, hj, hopening, hbetween⟩
    rcases Nat.lt_succ_iff_lt_or_eq.mp hj with hlt | rfl
    · exact .inr ⟨⟨j, hlt, hopening, fun k hk => hbetween k (by omega)⟩, (hbetween i (by omega) hlt line h).2⟩
    · obtain ⟨line', hline', hopens⟩ := hopening
      have heq : line' = line := by simpa [h] using hline'.symm
      exact .inl (heq ▸ hopens)
  · intro hcases
    by_cases hopens : IsOpening m sections line
    · exact ⟨i, by omega, ⟨line, h, hopens⟩, fun k hk hik => absurd hk (by omega)⟩
    · obtain ⟨⟨j, hj, hopening, hbetween⟩, hcloses⟩ := hcases.resolve_left hopens
      refine ⟨j, by omega, hopening, fun k hk hjk line' hline' => ?_⟩
      rcases Nat.lt_succ_iff_lt_or_eq.mp hk with hlt | rfl
      · exact hbetween k hlt hjk line' hline'
      · have heq : line' = line := by simpa [h] using hline'.symm
        exact heq ▸ ⟨hopens, hcloses⟩

theorem select_cons (P : Nat → List Char → Prop) [∀ i line, Decidable (P i line)] (n : Nat)
    (line : List Char) (rest : List (List Char)) :
    select P n (line :: rest) = if P n line then line :: select P (n + 1) rest else select P (n + 1) rest := by
  unfold select
  rw [List.zipIdx_cons, List.filter_cons]
  by_cases h : P n line <;> simp [h]

theorem sift_cons {m : Markers} {sections inside : Bool} (hinside : inside = true → sections = true)
    (line : List Char) (rest : List (List Char)) :
    sift m sections inside (line :: rest) =
      let after := sift m sections (IsOpening m sections line ∨ inside = true ∧ ¬IsClosing m sections line) rest
      (if bare line ≠ [] ∧ ¬IsOpening m sections line ∧ ¬inside = true ∧ IsUsable m line
        then line :: after.1 else after.1,
       if bare line ≠ [] ∧ inside = true ∧ ¬IsOpening m sections line ∧ ¬IsClosing m sections line
        then line :: after.2 else after.2) := by
  rw [sift]
  simp only [edge_eq]
  -- In the order in which the tests are made: a blank line, an opening, and then what is inside or not.
  by_cases hblank : bare line = []
  · have hopens : ¬IsOpening m sections line := fun h => h.2.1 hblank
    have hcloses : ¬IsClosing m sections line := fun h => h.2.1 hblank
    simp [hblank, hopens, hcloses]
  have hempty : (bare line).isEmpty = false := List.isEmpty_eq_false_iff.mpr hblank
  by_cases hopens : IsOpening m sections line
  · have hmarked := (opens_iff m sections hblank).mpr hopens
    simp [hempty, hmarked, hopens]
  have hunmarked : (sections && marks m.opening (bare line)) = false :=
    Bool.eq_false_iff.mpr fun h => hopens ((opens_iff m sections hblank).mp h)
  cases inside with
  | false =>
    by_cases husable : IsUsable m line
    · simp [hempty, hunmarked, (isOutput_iff m line).mpr husable, hblank, hopens, husable]
    · have hout : isOutput m (bare line) = false :=
        Bool.eq_false_iff.mpr fun h => husable ((isOutput_iff m line).mp h)
      simp [hempty, hunmarked, hout, hopens, husable]
  | true =>
    have hs : sections = true := hinside rfl
    subst hs
    by_cases hcloses : IsClosing m true line
    · have hmarked := (marks_iff m.closing line).mpr hcloses.2.2.2
      simp [hempty, hunmarked, hmarked, hopens, hcloses]
    · have hclosing : marks m.closing (bare line) = false :=
        Bool.eq_false_iff.mpr fun h => hcloses ⟨rfl, hblank, hopens, (marks_iff m.closing line).mp h⟩
      simp [hempty, hunmarked, hclosing, hblank, hopens, hcloses]

theorem sift_eq {ls pre rest : List (List Char)} (h : ls = pre ++ rest) :
    sift m sections (Inside m sections ls pre.length) rest =
      (select (IsProgram m sections ls) pre.length rest, select (IsGenerated m sections ls) pre.length rest) := by
  induction rest generalizing pre with
  | nil => rfl
  | cons line rest ih =>
    have hline : ls[pre.length]? = some line := by rw [h]; simp
    have hrest := ih (h.trans (List.append_cons pre line rest))
    rw [List.length_append, List.length_singleton] at hrest
    have hflag := inside_succ m sections hline
    rw [sift_cons (fun hd => sections_of_inside (of_decide_eq_true hd)), select_cons, select_cons]
    simp only [decide_eq_true_eq, ← hflag]
    rw [hrest]
    rfl

theorem assemble_eq (ls : List (List Char)) : assemble ls = strip (['\n'].intercalate ls) := by
  rw [assemble, Text.join_eq, Text.trimBy_isBlank]

/-- Sanitizing gives each line to the part that its position says. -/
theorem sanitize_eq_byPosition (raw : Raw) : sanitize m sections raw = byPosition m sections raw := by
  have hlines : lines raw = ((Stream.clean raw).splitOn '\n').map withoutReturn := by
    rw [lines, Text.split_eq, funext dropReturn_eq]
  have hstart : decide (Inside m sections (lines raw) 0) = false := decide_eq_false (inside_zero m sections _)
  have hsift := sift_eq m sections (List.nil_append (lines raw)).symm
  rw [List.length_nil, hstart] at hsift
  unfold sanitize byPosition
  rw [hsift, ← hlines]
  simp only [← assemble_eq]
  cases assemble (select (IsProgram m sections (lines raw)) 0 (lines raw)) <;> rfl

theorem sift_unasked (inside : Bool) (ls : List (List Char)) : (sift m false inside ls).2 = [] := by
  induction ls generalizing inside with
  | nil => rfl
  | cons line rest ih =>
    simp only [sift, Bool.false_and, Bool.false_eq_true, ↓reduceIte]
    split
    · exact ih inside
    · split <;> exact ih inside

theorem generated_unasked (raw : Raw) : (sanitize m false raw).generated = [] := by
  show assemble (sift m false false (lines raw)).2 = []
  rw [sift_unasked]
  rfl

theorem program_ne_nil (raw : Raw) : (sanitize m sections raw).program ≠ [] := by
  simp only [sanitize]
  split
  · exact nofun
  · rename_i h
    simpa using h

theorem trim_program {raw : Raw} (h : (sanitize m sections raw).hasOutput = true) :
    Text.trimBy Text.isBlank (sanitize m sections raw).program = (sanitize m sections raw).program := by
  simp only [sanitize, Bool.not_eq_true'] at h ⊢
  rw [if_neg (by simp [h])]
  exact Text.trimBy_eq_self (fun _ => Text.head?_trimBy) fun _ => Text.getLast?_trimBy

end Sanitizer

end Playpen
