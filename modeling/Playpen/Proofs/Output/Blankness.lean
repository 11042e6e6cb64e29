import Playpen.Proofs.Output.Repetition

namespace Playpen

namespace Text

variable {p : Char → Bool} {sep : Char} {s : List Char}

theorem trimBy_eq_nil_iff : trimBy p s = [] ↔ ∀ c ∈ s, p c = true := by
  constructor
  · intro h
    obtain ⟨a, b, hparts, ha, hb⟩ := trimBy_parts p s
    rw [h, List.append_nil] at hparts
    rw [hparts]
    exact List.forall_mem_append.mpr ⟨ha, hb⟩
  · intro h
    rw [trimBy_eq, List.dropWhile_eq_nil_iff.mpr h, List.rdropWhile_nil]

theorem blank_of_split_trimBy (hsep : p sep = true) {before after : List (List Char)} {line : List Char}
    (hlines : split sep (trimBy p s) = before ++ line :: after) (hblank : ∀ c ∈ line, p c = true)
    (hne : trimBy p s ≠ []) : before ≠ [] ∧ after ≠ [] ∧ line ∈ split sep s := by
  have htext : trimBy p s = join sep (before ++ line :: after) := by rw [← hlines, join_split]
  have hmem : line ∈ split sep (trimBy p s) := by simp [hlines]
  have hshown {c : Char} (h : c ∈ (trimBy p s).head? ∨ c ∈ (trimBy p s).getLast?) : p c ≠ true := by
    rw [h.elim head?_trimBy getLast?_trimBy]
    exact Bool.false_ne_true
  -- A line of nothing but what is trimmed cannot stand at an end of the trimmed text.
  have hbefore : before ≠ [] := by
    rintro rfl
    obtain ⟨c, hfirst⟩ : ∃ c, (trimBy p s).head? = some c := ⟨_, List.head?_eq_some_head hne⟩
    refine hshown (.inl hfirst) ?_
    by_cases hafter : after = []
    · subst hafter
      rw [htext] at hfirst
      exact hblank c (List.mem_of_mem_head? hfirst)
    · rw [htext, List.nil_append, join_cons line hafter, List.append_cons,
        List.head?_append_of_ne_nil _ (List.append_ne_nil_of_right_ne_nil line (List.cons_ne_nil sep []))] at hfirst
      exact List.forall_mem_append.mpr ⟨hblank, List.forall_mem_singleton.mpr hsep⟩ c (List.mem_of_mem_head? hfirst)
  have hafter : after ≠ [] := by
    rintro rfl
    obtain ⟨c, hlast⟩ : ∃ c, (trimBy p s).getLast? = some c := ⟨_, List.getLast?_eq_some_getLast hne⟩
    refine hshown (.inr hlast) ?_
    rw [htext, join_append hbefore (List.cons_ne_nil line []),
      List.getLast?_append_of_ne_nil _ (List.cons_ne_nil sep _)] at hlast
    rcases List.mem_cons.mp (List.mem_of_mem_getLast? hlast) with rfl | hc
    · exact hsep
    · exact hblank c hc
  refine ⟨hbefore, hafter, ?_⟩
  obtain ⟨a, b, hparts, -, -⟩ := trimBy_parts p s
  rw [join_append hbefore (List.cons_ne_nil line after), join_cons line hafter] at htext
  have hwhole : s = (a ++ join sep before) ++ sep :: (line ++ sep :: (join sep after ++ b)) := by
    rw [hparts, htext]
    simp
  rw [hwhole, split_append, split_append, split_of_not_mem (mem_split hmem).1]
  simp

end Text

namespace Sanitizer

open Text (strip)

variable {m : Markers} {sections : Bool} {line : List Char} {ls : List (List Char)}

theorem strip_eq_nil_iff : strip line = [] ↔ ∀ c ∈ line, Text.isBlank c = true := by
  rw [← Text.trimBy_isBlank, Text.trimBy_eq_nil_iff]

theorem exists_separator (h : strip line = []) (hbare : bare line ≠ []) : ∃ c ∈ line, Text.isSeparator c = true := by
  by_contra hnone
  rw [← edge_eq] at hbare
  refine hbare (Text.trimBy_eq_nil_iff.mpr fun c hc => ?_)
  have hsep : Text.isSeparator c = false := Bool.eq_false_iff.mpr fun hs => hnone ⟨c, hc, hs⟩
  rw [Text.isEdgeBlank, strip_eq_nil_iff.mp h c hc, hsep]
  rfl

theorem IsUsable.strip_ne_nil (h : IsUsable m line) : strip line ≠ [] := by
  intro hblank
  obtain ⟨c, t, hbare⟩ := List.exists_cons_of_ne_nil h.bare_ne_nil
  obtain ⟨a, b, hparts, -⟩ := bare_parts line
  have hc := strip_eq_nil_iff.mp hblank c (by rw [hparts, hbare]; simp)
  rw [h.head c (by rw [hbare]; rfl)] at hc
  cases hc

theorem bare_of_mem_sift {inside : Bool} (hinside : inside = true → sections = true)
    (h : line ∈ (sift m sections inside ls).2) : line ∈ ls ∧ bare line ≠ [] := by
  induction ls generalizing inside with
  | nil => exact absurd h List.not_mem_nil
  | cons first ls ih =>
    have hafter : decide (IsOpening m sections first ∨ inside = true ∧ ¬IsClosing m sections first) = true →
        sections = true := by
      intro hflag
      rcases of_decide_eq_true hflag with hopening | hcontinues
      · exact hopening.1
      · exact hinside hcontinues.1
    rw [sift_cons hinside] at h
    dsimp only at h
    split at h
    · rename_i hfirst
      rcases List.mem_cons.mp h with rfl | hmem
      · exact ⟨List.mem_cons_self, hfirst.1⟩
      · exact (ih hafter hmem).imp_left (List.mem_cons_of_mem first)
    · exact (ih hafter h).imp_left (List.mem_cons_of_mem first)

theorem blank_of_assemble (hbreak : ∀ l ∈ ls, '\n' ∉ l) (hne : assemble ls ≠ []) {before after : List (List Char)}
    (hlines : Text.split '\n' (assemble ls) = before ++ line :: after) (hblank : strip line = []) :
    before ≠ [] ∧ after ≠ [] ∧ line ∈ ls := by
  obtain ⟨hbefore, hafter, hmem⟩ :=
    Text.blank_of_split_trimBy (p := Text.isBlank) rfl hlines (strip_eq_nil_iff.mp hblank) hne
  have hsome : ls ≠ [] := by
    rintro rfl
    exact hne rfl
  rw [Text.split_join hsome hbreak] at hmem
  exact ⟨hbefore, hafter, hmem⟩

theorem not_mem_of_lines {raw : Raw} (h : line ∈ lines raw) : '\n' ∉ line := fun hmem => (mem_lines h _ hmem).1 rfl

/-- No line of the program's output is blank. A blank line of the generated code stands between other lines
and holds a separator, which is why it was kept. -/
theorem sanitize_blank (m : Markers) (sections : Bool) (raw : Raw) :
    let s := sanitize m sections raw
    (∀ line ∈ Text.split '\n' s.program, strip line ≠ []) ∧
      (s.generated ≠ [] → ∀ before line after, Text.split '\n' s.generated = before ++ line :: after →
        strip line = [] → before ≠ [] ∧ after ≠ [] ∧ ∃ c ∈ line, Text.isSeparator c = true) := by
  intro s
  have hnone : false = true → sections = true := fun h => absurd h Bool.false_ne_true
  constructor
  · intro line hline hblank
    rw [show s.program = _ from program_eq m sections raw] at hline
    split at hline
    · have hshown : (Text.split '\n' noOutput).all (fun l => !(strip l).isEmpty) = true := by decide +kernel
      have hline := List.all_eq_true.mp hshown line hline
      rw [hblank] at hline
      cases hline
    · rename_i hbody
      obtain ⟨before, after, hlines⟩ := List.append_of_mem hline
      obtain ⟨-, -, hmem⟩ := blank_of_assemble (fun l hl => not_mem_of_lines (mem_sift hnone hl).1) hbody hlines hblank
      exact (mem_sift hnone hmem).2.2.strip_ne_nil hblank
  · intro hne before line after hlines hblank
    obtain ⟨hbefore, hafter, hmem⟩ :=
      blank_of_assemble (fun l hl => not_mem_of_lines (bare_of_mem_sift hnone hl).1) hne hlines hblank
    exact ⟨hbefore, hafter, exists_separator hblank (bare_of_mem_sift hnone hmem).2⟩

theorem generated_blank :
    ¬∀ m sections raw, (∀ line ∈ Text.split '\n' (sanitize m sections raw).program, strip line ≠ []) ∧
      ((sanitize m sections raw).generated ≠ [] →
        ∀ line ∈ Text.split '\n' (sanitize m sections raw).generated, strip line ≠ []) := by
  intro h
  have hline := (h {} true (.ofString "=== Generated Code ===\nfirst\n\x1c\nlast")).2 (by decide +kernel) ['\x1c']
    (by decide +kernel)
  exact hline (by decide +kernel)

end Sanitizer

end Playpen
