import Playpen.Proofs.Output.Frames
import Playpen.Proofs.Output.Sections

namespace Playpen

namespace Stream

theorem clean_found {raw : Raw} {c : Char} (h : c ∈ clean raw) :
    c = '\ufffd' ∨ String.utf8EncodeChar c <:+: dropDebris (dropFrames raw.data) := by
  obtain ⟨o, ho, hc⟩ := List.mem_map.mp h
  cases o with
  | none => exact .inl hc.symm
  | some c' =>
    obtain rfl : c' = c := hc
    exact .inr (Utf8.infix_of_mem_scan _ ho)

theorem clean_plain {raw : Raw} {c : Char} (h : c ∈ clean raw) : isDebrisChar c = false := by
  rcases clean_found h with rfl | hpart
  · rfl
  · have hbytes : ∀ b ∈ String.utf8EncodeChar c, isDebris b = false := fun b hb => by
      simpa using (List.mem_filter.mp (hpart.subset hb)).2
    rw [Bool.eq_false_iff, ne_eq, isDebrisChar, Bool.or_eq_true, decide_eq_true_eq, decide_eq_true_eq]
    rintro (rfl | rfl)
    · exact Bool.false_ne_true (hbytes 0 (List.mem_singleton_self 0)).symm
    · exact Bool.false_ne_true (hbytes 0x1a (List.mem_singleton_self 0x1a)).symm

theorem clean_of_plain {s : List Char} (h : ∀ c ∈ s, isDebrisChar c = false) :
    clean (.text (s.map Char.toNat)) = s := by
  have hnul : '\x00' ∉ s := fun hmem => Bool.false_ne_true ((h _ hmem).symm.trans rfl)
  rw [clean_text hnul, List.filter_eq_self]
  intro c hc
  rw [h c hc, Bool.not_false]

def points (raw : Raw) : List Nat := (clean raw).map Char.toNat

/-- A code point of a character, which a surrogate is not, other than NUL and SUB. -/
def IsCleanPoint (n : Nat) : Prop := n ≠ 0 ∧ n ≠ 0x1a ∧ ¬(0xd800 ≤ n ∧ n ≤ 0xdfff) ∧ n ≤ 0x10ffff

theorem isCleanPoint_iff {n : Nat} : IsCleanPoint n ↔ n.isValidChar ∧ isDebrisChar (Char.ofNat n) = false := by
  by_cases h : n.isValidChar
  · have hn : (Char.ofNat n).toNat = n := Utf8.val_ofNat h
    rw [Bool.eq_false_iff, ne_eq, isDebrisChar_iff, hn]
    unfold IsCleanPoint Nat.isValidChar at *
    omega
  · unfold IsCleanPoint Nat.isValidChar at *
    omega

theorem points_clean {raw : Raw} {n : Nat} (h : n ∈ points raw) : IsCleanPoint n := by
  obtain ⟨c, hc, rfl⟩ := List.mem_map.mp h
  apply isCleanPoint_iff.mpr
  rw [Char.ofNat_toNat]
  -- No `Char` is a surrogate, whatever was decoded; that it is the right one is left to `points_found`.
  exact ⟨c.valid, clean_plain hc⟩

theorem points_found {raw : Raw} {n : Nat} (h : n ∈ points raw) :
    n = 0xfffd ∨ Utf8.encodePoint n <:+: dropDebris (dropFrames raw.data) := by
  obtain ⟨c, hc, rfl⟩ := List.mem_map.mp h
  rw [Utf8.encodePoint_toNat]
  exact (clean_found hc).imp_left (congrArg Char.toNat)

theorem points_of_clean {ns : List Nat} (h : ∀ n ∈ ns, IsCleanPoint n) : points (.text ns) = ns := by
  have hns : (ns.map Char.ofNat).map Char.toNat = ns := by
    rw [List.map_map]
    refine (List.map_congr_left fun n hn => ?_).trans (List.map_id ns)
    exact Utf8.val_ofNat (isCleanPoint_iff.mp (h n hn)).1
  have hplain : ∀ c ∈ ns.map Char.ofNat, isDebrisChar c = false :=
    List.forall_mem_map.mpr fun n hn => (isCleanPoint_iff.mp (h n hn)).2
  conv_lhs => rw [← hns]
  rw [points, clean_of_plain hplain, hns]

/-- Cleaning is a projection onto the clean texts: what remains of any stream is one, read from its bytes or put
in place of malformed ones, and of all texts, those with lone surrogates among them, just the clean ones are left
as they are. -/
theorem points_project (raw : Raw) :
    (∀ n ∈ points raw, IsCleanPoint n ∧
      (n = 0xfffd ∨ Utf8.encodePoint n <:+: dropDebris (dropFrames raw.data))) ∧
      points (.text (points raw)) = points raw ∧
      ∀ ns, points (.text ns) = ns ↔ ∀ n ∈ ns, IsCleanPoint n := by
  refine ⟨fun n hn => ⟨points_clean hn, points_found hn⟩, points_of_clean fun n hn => points_clean hn,
    fun ns => ?_⟩
  constructor
  · intro h n hn
    rw [← h] at hn
    exact points_clean hn
  · exact points_of_clean

example : points (.text [0xd800, 0x1a, 0x41]) = [0xfffd, 0xfffd, 0xfffd, 0x41] := by decide +kernel

end Stream

namespace Sanitizer

theorem dropReturn_eq_self {line : List Char} (h : line.getLast? ≠ some '\r') : dropReturn line = line := by
  unfold dropReturn
  split
  · rename_i hr
    exact absurd hr h
  · rfl

theorem dropReturn_concat (line : List Char) : dropReturn (line ++ ['\r']) = line := by
  rw [dropReturn, List.getLast?_concat]
  exact List.dropLast_concat

theorem dropReturn_cases (line : List Char) : line = dropReturn line ∨ line = dropReturn line ++ ['\r'] := by
  by_cases h : line.getLast? = some '\r'
  · obtain ⟨l, rfl⟩ := List.getLast?_eq_some_iff.mp h
    rw [dropReturn_concat]
    exact .inr rfl
  · exact .inl (dropReturn_eq_self h).symm

theorem prefix_dropReturn (line : List Char) : dropReturn line <+: line := by
  rcases dropReturn_cases line with h | h
  · exact h ▸ List.prefix_refl _
  · exact ⟨_, h.symm⟩

theorem dropReturn_eq_self_iff {line : List Char} : dropReturn line = line ↔ line.getLast? ≠ some '\r' := by
  refine ⟨fun h hr => ?_, dropReturn_eq_self⟩
  obtain ⟨l, rfl⟩ := List.getLast?_eq_some_iff.mp hr
  rw [dropReturn_concat] at h
  exact absurd (congrArg List.length h) (by simp)

structure Kept (m : Markers) (sections : Bool) (line : List Char) : Prop where
  usable : IsUsable m line
  unopened : ¬IsOpening m sections line
  plain : ∀ c ∈ line, c ≠ '\n' ∧ Stream.isDebrisChar c = false

variable {m : Markers} {sections : Bool} {line : List Char}

theorem IsUsable.bare_ne_nil (h : IsUsable m line) : bare line ≠ [] :=
  List.ne_nil_of_length_pos (Nat.lt_of_lt_of_le Nat.zero_lt_two h.1)

theorem Kept.of_bare {other : List Char} (h : Kept m sections line) (hbare : bare other = bare line)
    (hsub : other ⊆ line) : Kept m sections other := by
  have husable : IsUsable m other ↔ IsUsable m line := by simp only [IsUsable, Carries, hbare]
  have hopening : IsOpening m sections other ↔ IsOpening m sections line := by
    simp only [IsOpening, Carries, hbare]
  exact ⟨husable.mpr h.usable, mt hopening.mp h.unopened, fun c hc => h.plain c (hsub hc)⟩

theorem Kept.ne_nil (h : Kept m sections line) : line ≠ [] := by
  rintro rfl
  exact h.usable.bare_ne_nil rfl

theorem IsUsable.isBlank_eq {c : Char} (h : IsUsable m line) (hc : c ∈ bare line) :
    Text.isBlank c = Text.isEdgeBlank c := by
  have hcontrol := h.2.2 c hc
  have hsep : Text.isSeparator c = false := by
    simp only [Text.isSeparator, Bool.and_eq_false_iff, decide_eq_false_iff_not]
    omega
  rw [Text.isEdgeBlank, hsep, Bool.not_false, Bool.and_true]

theorem IsUsable.head (h : IsUsable m line) : ∀ c ∈ (bare line).head?, Text.isBlank c = false := by
  intro c hc
  rw [h.isBlank_eq (List.mem_of_mem_head? hc)]
  rw [← edge_eq] at hc
  exact Text.head?_trimBy hc

theorem IsUsable.last (h : IsUsable m line) : ∀ c ∈ (bare line).getLast?, Text.isBlank c = false := by
  intro c hc
  rw [h.isBlank_eq (List.mem_of_mem_getLast? hc)]
  rw [← edge_eq] at hc
  exact Text.getLast?_trimBy hc

theorem bare_parts (line : List Char) :
    ∃ a b, line = a ++ bare line ++ b ∧ (∀ c ∈ a, Text.isEdgeBlank c = true) ∧
      ∀ c ∈ b, Text.isEdgeBlank c = true :=
  edge_eq line ▸ Text.trimBy_parts Text.isEdgeBlank line

theorem bare_append {a b : List Char} (line : List Char) (ha : ∀ c ∈ a, Text.isEdgeBlank c = true)
    (hb : ∀ c ∈ b, Text.isEdgeBlank c = true) : bare (a ++ bare line ++ b) = bare line := by
  rw [← edge_eq, ← edge_eq]
  exact Text.trimBy_append ha hb (fun _ => Text.head?_trimBy) (fun _ => Text.getLast?_trimBy)

theorem bare_dropReturn (line : List Char) : bare (dropReturn line) = bare line := by
  rcases dropReturn_cases line with h | h
  · rw [← h]
  · obtain ⟨a, b, hparts, ha, hb⟩ := bare_parts (dropReturn line)
    have hreturn : ∀ c ∈ b ++ ['\r'], Text.isEdgeBlank c = true := by
      intro c hc
      rcases List.mem_append.mp hc with hc | hc
      · exact hb c hc
      · rw [List.mem_singleton.mp hc]
        rfl
    have hline : line = a ++ bare (dropReturn line) ++ (b ++ ['\r']) := by
      rw [← List.append_assoc, ← hparts, ← h]
    conv_rhs => rw [hline, bare_append _ ha hreturn]

theorem isBlank_of_isEdgeBlank {c : Char} (h : Text.isEdgeBlank c = true) : Text.isBlank c = true :=
  (Bool.and_eq_true_iff.mp h).1

theorem IsUsable.bare_dropWhile (h : IsUsable m line) : bare (line.dropWhile Text.isBlank) = bare line := by
  obtain ⟨a, b, hparts, ha, hb⟩ := bare_parts line
  have hkeep : (bare line ++ b).dropWhile Text.isBlank = bare line ++ b := by
    obtain ⟨c, t, ht⟩ := List.exists_cons_of_ne_nil h.bare_ne_nil
    have hc : Text.isBlank c = false := h.head c (by rw [ht]; rfl)
    rw [ht, List.cons_append, List.dropWhile_cons_of_neg (Bool.eq_false_iff.mp hc)]
  have hdrop : line.dropWhile Text.isBlank = [] ++ bare line ++ b := by
    conv_lhs => rw [hparts, List.append_assoc,
      List.dropWhile_append_of_pos fun c hc => isBlank_of_isEdgeBlank (ha c hc), hkeep]
    rfl
  rw [hdrop, bare_append line (fun c hc => absurd hc List.not_mem_nil) hb]

theorem IsUsable.bare_rdropWhile (h : IsUsable m line) : bare (line.rdropWhile Text.isBlank) = bare line := by
  obtain ⟨a, b, hparts, ha, hb⟩ := bare_parts line
  have hkeep : (a ++ bare line).rdropWhile Text.isBlank = a ++ bare line := by
    rw [List.rdropWhile_eq_self_iff]
    intro hne hblank
    have hlast : (a ++ bare line).getLast hne ∈ (bare line).getLast? := by
      rw [← List.getLast?_append_of_ne_nil a h.bare_ne_nil]
      exact List.getLast?_eq_some_getLast hne
    exact Bool.eq_false_iff.mp (h.last _ hlast) hblank
  have hdrop : line.rdropWhile Text.isBlank = a ++ bare line ++ [] := by
    conv_lhs => rw [hparts, Text.rdropWhile_append_of_pos fun c hc => isBlank_of_isEdgeBlank (hb c hc), hkeep]
    rw [List.append_nil]
  rw [hdrop, bare_append line ha fun c hc => absurd hc List.not_mem_nil]

theorem Kept.dropReturn (h : Kept m sections line) : Kept m sections (dropReturn line) :=
  h.of_bare (bare_dropReturn line) (prefix_dropReturn line).subset

theorem Kept.dropWhile (h : Kept m sections line) : Kept m sections (line.dropWhile Text.isBlank) :=
  h.of_bare h.usable.bare_dropWhile (List.dropWhile_subset _)

theorem Kept.rdropWhile (h : Kept m sections line) : Kept m sections (line.rdropWhile Text.isBlank) :=
  h.of_bare h.usable.bare_rdropWhile (List.rdropWhile_prefix _ _).subset

theorem mem_sift {inside : Bool} {ls : List (List Char)} (hinside : inside = true → sections = true)
    (h : line ∈ (sift m sections inside ls).1) : line ∈ ls ∧ ¬IsOpening m sections line ∧ IsUsable m line := by
  induction ls generalizing inside with
  | nil => exact absurd h List.not_mem_nil
  | cons first ls ih =>
    have hafter : decide (IsOpening m sections first ∨ inside = true ∧ ¬IsClosing m sections first) = true →
        sections = true := by
      intro hflag
      rcases of_decide_eq_true hflag with hopening | hcontinues
      · exact hopening.1
      · exact hinside hcontinues.1
    rw [sift_cons hinside] at h
    have hrest : line ∈ (sift m sections
        (decide (IsOpening m sections first ∨ inside = true ∧ ¬IsClosing m sections first)) ls).1 →
        line ∈ first :: ls ∧ ¬IsOpening m sections line ∧ IsUsable m line :=
      fun hmem => (ih hafter hmem).imp_left (List.mem_cons_of_mem first)
    dsimp only at h
    split at h
    · rename_i hfirst
      rcases List.mem_cons.mp h with rfl | hmem
      · exact ⟨List.mem_cons_self, hfirst.2.1, hfirst.2.2.2⟩
      · exact hrest hmem
    · exact hrest h

theorem sift_kept {ls : List (List Char)} (h : ∀ line ∈ ls, Kept m sections line) :
    sift m sections false ls = (ls, []) := by
  induction ls with
  | nil => rfl
  | cons line ls ih =>
    have hline := h line List.mem_cons_self
    have hrest := ih fun l hl => h l (List.mem_cons_of_mem line hl)
    rw [sift_cons (fun hinside => absurd hinside Bool.false_ne_true)]
    simp [hline.unopened, hline.usable, hline.usable.bare_ne_nil, hrest]

theorem mem_lines {raw : Raw} (h : line ∈ lines raw) : ∀ c ∈ line, c ≠ '\n' ∧ Stream.isDebrisChar c = false := by
  obtain ⟨piece, hpiece, rfl⟩ := List.mem_map.mp h
  obtain ⟨hbreak, hsub⟩ := Text.mem_split hpiece
  intro c hc
  have hmem := (prefix_dropReturn piece).subset hc
  exact ⟨fun heq => hbreak (heq ▸ hmem), Stream.clean_plain (hsub hmem)⟩

theorem lines_join {ls : List (List Char)} (hne : ls ≠ [])
    (h : ∀ line ∈ ls, ∀ c ∈ line, c ≠ '\n' ∧ Stream.isDebrisChar c = false) :
    lines (.text ((Text.join '\n' ls).map Char.toNat)) = ls.map dropReturn := by
  have hplain : ∀ c ∈ Text.join '\n' ls, Stream.isDebrisChar c = false := by
    intro c hc
    rcases Text.mem_join hc with rfl | ⟨line, hline, hc⟩
    · rfl
    · exact (h line hline c hc).2
  rw [lines, Stream.clean_of_plain hplain, Text.split_join hne fun line hline hbreak => (h line hline _ hbreak).1 rfl]

theorem exists_join {ls : List (List Char)} (hne : ls ≠ []) (h : ∀ line ∈ ls, Kept m sections line) :
    ∃ ls', ls' ≠ [] ∧ (∀ line ∈ ls', Kept m sections line) ∧ assemble ls = Text.join '\n' ls' := by
  obtain ⟨first, rest, rfl⟩ := List.exists_cons_of_ne_nil hne
  have hfirst := (h first List.mem_cons_self).dropWhile
  let ls₁ := first.dropWhile Text.isBlank :: rest
  have h₁ : ∀ line ∈ ls₁, Kept m sections line := by
    intro line hline
    rcases List.mem_cons.mp hline with rfl | hline
    · exact hfirst
    · exact h line (List.mem_cons_of_mem first hline)
  have hsplit : ls₁.dropLast ++ [ls₁.getLast (List.cons_ne_nil _ rest)] = ls₁ := List.dropLast_concat_getLast _
  have hlast := (h₁ _ (List.getLast_mem (List.cons_ne_nil _ rest))).rdropWhile
  refine ⟨ls₁.dropLast ++ [(ls₁.getLast (List.cons_ne_nil _ rest)).rdropWhile Text.isBlank], by simp, ?_, ?_⟩
  · intro line hline
    rcases List.mem_append.mp hline with hline | hline
    · exact h₁ line (List.mem_of_mem_dropLast hline)
    · rw [List.mem_singleton.mp hline]
      exact hlast
  · rw [assemble, Text.trimBy_eq, Text.dropWhile_join rest hfirst.ne_nil, ← Text.rdropWhile_join _ hlast.ne_nil,
      hsplit]

theorem assemble_dropReturn {ls : List (List Char)} (h : ∀ line ∈ ls, Kept m sections line)
    (hhead : ∀ c ∈ (Text.join '\n' ls).head?, Text.isBlank c = false)
    (hlast : ∀ c ∈ (Text.join '\n' ls).getLast?, Text.isBlank c = false) :
    assemble (ls.map dropReturn) = Text.join '\n' (ls.map dropReturn) := by
  apply Text.trimBy_eq_self
  · cases ls with
    | nil => simp [Text.join]
    | cons line ls =>
      have hline := h line List.mem_cons_self
      intro c hc
      rw [List.map_cons, Text.head?_join _ hline.dropReturn.ne_nil] at hc
      apply hhead
      obtain ⟨t, ht⟩ := prefix_dropReturn line
      rw [Text.head?_join ls hline.ne_nil, ← ht, List.head?_append_of_ne_nil _ hline.dropReturn.ne_nil]
      exact hc
  · rcases List.eq_nil_or_concat ls with rfl | ⟨init, line, rfl⟩
    · simp [Text.join]
    · rw [List.concat_eq_append] at *
      have hline := h line (List.mem_append_right init (List.mem_singleton_self line))
      rw [Text.getLast?_join init hline.ne_nil] at hlast
      have hself : dropReturn line = line := by
        apply dropReturn_eq_self
        intro hr
        exact absurd (hlast '\r' hr) (by decide)
      rw [List.map_append, List.map_singleton, hself, Text.getLast?_join _ hline.ne_nil]
      exact hlast

theorem program_eq (m : Markers) (sections : Bool) (raw : Raw) :
    (sanitize m sections raw).program =
      if assemble (sift m sections false (lines raw)).1 = [] then noOutput
      else assemble (sift m sections false (lines raw)).1 := by
  simp only [sanitize, List.isEmpty_iff]

theorem plain_noOutput : ∀ c ∈ noOutput, c ≠ '\n' ∧ Stream.isDebrisChar c = false := by
  have hall : noOutput.all (fun c => c != '\n' && !Stream.isDebrisChar c) = true := by decide +kernel
  simpa using hall

theorem sanitize_noOutput (m : Markers) (sections : Bool) :
    (sanitize m sections (.text (noOutput.map Char.toNat))).program = noOutput := by
  have hlines : lines (.text (noOutput.map Char.toNat)) = [noOutput] := by
    refine (lines_join (List.cons_ne_nil noOutput []) ?_).trans (by decide +kernel)
    intro line hline
    rw [List.mem_singleton.mp hline]
    exact plain_noOutput
  have hbare : assemble [noOutput] = noOutput := by decide +kernel
  have hsift : (sift m sections false [noOutput]).1 = [] ∨ (sift m sections false [noOutput]).1 = [noOutput] := by
    rw [sift_cons (fun hinside => absurd hinside Bool.false_ne_true)]
    dsimp only
    split
    · exact .inr rfl
    · exact .inl rfl
  rw [program_eq, hlines]
  rcases hsift with hnone | hsome
  · rw [hnone]
    rfl
  · rw [hsome, hbare, if_neg (by decide)]

theorem exists_lines (m : Markers) (sections : Bool) (raw : Raw) :
    ∃ ls, ls ≠ [] ∧ (∀ line ∈ ls, '\n' ∉ line) ∧
      (sanitize m sections raw).program = Text.join '\n' ls ∧
      (sanitize m sections (.text ((Text.join '\n' ls).map Char.toNat))).program =
        Text.join '\n' (ls.map dropReturn) := by
  by_cases hbody : assemble (sift m sections false (lines raw)).1 = []
  · refine ⟨[noOutput], List.cons_ne_nil _ _, ?_, ?_, ?_⟩
    · intro line hline
      rw [List.mem_singleton.mp hline]
      exact fun hbreak => (plain_noOutput _ hbreak).1 rfl
    · rw [program_eq, if_pos hbody]
      rfl
    · exact (sanitize_noOutput m sections).trans (by decide +kernel)
  · have hkept : ∀ line ∈ (sift m sections false (lines raw)).1, Kept m sections line := by
      intro line hline
      obtain ⟨hmem, hopening, husable⟩ := mem_sift (fun hinside => absurd hinside Bool.false_ne_true) hline
      exact ⟨husable, hopening, mem_lines hmem⟩
    have hsome : (sift m sections false (lines raw)).1 ≠ [] := fun hnil => hbody (by rw [hnil]; rfl)
    obtain ⟨ls, hne, hls, hjoin⟩ := exists_join hsome hkept
    refine ⟨ls, hne, fun line hline hbreak => ((hls line hline).plain _ hbreak).1 rfl, ?_, ?_⟩
    · rw [program_eq, if_neg hbody, hjoin]
    · have hagain := assemble_dropReturn hls (fun c hc => Text.head?_trimBy (hjoin ▸ hc))
        (fun c hc => Text.getLast?_trimBy (hjoin ▸ hc))
      have hdropped : ∀ line ∈ ls.map dropReturn, Kept m sections line := by
        intro line hline
        obtain ⟨line', hline', rfl⟩ := List.mem_map.mp hline
        exact (hls line' hline').dropReturn
      have hsome' : Text.join '\n' (ls.map dropReturn) ≠ [] := by
        obtain ⟨first, rest, rfl⟩ := List.exists_cons_of_ne_nil hne
        exact Text.join_ne_nil _ (hls first List.mem_cons_self).dropReturn.ne_nil
      rw [program_eq, lines_join hne fun line hline => (hls line hline).plain, sift_kept hdropped, hagain,
        if_neg hsome']

/-- Sanitizing a program's output again takes a carriage return from the end of each of its lines, so that
the output stays the same exactly when no line of it ends in one. -/
theorem sanitize_again (m : Markers) (sections : Bool) (raw : Raw) :
    let output := (sanitize m sections raw).program
    let again := (sanitize m sections (.text (output.map Char.toNat))).program
    again = Text.join '\n' ((Text.split '\n' output).map dropReturn) ∧
      (again = output ↔ ∀ line ∈ Text.split '\n' output, line.getLast? ≠ some '\r') := by
  intro output again
  obtain ⟨ls, hne, hbreak, houtput, hagain⟩ := exists_lines m sections raw
  have hsplit : Text.split '\n' output = ls := by
    rw [show output = Text.join '\n' ls from houtput, Text.split_join hne hbreak]
  have hagain' : again = Text.join '\n' (ls.map dropReturn) := by
    rw [← hagain, ← houtput]
  refine ⟨hsplit ▸ hagain', ?_⟩
  rw [hagain', hsplit, show output = Text.join '\n' ls from houtput]
  constructor
  · intro heq line hline
    have hdropped : ∀ line ∈ ls.map dropReturn, '\n' ∉ line := by
      intro line hline
      obtain ⟨line', hline', rfl⟩ := List.mem_map.mp hline
      exact fun hmem => hbreak line' hline' ((prefix_dropReturn line').subset hmem)
    have hmap := congrArg (Text.split '\n') heq
    rw [Text.split_join (by simpa using hne) hdropped, Text.split_join hne hbreak] at hmap
    conv_rhs at hmap => rw [← List.map_id ls]
    exact dropReturn_eq_self_iff.mp (List.map_inj_left.mp hmap line hline)
  · intro hreturns
    have hmap : ls.map dropReturn = ls.map id :=
      List.map_inj_left.mpr fun line hline => dropReturn_eq_self (hreturns line hline)
    rw [hmap, List.map_id]

theorem sanitize_not_idempotent :
    ¬∀ m sections raw, (sanitize m sections (.text ((sanitize m sections raw).program.map Char.toNat))).program =
      (sanitize m sections raw).program := by
  intro h
  have hreturn := h {} false (.ofString "abc\r\r\ndef")
  revert hreturn
  decide +kernel

end Sanitizer

end Playpen
