import Mathlib.Data.List.DropRight
import Playpen.Text.Blank
import Playpen.Text.Search

namespace Playpen.Text

def whiteSpace : List (Nat × Nat) :=
  [(0x9, 0xd), (0x1c, 0x20), (0x85, 0x85), (0xa0, 0xa0), (0x1680, 0x1680), (0x2000, 0x200a), (0x2028, 0x2029),
    (0x202f, 0x202f), (0x205f, 0x205f), (0x3000, 0x3000)]

def IsWhite (c : Char) : Prop := ∃ range ∈ whiteSpace, range.1 ≤ c.toNat ∧ c.toNat ≤ range.2

instance : DecidablePred IsWhite := fun _ => inferInstanceAs (Decidable (∃ range ∈ whiteSpace, _))

def strip (s : List Char) : List Char := (s.dropWhile (IsWhite ·)).rdropWhile (IsWhite ·)

def IsEdgeWhite (c : Char) : Prop := IsWhite c ∧ ¬(0x1c ≤ c.toNat ∧ c.toNat ≤ 0x1f)

instance : DecidablePred IsEdgeWhite := fun _ => inferInstanceAs (Decidable (_ ∧ _))

theorem isBlank_eq (c : Char) : isBlank c = decide (IsWhite c) := by
  rw [Bool.eq_iff_iff, decide_eq_true_eq]
  simp only [isBlank, IsWhite, whiteSpace, Bool.or_eq_true, Bool.and_eq_true, decide_eq_true_eq, beq_iff_eq,
    List.mem_cons, List.not_mem_nil, or_false, exists_eq_or_imp, exists_eq_left]
  omega

theorem isEdgeBlank_eq (c : Char) : isEdgeBlank c = decide (IsEdgeWhite c) := by
  rw [isEdgeBlank, isBlank_eq, isSeparator, ← Bool.decide_and, ← decide_not, ← Bool.decide_and]
  rfl

theorem occursIn_iff {part s : List Char} : occursIn part s = true ↔ part <:+: s := by
  induction s with
  | nil => simp [occursIn, List.isEmpty_iff]
  | cons c s ih =>
    rw [occursIn, Bool.or_eq_true, List.isPrefixOf_iff_prefix, ih, List.infix_cons_iff]

theorem split_eq (sep : Char) (s : List Char) : split sep s = s.splitOn sep := by
  induction s with
  | nil => rfl
  | cons c s ih =>
    unfold split
    rw [List.splitOn, List.splitOnP_cons_eq_if_modifyHead, ← List.splitOn, ← ih]
    by_cases hc : c = sep
    · simp [hc]
    · rw [if_neg hc, if_neg (by simpa using hc)]
      cases h : split sep s with
      | nil => exact absurd h (split_ne_nil sep s)
      | cons piece pieces => rfl

theorem join_eq (sep : Char) (ls : List (List Char)) : join sep ls = [sep].intercalate ls := by
  induction ls with
  | nil => rfl
  | cons l ls ih =>
    cases ls with
    | nil => simp [join]
    | cons l' ls => simp [join, ih, List.intercalate_cons_cons]

theorem trimBy_eq (p : Char → Bool) (s : List Char) : trimBy p s = (s.dropWhile p).rdropWhile p := rfl

theorem trimBy_isBlank (s : List Char) : trimBy isBlank s = strip s := by
  rw [trimBy_eq, strip, funext isBlank_eq]

theorem split_join {sep : Char} {ls : List (List Char)} (hne : ls ≠ []) (h : ∀ l ∈ ls, sep ∉ l) :
    split sep (join sep ls) = ls := by
  rw [split_eq, join_eq, List.splitOn_intercalate sep h hne]

theorem mem_split {sep : Char} {s l : List Char} (h : l ∈ split sep s) : sep ∉ l ∧ l ⊆ s := by
  induction s generalizing l with
  | nil =>
    obtain rfl := List.mem_singleton.mp h
    exact ⟨List.not_mem_nil, List.nil_subset _⟩
  | cons c s ih =>
    unfold split at h
    split at h
    · rcases List.mem_cons.mp h with rfl | h
      · exact ⟨List.not_mem_nil, List.nil_subset _⟩
      · exact ⟨(ih h).1, List.subset_cons_of_subset c (ih h).2⟩
    · rename_i hc
      split at h
      · rename_i hnil
        exact absurd hnil (split_ne_nil sep s)
      · rename_i piece pieces hpieces
        rcases List.mem_cons.mp h with rfl | h
        · have hpiece := ih (hpieces ▸ List.mem_cons_self)
          refine ⟨fun hsep => ?_, List.cons_subset_cons c hpiece.2⟩
          rcases List.mem_cons.mp hsep with rfl | hsep
          · exact hc rfl
          · exact hpiece.1 hsep
        · have hrest := ih (hpieces ▸ List.mem_cons_of_mem piece h)
          exact ⟨hrest.1, List.subset_cons_of_subset c hrest.2⟩

theorem split_append {sep : Char} (x y : List Char) : split sep (x ++ sep :: y) = split sep x ++ split sep y := by
  induction x with
  | nil => simp [split]
  | cons c x ih =>
    rw [List.cons_append, split, split]
    by_cases hc : c = sep
    · rw [if_pos hc, if_pos hc, ih, List.cons_append]
    · rw [if_neg hc, if_neg hc, ih]
      obtain ⟨piece, pieces, hpieces⟩ := List.exists_cons_of_ne_nil (split_ne_nil sep x)
      rw [hpieces]
      rfl

theorem split_of_not_mem {sep : Char} {s : List Char} (h : sep ∉ s) : split sep s = [s] :=
  split_join (List.cons_ne_nil s []) (List.forall_mem_singleton.mpr h)

theorem join_split (sep : Char) (s : List Char) : join sep (split sep s) = s := by
  rw [split_eq, join_eq, List.intercalate_splitOn]

theorem join_cons {sep : Char} (l : List Char) {ls : List (List Char)} (h : ls ≠ []) :
    join sep (l :: ls) = l ++ sep :: join sep ls := by
  obtain ⟨l', ls, rfl⟩ := List.exists_cons_of_ne_nil h
  rfl

theorem join_append {sep : Char} {ls ls' : List (List Char)} (h : ls ≠ []) (h' : ls' ≠ []) :
    join sep (ls ++ ls') = join sep ls ++ sep :: join sep ls' := by
  induction ls with
  | nil => exact absurd rfl h
  | cons l ls ih =>
    by_cases hls : ls = []
    · rw [hls, List.singleton_append, join_cons l h']
      rfl
    · rw [List.cons_append, join_cons l (List.append_ne_nil_of_left_ne_nil hls _), ih hls, join_cons l hls,
        List.append_assoc, List.cons_append]

theorem join_concat (sep : Char) {ls : List (List Char)} (l : List Char) (h : ls ≠ []) :
    join sep (ls ++ [l]) = join sep ls ++ sep :: l := by
  induction ls with
  | nil => exact absurd rfl h
  | cons l' ls ih =>
    cases ls with
    | nil => rfl
    | cons l'' ls =>
      have hrest := ih (List.cons_ne_nil l'' ls)
      simp only [List.cons_append, join] at hrest ⊢
      rw [hrest, List.append_assoc, List.cons_append]

theorem head?_join {sep : Char} {l : List Char} (ls : List (List Char)) (h : l ≠ []) :
    (join sep (l :: ls)).head? = l.head? := by
  cases ls with
  | nil => rfl
  | cons l' ls => exact List.head?_append_of_ne_nil l h

theorem join_ne_nil {sep : Char} {l : List Char} (ls : List (List Char)) (h : l ≠ []) :
    join sep (l :: ls) ≠ [] := by
  intro hnil
  have hhead : (join sep (l :: ls)).head? = l.head? := head?_join ls h
  rw [hnil] at hhead
  exact h (List.head?_eq_none_iff.mp hhead.symm)

theorem getLast?_join {sep : Char} {l : List Char} (ls : List (List Char)) (h : l ≠ []) :
    (join sep (ls ++ [l])).getLast? = l.getLast? := by
  cases ls with
  | nil => rfl
  | cons l' ls =>
    rw [join_concat sep l (List.cons_ne_nil l' ls), List.append_cons, List.getLast?_append_of_ne_nil _ h]

theorem mem_join {sep c : Char} {ls : List (List Char)} (h : c ∈ join sep ls) : c = sep ∨ ∃ l ∈ ls, c ∈ l := by
  induction ls with
  | nil => exact absurd h List.not_mem_nil
  | cons l ls ih =>
    cases ls with
    | nil => exact .inr ⟨l, List.mem_cons_self, h⟩
    | cons l' ls =>
      rcases List.mem_append.mp h with h | h
      · exact .inr ⟨l, List.mem_cons_self, h⟩
      · rcases List.mem_cons.mp h with h | h
        · exact .inl h
        · exact (ih h).imp_right fun ⟨l'', hl, hc⟩ => ⟨l'', List.mem_cons_of_mem l hl, hc⟩

variable {p : Char → Bool}

theorem rdropWhile_append_of_pos {s b : List Char} (hb : ∀ c ∈ b, p c = true) :
    (s ++ b).rdropWhile p = s.rdropWhile p := by
  have hreverse : ∀ c ∈ b.reverse, p c = true := fun c hc => hb c (List.mem_reverse.mp hc)
  rw [List.rdropWhile, List.reverse_append, List.dropWhile_append_of_pos hreverse, List.rdropWhile]

theorem rdropWhile_append_of_ne_nil (s : List Char) {b : List Char} (h : b.rdropWhile p ≠ []) :
    (s ++ b).rdropWhile p = s ++ b.rdropWhile p := by
  have hreverse : b.reverse.dropWhile p ≠ [] := fun hnil => h (by rw [List.rdropWhile, hnil, List.reverse_nil])
  rw [List.rdropWhile, List.reverse_append, List.dropWhile_append, List.isEmpty_eq_false_iff.mpr hreverse,
    if_neg Bool.false_ne_true, List.reverse_append, List.reverse_reverse, List.rdropWhile]

theorem dropWhile_join {sep : Char} {l : List Char} (ls : List (List Char)) (h : l.dropWhile p ≠ []) :
    (join sep (l :: ls)).dropWhile p = join sep (l.dropWhile p :: ls) := by
  cases ls with
  | nil => rfl
  | cons l' ls =>
    change (l ++ sep :: join sep (l' :: ls)).dropWhile p = _
    rw [List.dropWhile_append, List.isEmpty_eq_false_iff.mpr h, if_neg Bool.false_ne_true]
    rfl

theorem rdropWhile_join {sep : Char} {l : List Char} (ls : List (List Char)) (h : l.rdropWhile p ≠ []) :
    (join sep (ls ++ [l])).rdropWhile p = join sep (ls ++ [l.rdropWhile p]) := by
  cases ls with
  | nil => rfl
  | cons l' ls =>
    have hne := List.cons_ne_nil l' ls
    rw [join_concat sep l hne, join_concat sep _ hne, List.append_cons, rdropWhile_append_of_ne_nil _ h,
      ← List.append_cons]

theorem trimBy_parts (p : Char → Bool) (s : List Char) :
    ∃ a b, s = a ++ trimBy p s ++ b ∧ (∀ c ∈ a, p c = true) ∧ ∀ c ∈ b, p c = true := by
  refine ⟨s.takeWhile p, (s.dropWhile p).rtakeWhile p, ?_, fun c => List.mem_takeWhile_imp,
    fun c => List.mem_rtakeWhile_imp⟩
  rw [trimBy_eq, List.append_assoc, List.rdropWhile_append_rtakeWhile, List.takeWhile_append_dropWhile]

theorem head?_trimBy {s : List Char} {c : Char} (h : c ∈ (trimBy p s).head?) : p c = false := by
  obtain ⟨t, ht⟩ := List.head?_eq_some_iff.mp h
  obtain ⟨b, hb⟩ := List.rdropWhile_prefix p (s.dropWhile p)
  have hdrop : s.dropWhile p = c :: (t ++ b) := by rw [← hb, ← trimBy_eq, ht, List.cons_append]
  have hhead := List.head?_dropWhile_not p s
  rw [hdrop] at hhead
  exact hhead

theorem getLast?_trimBy {s : List Char} {c : Char} (h : c ∈ (trimBy p s).getLast?) : p c = false := by
  rw [trimBy_eq] at h
  have hne : (s.dropWhile p).rdropWhile p ≠ [] := fun hnil => by rw [hnil] at h; cases h
  have hlast := List.rdropWhile_last_not p _ hne
  rw [List.getLast?_eq_some_getLast hne] at h
  cases h
  exact Bool.eq_false_iff.mpr hlast

theorem trimBy_append {a b s : List Char} (ha : ∀ c ∈ a, p c = true) (hb : ∀ c ∈ b, p c = true)
    (hhead : ∀ c ∈ s.head?, p c = false) (hlast : ∀ c ∈ s.getLast?, p c = false) :
    trimBy p (a ++ s ++ b) = s := by
  rw [trimBy_eq, List.append_assoc, List.dropWhile_append_of_pos ha]
  cases s with
  | nil => rw [List.nil_append, List.dropWhile_eq_nil_iff.mpr hb, List.rdropWhile_nil]
  | cons c s =>
    have hc : ¬p c = true := Bool.eq_false_iff.mp (hhead c rfl)
    rw [List.cons_append, List.dropWhile_cons_of_neg hc, ← List.cons_append, rdropWhile_append_of_pos hb,
      List.rdropWhile_eq_self_iff]
    intro hne hp
    exact Bool.eq_false_iff.mp (hlast _ (List.getLast?_eq_some_getLast hne)) hp

theorem trimBy_eq_self {s : List Char} (hhead : ∀ c ∈ s.head?, p c = false)
    (hlast : ∀ c ∈ s.getLast?, p c = false) : trimBy p s = s := by
  have hnone : ∀ c ∈ ([] : List Char), p c = true := fun c hc => absurd hc List.not_mem_nil
  have htrim := trimBy_append hnone hnone hhead hlast
  rwa [List.append_nil, List.nil_append] at htrim

end Playpen.Text
