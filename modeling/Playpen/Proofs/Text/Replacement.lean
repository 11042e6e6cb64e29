import Mathlib.Data.List.Infix
import Mathlib.Data.List.Nodup
import Mathlib.Tactic.Linarith
import Playpen.Text.Search

namespace Playpen.Text

def occurrences (part s : List Char) : Nat := s.tails.countP part.isPrefixOf

/-- The text with every token that stands in it replaced by its value. What comes from a value is not
looked at again; `skip` counts the characters still covered by the last token. -/
def substituteFrom (values : List (List Char × List Char)) : Nat → List Char → List Char
  | _, [] => []
  | skip + 1, _ :: rest => substituteFrom values skip rest
  | 0, c :: rest =>
    match values.find? (·.1.isPrefixOf (c :: rest)) with
    | some (token, value) => value ++ substituteFrom values (token.length - 1) rest
    | none => c :: substituteFrom values 0 rest

def substitute (values : List (List Char × List Char)) (s : List Char) : List Char :=
  substituteFrom values 0 s

def IsToken (c : Char) (t : List Char) : Prop := ∃ body, t = c :: body ∧ c ∉ body

structure Apart (c : Char) (tokens : List (List Char)) : Prop where
  token : ∀ t ∈ tokens, IsToken c t
  nodup : tokens.Nodup
  eq_of_prefix : ∀ t ∈ tokens, ∀ u ∈ tokens, t <+: u → t = u

theorem IsToken.ne_nil {c : Char} {t : List Char} (h : IsToken c t) : t ≠ [] := by
  obtain ⟨body, rfl, -⟩ := h
  exact List.cons_ne_nil c body

theorem replaceFrom_skip (old new a s : List Char) :
    replaceFrom old new a.length (a ++ s) = replaceFrom old new 0 s := by
  induction a with
  | nil => rfl
  | cons c a ih => exact ih

theorem replace_token {old : List Char} (new s : List Char) (h : old ≠ []) :
    replace old new (old ++ s) = new ++ replace old new s := by
  obtain ⟨c, body, rfl⟩ := List.exists_cons_of_ne_nil h
  have hstart : (c :: body).isPrefixOf (c :: (body ++ s)) = true :=
    List.isPrefixOf_iff_prefix.mpr (List.prefix_append (c :: body) s)
  simp only [replace, List.cons_append, replaceFrom, hstart, if_true, List.length_cons,
    Nat.add_sub_cancel, replaceFrom_skip]

theorem replace_cons {old : List Char} (new : List Char) {c : Char} {s : List Char} (h : ¬old <+: c :: s) :
    replace old new (c :: s) = c :: replace old new s := by
  have hstart : old.isPrefixOf (c :: s) = false := by
    rw [Bool.eq_false_iff, ne_eq, List.isPrefixOf_iff_prefix]
    exact h
  simp [replace, replaceFrom, hstart]

theorem substituteFrom_skip (values : List (List Char × List Char)) (a s : List Char) :
    substituteFrom values a.length (a ++ s) = substituteFrom values 0 s := by
  induction a with
  | nil => rfl
  | cons c a ih => exact ih

theorem substitute_cons {values : List (List Char × List Char)} {c : Char} {s : List Char}
    (h : ∀ p ∈ values, ¬p.1 <+: c :: s) : substitute values (c :: s) = c :: substitute values s := by
  have hnone : values.find? (·.1.isPrefixOf (c :: s)) = none := by
    rw [List.find?_eq_none]
    intro p hp hstart
    exact h p hp (List.isPrefixOf_iff_prefix.mp hstart)
  simp only [substitute, substituteFrom, hnone]

theorem occurrences_nil {t : List Char} (h : t ≠ []) : occurrences t [] = 0 := by
  cases t with
  | nil => exact absurd rfl h
  | cons c t => rfl

theorem occurrences_cons (t : List Char) (c : Char) (s : List Char) :
    occurrences t (c :: s) = occurrences t s + if t <+: c :: s then 1 else 0 := by
  simp [occurrences, List.countP_cons]

theorem occurrences_le_append (t a s : List Char) : occurrences t s ≤ occurrences t (a ++ s) := by
  induction a with
  | nil => exact Nat.le_refl _
  | cons c a ih =>
    rw [List.cons_append, occurrences_cons]
    omega

theorem occurrences_cons_of_ne {c d : Char} {t : List Char} (s : List Char) (ht : IsToken c t) (h : c ≠ d) :
    occurrences t (d :: s) = occurrences t s := by
  obtain ⟨body, rfl, -⟩ := ht
  have hno : ¬c :: body <+: d :: s := fun hp => h (List.cons_prefix_cons.mp hp).1
  rw [occurrences_cons, if_neg hno, Nat.add_zero]

theorem occurrences_append_of_not_mem {c : Char} {t a : List Char} (s : List Char) (ht : IsToken c t)
    (h : c ∉ a) : occurrences t (a ++ s) = occurrences t s := by
  induction a with
  | nil => rfl
  | cons d a ih =>
    obtain ⟨hd, ha⟩ := List.ne_and_not_mem_of_not_mem_cons h
    rw [List.cons_append, occurrences_cons_of_ne _ ht hd, ih ha]

theorem occurrences_token {c : Char} {t : List Char} (s : List Char) (h : IsToken c t) :
    occurrences t (t ++ s) = occurrences t s + 1 := by
  obtain ⟨body, rfl, hc⟩ := h
  have hstart : c :: body <+: c :: (body ++ s) := List.prefix_append (c :: body) s
  rw [List.cons_append, occurrences_cons, if_pos hstart, occurrences_append_of_not_mem s ⟨body, rfl, hc⟩ hc]

theorem occurrences_other {c : Char} {t u : List Char} (s : List Char) (ht : IsToken c t) (hu : IsToken c u)
    (h : ¬t <+: u ∧ ¬u <+: t) : occurrences t (u ++ s) = occurrences t s := by
  obtain ⟨body, rfl, hc⟩ := hu
  have hno : ¬t <+: c :: (body ++ s) := by
    intro hp
    rcases List.prefix_or_prefix_of_prefix hp (List.prefix_append (c :: body) s) with hp | hp
    · exact h.1 hp
    · exact h.2 hp
  rw [List.cons_append, occurrences_cons, if_neg hno, Nat.add_zero, occurrences_append_of_not_mem s ht hc]

theorem occurrences_eq_zero {t s : List Char} (h : t ≠ []) (ht : ¬t <:+: s) : occurrences t s = 0 := by
  induction s with
  | nil => exact occurrences_nil h
  | cons c s ih =>
    rw [occurrences_cons, if_neg fun hp => ht hp.isInfix, ih fun hi => ht (List.infix_cons hi)]

theorem occurrences_append_cons {t : List Char} {c : Char} (a b : List Char) (h : t ≠ []) (hc : c ∉ t) :
    occurrences t (a ++ c :: b) = occurrences t a + occurrences t b := by
  induction a with
  | nil =>
    have hno : ¬t <+: c :: b := by
      intro hp
      obtain ⟨d, t, rfl⟩ := List.exists_cons_of_ne_nil h
      exact hc (List.mem_cons.mpr (.inl (List.cons_prefix_cons.mp hp).1.symm))
    rw [List.nil_append, occurrences_cons, if_neg hno, occurrences_nil h, Nat.add_zero, Nat.zero_add]
  | cons d a ih =>
    have hiff : t <+: d :: (a ++ c :: b) ↔ t <+: d :: a := by
      constructor
      · intro hp
        rcases List.prefix_or_prefix_of_prefix hp (List.prefix_append (d :: a) (c :: b)) with hp' | ⟨r, rfl⟩
        · exact hp'
        · rcases List.eq_nil_or_concat' r with rfl | ⟨r', e, rfl⟩
          · simp
          · obtain ⟨r, hr⟩ := List.exists_cons_of_ne_nil (l := r' ++ [e]) (by simp)
            obtain ⟨r, hr⟩ := hr
            rw [hr] at hp hc
            have := (List.prefix_append_right_inj (d :: a)).mp hp
            exact absurd (List.cons_prefix_cons.mp this).1 (fun he => hc (by simp [he]))
      · intro hp
        exact hp.trans (List.prefix_append (d :: a) (c :: b))
    rw [List.cons_append, occurrences_cons, occurrences_cons, ih]
    simp only [hiff]
    omega

theorem token_induction {c : Char} {tokens : List (List Char)} (h : ∀ t ∈ tokens, IsToken c t)
    {motive : List Char → Prop} (nil : motive []) (token : ∀ t ∈ tokens, ∀ s, motive s → motive (t ++ s))
    (other : ∀ d s, (∀ t ∈ tokens, ¬t <+: d :: s) → motive s → motive (d :: s)) (s : List Char) : motive s := by
  induction hn : s.length using Nat.strong_induction_on generalizing s with
  | _ n ih =>
    cases s with
    | nil => exact nil
    | cons d s =>
      by_cases hp : ∃ t ∈ tokens, t <+: d :: s
      · obtain ⟨t, ht, r, hr⟩ := hp
        have hlen : r.length < n := by
          have := congrArg List.length hr
          have := List.length_pos_of_ne_nil (h t ht).ne_nil
          simp only [List.length_append, List.length_cons] at *
          omega
        exact hr ▸ token t ht r (ih r.length hlen r rfl)
      · simp only [not_exists, not_and] at hp
        have hlen : s.length < n := by
          rw [← hn]
          exact Nat.lt_succ_self _
        exact other d s hp (ih s.length hlen s rfl)

theorem replace_append {t a s : List Char} (v : List Char) (h : occurrences t (a ++ s) = occurrences t s) :
    replace t v (a ++ s) = a ++ replace t v s := by
  induction a with
  | nil => rfl
  | cons d a ih =>
    have hle := occurrences_le_append t a s
    rw [List.cons_append, occurrences_cons] at h
    have hno : ¬t <+: d :: (a ++ s) := by
      intro hp
      rw [if_pos hp] at h
      omega
    rw [if_neg hno, Nat.add_zero] at h
    rw [List.cons_append, replace_cons v hno, ih h, List.cons_append]

theorem occurrences_le_replace {c : Char} {t u : List Char} (v s : List Char) (ht : IsToken c t)
    (hu : IsToken c u) (h : ¬t <+: u ∧ ¬u <+: t) : occurrences t s ≤ occurrences t (replace u v s) := by
  induction s using token_induction (show ∀ w ∈ [u], IsToken c w by simpa using hu) with
  | nil => exact Nat.le_refl _
  | token w hw s ih =>
    rw [List.mem_singleton.mp hw, occurrences_other s ht hu h, replace_token v s hu.ne_nil]
    exact ih.trans (occurrences_le_append t v _)
  | other d s hno ih =>
    rw [replace_cons v (hno u (List.mem_singleton_self u)), occurrences_cons, occurrences_cons]
    have hkeep : t <+: d :: s → t <+: d :: replace u v s := by
      rintro hp
      obtain ⟨body, rfl, hc⟩ := ht
      obtain ⟨rfl, r, rfl⟩ := List.cons_prefix_cons.mp hp
      rw [replace_append v (occurrences_append_of_not_mem r hu hc)]
      exact List.prefix_append (c :: body) _
    split
    · rename_i hp
      rw [if_pos (hkeep hp)]
      omega
    · omega

variable {c : Char} {values : List (List Char × List Char)} {t v : List Char}

theorem substitute_append_of_not_mem {a : List Char} (s : List Char) (h : Apart c (values.map Prod.fst))
    (hc : c ∉ a) : substitute values (a ++ s) = a ++ substitute values s := by
  induction a with
  | nil => rfl
  | cons d a ih =>
    obtain ⟨hd, ha⟩ := List.ne_and_not_mem_of_not_mem_cons hc
    have hno : ∀ p ∈ values, ¬p.1 <+: d :: (a ++ s) := by
      rintro ⟨u, w⟩ hp hstart
      obtain ⟨body, rfl, -⟩ := h.token u (List.mem_map_of_mem hp)
      exact hd (List.cons_prefix_cons.mp hstart).1
    rw [List.cons_append, substitute_cons hno, ih ha, List.cons_append]

theorem substitute_nil (s : List Char) : substitute [] s = s := by
  induction s with
  | nil => rfl
  | cons d s ih => rw [substitute_cons (by simp), ih]

theorem Apart.eq_of_prefix_append {tokens : List (List Char)} {t u s : List Char} (h : Apart c tokens)
    (ht : t ∈ tokens) (hu : u ∈ tokens) (hp : t <+: u ++ s) : t = u := by
  rcases List.prefix_or_prefix_of_prefix hp (List.prefix_append u s) with hp | hp
  · exact h.eq_of_prefix t ht u hu hp
  · exact (h.eq_of_prefix u hu t ht hp).symm

theorem substitute_token (s : List Char) (h : Apart c (values.map Prod.fst)) (hmem : (t, v) ∈ values) :
    substitute values (t ++ s) = v ++ substitute values s := by
  have ht : t ∈ values.map Prod.fst := List.mem_map_of_mem hmem
  obtain ⟨body, rfl, -⟩ := h.token t ht
  have hstart : (c :: body).isPrefixOf (c :: (body ++ s)) = true :=
    List.isPrefixOf_iff_prefix.mpr (List.prefix_append (c :: body) s)
  cases hfind : values.find? (·.1.isPrefixOf (c :: (body ++ s))) with
  | none => exact absurd hstart (List.find?_eq_none.mp hfind _ hmem)
  | some p =>
    have hp : p ∈ values := List.mem_of_find?_eq_some hfind
    have hfound := List.find?_some hfind
    have hfst : p.1 = c :: body := h.eq_of_prefix_append (s := s) (List.mem_map_of_mem hp) ht
      (List.isPrefixOf_iff_prefix.mp hfound)
    obtain rfl : p = (c :: body, v) := List.inj_on_of_nodup_map h.nodup hp hmem hfst
    simp only [substitute, List.cons_append, substituteFrom, hfind, List.length_cons, Nat.add_sub_cancel,
      substituteFrom_skip]

theorem Apart.tail {tokens : List (List Char)} (h : Apart c (t :: tokens)) : Apart c tokens where
  token u hu := h.token u (List.mem_cons_of_mem t hu)
  nodup := (List.nodup_cons.mp h.nodup).2
  eq_of_prefix u hu w hw := h.eq_of_prefix u (List.mem_cons_of_mem t hu) w (List.mem_cons_of_mem t hw)

theorem Apart.incomparable {tokens : List (List Char)} {u : List Char} (h : Apart c (t :: tokens))
    (hu : u ∈ tokens) : ¬t <+: u ∧ ¬u <+: t := by
  have hdiff : t ≠ u := fun he => (List.nodup_cons.mp h.nodup).1 (he ▸ hu)
  have hmem := List.mem_cons_of_mem t hu
  constructor
  · intro hp
    exact hdiff (h.eq_of_prefix t List.mem_cons_self u hmem hp)
  · intro hp
    exact hdiff (h.eq_of_prefix u hmem t List.mem_cons_self hp).symm

theorem substitute_other (s : List Char) (h : Apart c (t :: values.map Prod.fst)) :
    substitute values (t ++ s) = t ++ substitute values s := by
  obtain ⟨body, rfl, hc⟩ := h.token t List.mem_cons_self
  have hno : ∀ p ∈ values, ¬p.1 <+: c :: (body ++ s) := by
    intro p hp hstart
    have hmem : p.1 ∈ values.map Prod.fst := List.mem_map_of_mem hp
    have hfst := h.eq_of_prefix_append (u := c :: body) (List.mem_cons_of_mem _ hmem)
      List.mem_cons_self hstart
    exact (List.nodup_cons.mp h.nodup).1 (hfst ▸ hmem)
  rw [List.cons_append, substitute_cons hno, substitute_append_of_not_mem s h.tail hc, List.cons_append]

theorem replace_substitute (values : List (List Char × List Char)) (s : List Char)
    (h : Apart c (t :: values.map Prod.fst)) :
    occurrences t s ≤ occurrences t (substitute values s) ∧
      (occurrences t (substitute values s) = occurrences t s →
        replace t v (substitute values s) = substitute ((t, v) :: values) s) ∧
      ∀ d, (substitute ((t, v) :: values) s).count d + occurrences t s * t.count d =
        (substitute values s).count d + occurrences t s * v.count d := by
  have ht : IsToken c t := h.token t List.mem_cons_self
  have hne := ht.ne_nil
  have hall : Apart c (((t, v) :: values).map Prod.fst) := h
  -- All three at once, because the equation for the rest of the text needs the bound there.
  induction s using token_induction h.token with
  | nil => simp [substitute, substituteFrom, replace, replaceFrom, occurrences_nil hne]
  | token u hu s ih =>
    obtain ⟨hle, heq, hcount⟩ := ih
    rcases List.mem_cons.mp hu with rfl | hu
    · rw [substitute_other s h, occurrences_token _ ht, occurrences_token _ ht, replace_token v _ hne,
        substitute_token s hall List.mem_cons_self]
      refine ⟨by omega, fun hplaces => ?_, fun d => ?_⟩
      · rw [heq (by omega)]
      · have := hcount d
        simp only [List.count_append]
        linarith
    · obtain ⟨⟨u, w⟩, hmem, rfl⟩ := List.mem_map.mp hu
      have hbefore := occurrences_le_append t w (substitute values s)
      rw [substitute_token s h.tail hmem, substitute_token s hall (List.mem_cons_of_mem _ hmem),
        occurrences_other s ht (h.token u (List.mem_cons_of_mem t hu)) (h.incomparable hu)]
      refine ⟨hle.trans hbefore, fun hplaces => ?_, fun d => ?_⟩
      · rw [replace_append v (by omega), heq (by omega)]
      · have := hcount d
        simp only [List.count_append]
        linarith
  | other d s hno ih =>
    obtain ⟨hle, heq, hcount⟩ := ih
    have hvals : ∀ p ∈ values, ¬p.1 <+: d :: s := fun p hp =>
      hno p.1 (List.mem_cons_of_mem t (List.mem_map_of_mem hp))
    have hvals' : ∀ p ∈ (t, v) :: values, ¬p.1 <+: d :: s := by
      intro p hp
      exact hno p.1 (List.mem_map_of_mem (f := Prod.fst) hp)
    rw [substitute_cons hvals, substitute_cons hvals', occurrences_cons, occurrences_cons,
      if_neg (hno t List.mem_cons_self)]
    refine ⟨by omega, fun hplaces => ?_, fun e => ?_⟩
    · split at hplaces
      · omega
      · rename_i hnew
        rw [replace_cons v hnew, heq (by omega)]
    · have := hcount e
      simp only [List.count_cons, Nat.add_zero]
      linarith

theorem Apart.sub {tokens tokens' : List (List Char)} (h : Apart c tokens) (hsub : tokens' ⊆ tokens)
    (hnodup : tokens'.Nodup) : Apart c tokens' where
  token u hu := h.token u (hsub hu)
  nodup := hnodup
  eq_of_prefix u hu w hw := h.eq_of_prefix u (hsub hu) w (hsub hw)

def leftover (tokens : List (List Char)) (s : List Char) : List Char := substitute (tokens.map (·, [])) s

theorem leftover_token {tokens : List (List Char)} (s : List Char) (h : Apart c tokens) (ht : t ∈ tokens) :
    leftover tokens (t ++ s) = leftover tokens s := by
  have hfst : (tokens.map (·, ([] : List Char))).map Prod.fst = tokens := by
    rw [List.map_map]
    exact List.map_id tokens
  have hmem : (t, []) ∈ tokens.map (·, ([] : List Char)) := List.mem_map.mpr ⟨t, ht, rfl⟩
  rw [← hfst] at h
  exact substitute_token s h hmem

theorem leftover_cons {tokens : List (List Char)} {d : Char} {s : List Char}
    (h : ∀ t ∈ tokens, ¬t <+: d :: s) : leftover tokens (d :: s) = d :: leftover tokens s := by
  apply substitute_cons
  intro p hp
  obtain ⟨t, ht, rfl⟩ := List.mem_map.mp hp
  exact h t ht

theorem occurrences_substitute {tokens : List (List Char)} (s : List Char) (h : Apart c tokens)
    (ht : t ∈ tokens) (hsub : values.map Prod.fst ⊆ tokens) (hnodup : (t :: values.map Prod.fst).Nodup)
    (hvalues : ∀ p ∈ values, ∀ r, occurrences t (p.2 ++ r) = occurrences t r) (hs : c ∉ leftover tokens s) :
    occurrences t (substitute values s) = occurrences t s := by
  have htoken := h.token t ht
  have hkeys := h.sub hsub (List.nodup_cons.mp hnodup).2
  have hall := h.sub (List.cons_subset.mpr ⟨ht, hsub⟩) hnodup
  induction s using token_induction h.token with
  | nil => rfl
  | token u hu s ih =>
    rw [leftover_token s h hu] at hs
    by_cases hut : u = t
    · subst hut
      rw [substitute_other s hall, occurrences_token _ htoken, occurrences_token _ htoken, ih hs]
    have happart : ¬t <+: u ∧ ¬u <+: t :=
      ⟨fun hp => hut (h.eq_of_prefix t ht u hu hp).symm, fun hp => hut (h.eq_of_prefix u hu t ht hp)⟩
    rw [occurrences_other s htoken (h.token u hu) happart, ← ih hs]
    by_cases hmem : u ∈ values.map Prod.fst
    · obtain ⟨p, hp, rfl⟩ := List.mem_map.mp hmem
      rw [substitute_token s hkeys hp, hvalues p hp]
    · have hother : Apart c (u :: values.map Prod.fst) :=
        h.sub (List.cons_subset.mpr ⟨hu, hsub⟩) (List.nodup_cons.mpr ⟨hmem, hkeys.nodup⟩)
      rw [substitute_other s hother, occurrences_other _ htoken (h.token u hu) happart]
  | other d s hno ih =>
    rw [leftover_cons hno] at hs
    obtain ⟨hd, hs⟩ := List.ne_and_not_mem_of_not_mem_cons hs
    have hvals : ∀ p ∈ values, ¬p.1 <+: d :: s := fun p hp => hno p.1 (hsub (List.mem_map_of_mem hp))
    rw [substitute_cons hvals, occurrences_cons_of_ne _ htoken hd, occurrences_cons_of_ne _ htoken hd, ih hs]

theorem count_replace (s : List Char) (ht : IsToken c t) (d : Char) :
    (replace t v s).count d + occurrences t s * t.count d = s.count d + occurrences t s * v.count d := by
  induction s using token_induction (show ∀ w ∈ [t], IsToken c w by simpa using ht) with
  | nil => simp [replace, replaceFrom, occurrences_nil ht.ne_nil]
  | token u hu s ih =>
    rw [List.mem_singleton.mp hu, occurrences_token s ht, replace_token v s ht.ne_nil]
    simp only [List.count_append]
    linarith
  | other e s hno ih =>
    have hno := hno t (List.mem_singleton_self t)
    rw [occurrences_cons, if_neg hno, replace_cons v hno]
    simp only [List.count_cons, Nat.add_zero]
    linarith

end Playpen.Text
