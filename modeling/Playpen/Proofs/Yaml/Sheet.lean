import Playpen.Proofs.Yaml.Plain
import Playpen.Proofs.Yaml.Quoted
/-!
What a sheet holds after a text was written on it: some spelling of that text. Where its lines are broken
depends on the column, so only that there is a spelling is said.
-/
namespace Playpen.Yaml.Sheet

section Lines

variable {h : Sheet} {indent : Nat}

theorem indentTo_new (h : Sheet) (indent : Nat) :
    h.breakLine.indentTo indent = ⟨List.replicate indent ' ' ++ '\n' :: h.written, indent, true, true⟩ := by
  cases indent with
  | zero => rfl
  | succ n => simp [indentTo, breakLine, put]

theorem indentTo_used (hused : h.fresh = false ∨ indent < h.column) :
    h.indentTo indent = ⟨List.replicate indent ' ' ++ '\n' :: h.written, indent, true, true⟩ := by
  have hbreak : (!h.fresh || decide (indent < h.column) || (decide (h.column = indent) && !h.blank)) = true := by
    rcases hused with hfresh | hcolumn
    · simp [hfresh]
    · simp [hcolumn]
  rw [← indentTo_new h indent, indentTo, indentTo, hbreak]
  simp [breakLine]

end Lines

section Runs

variable {rest : List Char}

def Run.takes (c : Char) : Run → Bool
  | spaces _ => c = ' '
  | breaks _ => c = '\n'
  | word _ => !(c = ' ' || c = '\n')

theorem addRun_start {c : Char} {rs : List Run} (h : ∀ r ∈ rs.head?, r.takes c = false) :
    addRun c rs = addRun.start c rs := by
  cases rs with
  | nil => rfl
  | cons r rest =>
    have hr := h r rfl
    cases r with
    | spaces n => exact if_neg (by simpa [Run.takes] using hr)
    | breaks n => exact if_neg (by simpa [Run.takes] using hr)
    | word s => exact if_pos (by simpa [Run.takes, or_iff_not_imp_left] using hr)

theorem addRun_takes (c : Char) (rs : List Run) : ∀ r ∈ (addRun c rs).head?, r.takes c = true := by
  have hstart (rs : List Run) : ∀ r ∈ (addRun.start c rs).head?, r.takes c = true := by
    rintro r ⟨⟩
    split_ifs <;> simp_all [Run.takes]
  unfold addRun
  split
  · split_ifs with hc
    · rintro r ⟨⟩
      simp [Run.takes, hc]
    · exact hstart _
  · split_ifs with hc
    · rintro r ⟨⟩
      simp [Run.takes, hc]
    · exact hstart _
  · split_ifs with hc
    · exact hstart _
    · rintro r ⟨⟩
      simpa [Run.takes] using hc
  · exact hstart _

theorem addRun_end {c : Char} (h : ∀ d ∈ rest.head?, ∀ r : Run, r.takes d = true → r.takes c = false) :
    addRun c (runs rest) = addRun.start c (runs rest) := by
  apply addRun_start
  cases rest with
  | nil => rintro r ⟨⟩
  | cons d rest => exact fun r hr => h d rfl r (addRun_takes d _ r hr)

theorem runs_spaces (n : Nat) (hrest : ∀ d ∈ rest.head?, d ≠ ' ') :
    runs (List.replicate (n + 1) ' ' ++ rest) = .spaces (n + 1) :: runs rest := by
  induction n with
  | zero =>
    show addRun ' ' (runs rest) = _
    rw [addRun_end]
    · rfl
    · intro d hd r hr
      have := hrest d hd
      cases r <;> simp_all [Run.takes]
  | succ n ih =>
    show addRun ' ' (runs (List.replicate (n + 1) ' ' ++ rest)) = _
    rw [ih]
    rfl

theorem runs_breaks (n : Nat) (hrest : ∀ d ∈ rest.head?, d ≠ '\n') :
    runs (List.replicate (n + 1) '\n' ++ rest) = .breaks (n + 1) :: runs rest := by
  induction n with
  | zero =>
    show addRun '\n' (runs rest) = _
    rw [addRun_end]
    · rfl
    · intro d hd r hr
      have := hrest d hd
      cases r <;> simp_all [Run.takes]
  | succ n ih =>
    show addRun '\n' (runs (List.replicate (n + 1) '\n' ++ rest)) = _
    rw [ih]
    rfl

theorem runs_word {w : List Char} (hne : w ≠ []) (hw : ∀ c ∈ w, c ≠ ' ' ∧ c ≠ '\n')
    (hrest : ∀ d ∈ rest.head?, d = ' ' ∨ d = '\n') : runs (w ++ rest) = .word w :: runs rest := by
  induction w with
  | nil => exact absurd rfl hne
  | cons c w ih =>
    obtain ⟨hc, hw⟩ := List.forall_mem_cons.mp hw
    show addRun c (runs (w ++ rest)) = _
    cases w with
    | nil =>
      rw [List.nil_append, addRun_end]
      · simp [addRun.start, hc]
      · intro d hd r hr
        rcases hrest d hd with rfl | rfl <;> cases r <;> simp_all [Run.takes]
    | cons d w =>
      rw [ih (List.cons_ne_nil _ _) hw]
      simp [addRun, hc]

end Runs

theorem exists_run (p : Char → Bool) (s : List Char) :
    ∃ w rest, s = w ++ rest ∧ (∀ c ∈ w, p c = true) ∧ ∀ d ∈ rest.head?, p d = false := by
  refine ⟨s.takeWhile p, s.dropWhile p, List.takeWhile_append_dropWhile.symm,
    List.all_eq_true.mp List.all_takeWhile, ?_⟩
  intro d hd
  have := List.head?_dropWhile_not p s
  rw [hd] at this
  simpa using this

theorem exists_repeats {x : Char} {s : List Char} (hne : s ≠ []) (hs : ∀ d ∈ s.head?, d = x) :
    ∃ k rest, s = List.replicate (k + 1) x ++ rest ∧ ∀ c ∈ rest.head?, c ≠ x := by
  obtain ⟨w, rest, rfl, hw, hrest⟩ := exists_run (fun c => c = x) s
  refine ⟨w.length - 1, rest, ?_, fun c hc => by simpa using hrest c hc⟩
  cases w with
  | nil =>
    obtain ⟨d, s, rfl⟩ := List.exists_cons_of_ne_nil hne
    simpa [hs d rfl] using hrest d rfl
  | cons d w =>
    congr 1
    exact List.eq_replicate_iff.mpr ⟨rfl, fun c hc => by simpa using hw c hc⟩

structure Wrote (h : Sheet) (t : List Char) (h' : Sheet) : Prop where
  written : h'.written = t.reverse ++ h.written
  used : h'.fresh = false

theorem Wrote.trans {h h' h'' : Sheet} {t t' : List Char} (first : Wrote h t h') (second : Wrote h' t' h'') :
    Wrote h (t ++ t') h'' :=
  ⟨by rw [second.written, first.written, List.reverse_append, List.append_assoc], second.used⟩

theorem Wrote.put {h : Sheet} (hused : h.fresh = false) (t : List Char) : Wrote h t (h.put t) := ⟨rfl, hused⟩

theorem Wrote.line {h : Sheet} {indent : Nat} (hused : h.fresh = false ∨ indent < h.column) :
    Wrote h ('\n' :: List.replicate indent ' ') (h.indentTo indent).inUse :=
  ⟨by simp [indentTo_used hused, inUse], rfl⟩

section Plain

def Quiet (before : Char) (s : List Char) : Prop :=
  (Style.neighbours before s).any (fun (b, c, next) => Style.interrupts b c next) = false

theorem quiet_cons {b c : Char} {s : List Char} :
    Quiet b (c :: s) ↔ Style.interrupts b c (s.headD '\x00') = false ∧ Quiet c s := by
  unfold Quiet
  rw [Style.neighbours, List.any_cons, Bool.or_eq_false_iff]

theorem Quiet.append {b : Char} {u v : List Char} (h : Quiet b (u ++ v)) : Quiet (u.getLastD b) v := by
  induction u generalizing b with
  | nil => exact h
  | cons c u ih =>
    rw [List.getLastD_cons]
    exact ih (quiet_cons.mp h).2

structure IsPlain (s : List Char) : Prop where
  printed : s.all isPrinted = true
  first : ∀ c ∈ s.head?, c ≠ ' '
  last : ∀ c ∈ s.getLast?, c ≠ ' '
  quiet : Quiet ' ' s

theorem IsPlain.word {w rest : List Char} (h : IsPlain (w ++ rest)) (hne : w ≠ []) (hw : ∀ c ∈ w, c ≠ ' ')
    (hrest : ∀ d ∈ rest.head?, d = ' ') : IsWord w where
  nonempty := hne
  letters := List.all_eq_true.mpr fun c hc => by
    have := List.all_eq_true.mp h.printed c (List.mem_append_left _ hc)
    simp [this, hw c hc]
  first := by
    intro hfirst
    obtain ⟨t, rfl⟩ : ∃ t, w = '#' :: t := List.head?_eq_some_iff.mp hfirst
    have := (quiet_cons.mp h.quiet).1
    simp [Style.interrupts, endsWord, endsItem] at this
  last := by
    intro hlast
    obtain ⟨t, rfl⟩ : ∃ t, w = t ++ [':'] := List.getLast?_eq_some_iff.mp hlast
    have hends : endsWord (rest.headD '\x00') = true := by
      cases rest with
      | nil => rfl
      | cons d rest =>
        rw [hrest d rfl]
        rfl
    have hquiet := h.quiet
    rw [List.append_assoc] at hquiet
    have hinterrupts := (quiet_cons.mp hquiet.append).1
    have hcolon : (decide (':' = ':') && endsWord (rest.headD '\x00')) = false :=
      (Bool.or_eq_false_iff.mp hinterrupts).1
    rw [hends] at hcolon
    cases hcolon

theorem IsPlain.drop {u v : List Char} (h : IsPlain (u ++ v)) (hu : u.getLast? = some ' ')
    (hv : ∀ c ∈ v.head?, c ≠ ' ') :
    v ≠ [] ∧ IsPlain v := by
  have hne : v ≠ [] := by
    rintro rfl
    rw [List.append_nil] at h
    exact h.last ' ' hu rfl
  have hprinted := h.printed
  rw [List.all_append, Bool.and_eq_true] at hprinted
  have hquiet := h.quiet.append
  rw [List.getLastD_eq_getLast?, hu] at hquiet
  refine ⟨hne, hprinted.2, hv, fun c hc => h.last c ?_, hquiet⟩
  rw [List.getLast?_append, hc]
  rfl

inductive Sentence : List Char → Prop
  | word {w : List Char} (hw : IsWord w) : Sentence w
  | more {w s : List Char} (k : Nat) (hw : IsWord w) (h : Sentence s) :
      Sentence (w ++ (List.replicate (k + 1) ' ' ++ s))

theorem IsPlain.sentence {s : List Char} (hs : IsPlain s) (hne : s ≠ []) : Sentence s := by
  induction hn : s.length using Nat.strongRecOn generalizing s with
  | ind n ih =>
    obtain ⟨w, rest, rfl, hw, hrest⟩ := exists_run (fun c => !(c = ' ')) s
    have hwne : w ≠ [] := by
      rintro rfl
      obtain ⟨c, s, hs'⟩ := List.exists_cons_of_ne_nil hne
      rw [List.nil_append] at hs'
      subst hs'
      simpa [hs.first c rfl] using hrest c rfl
    have hw : ∀ c ∈ w, c ≠ ' ' := fun c hc => by simpa using hw c hc
    have hrest : ∀ d ∈ rest.head?, d = ' ' := fun d hd => by simpa using hrest d hd
    have hword := hs.word hwne hw hrest
    by_cases hend : rest = []
    · subst hend
      simpa using Sentence.word hword
    · obtain ⟨k, s, rfl, hspace⟩ := exists_repeats hend hrest
      obtain ⟨hne', hplain⟩ := IsPlain.drop (u := w ++ List.replicate (k + 1) ' ') (by rwa [List.append_assoc])
        (by simp [List.getLast?_append, List.getLast?_replicate]) hspace
      have hlt : s.length < n := by
        rw [← hn]
        simp
        omega
      exact .more k hword (ih s.length hlt hplain hne' rfl)

theorem runs_isWord {w u : List Char} (hw : IsWord w) (hrest : ∀ d ∈ u.head?, d = ' ' ∨ d = '\n') :
    runs (w ++ u) = .word w :: runs u := by
  refine runs_word hw.nonempty (fun c hc => ?_) hrest
  have hletter := List.all_eq_true.mp hw.letters c hc
  simp only [Bool.and_eq_true, decide_eq_true_eq] at hletter
  exact ⟨hletter.2, ne_of_isPrinted hletter.1 rfl⟩

theorem Sentence.head {s : List Char} (h : Sentence s) : ∀ c ∈ s.head?, c ≠ ' ' := by
  have hword {w u : List Char} (hw : IsWord w) : ∀ c ∈ (w ++ u).head?, c ≠ ' ' := by
    obtain ⟨d, w, rfl⟩ := List.exists_cons_of_ne_nil hw.nonempty
    have hletter := List.all_eq_true.mp hw.letters d (List.mem_cons_self ..)
    simp only [Bool.and_eq_true, decide_eq_true_eq] at hletter
    rintro _ ⟨⟩
    exact hletter.2
  cases h with
  | word hw => simpa using hword (u := []) hw
  | more k hw h => exact hword hw

theorem Sentence.wrote {s : List Char} (hs : Sentence s) (split : Bool) (indent : Nat) {h : Sheet}
    (hused : h.fresh = false) :
    ∃ t, PlainSpells indent s t ∧ Wrote h t ((runs s).foldl (plainRun split indent) h) := by
  induction hs generalizing h with
  | @word w hw =>
    have hruns := runs_isWord (u := []) hw (by rintro d ⟨⟩)
    rw [List.append_nil] at hruns
    rw [hruns]
    exact ⟨w, .word hw, .put hused w⟩
  | @more w s k hw hs ih =>
    have hput : Wrote h w (h.put w) := .put hused w
    rw [runs_isWord hw (by rintro d ⟨⟩; exact .inl rfl), runs_spaces k hs.head, List.foldl_cons, List.foldl_cons]
    by_cases hfold : folds split (k + 1) (h.put w) = true
    · have hk : k = 0 := by
        simp only [folds, Bool.and_eq_true, decide_eq_true_eq] at hfold
        omega
      subst hk
      have hline : Wrote (h.put w) ('\n' :: List.replicate indent ' ')
          (plainRun split indent (h.put w) (.spaces 1)) := by
        rw [plainRun, if_pos hfold]
        exact .line (.inl hput.used)
      obtain ⟨t, hspells, hwrote⟩ := ih hline.used
      exact ⟨w ++ '\n' :: (List.replicate indent ' ' ++ t), .fold hw hspells, hput.trans (hline.trans hwrote)⟩
    · have hspaces : Wrote (h.put w) (List.replicate (k + 1) ' ')
        (plainRun split indent (h.put w) (.spaces (k + 1))) := by
        rw [plainRun, if_neg hfold]
        exact .put hput.used _
      obtain ⟨t, hspells, hwrote⟩ := ih hspaces.used
      exact ⟨w ++ (List.replicate (k + 1) ' ' ++ t), .gap k hw hspells, hput.trans (hspaces.trans hwrote)⟩

end Plain

section Single

variable {p q : Char → Bool} {c d : Char} {s : List Char}

theorem hasPair_cons : Style.hasPair p q (c :: d :: s) = (p c && q d || Style.hasPair p q (d :: s)) := rfl

theorem hasPair_append {u v : List Char} (h : Style.hasPair p q (u ++ v) = false) : Style.hasPair p q v = false := by
  induction u with
  | nil => exact h
  | cons c u ih =>
    apply ih
    cases huv : u ++ v with
    | nil => rfl
    | cons d w =>
      rw [List.cons_append, huv, hasPair_cons, Bool.or_eq_false_iff] at h
      exact h.2

theorem hasPair_repeats {x : Char} {k : Nat} (hx : p x = true)
    (h : Style.hasPair p q (List.replicate (k + 1) x ++ d :: s) = false) : q d = false := by
  rw [List.replicate_succ', List.append_assoc] at h
  have hpair := hasPair_append h
  rw [List.singleton_append, hasPair_cons, Bool.or_eq_false_iff, hx, Bool.true_and] at hpair
  exact hpair.1

inductive Lines : List Char → Prop
  | nil : Lines []
  | word {w s : List Char} (hne : w ≠ []) (hw : ∀ c ∈ w, isPrinted c = true ∧ c ≠ ' ')
    (hs : ∀ d ∈ s.head?, d = ' ' ∨ d = '\n') (h : Lines s) : Lines (w ++ s)
  | spaces {s : List Char} (k : Nat) (hs : GoesOn s) (h : Lines s) : Lines (List.replicate (k + 1) ' ' ++ s)
  | breaks {s : List Char} (k : Nat) (hs : GoesOn s) (h : Lines s) : Lines (List.replicate (k + 1) '\n' ++ s)

theorem lines_of_pairs {s : List Char} (hs : ∀ c ∈ s, isPrinted c = true ∨ c = '\n')
    (hbreak : Style.hasPair isBreak (· = ' ') s = false) (hspace : Style.hasPair (· = ' ') isBreak s = false) :
    Lines s := by
  induction hn : s.length using Nat.strongRecOn generalizing s with
  | ind n ih =>
    -- A run is taken off as a whole, so the induction is on the length and not on the list.
    have hrest {u v : List Char} (hu : u ≠ []) (hv : s = u ++ v) : Lines v := by
      subst hv
      have hlt : v.length < n := by
        rw [← hn, List.length_append]
        have := List.length_pos_iff.mpr hu
        omega
      exact ih v.length hlt (fun c hc => hs c (List.mem_append_right _ hc)) (hasPair_append hbreak)
        (hasPair_append hspace) rfl
    cases s with
    | nil => exact .nil
    | cons c s =>
      by_cases hc : c = ' '
      · subst hc
        obtain ⟨k, v, hv, hhead⟩ := exists_repeats (x := ' ') (List.cons_ne_nil _ s) (by rintro d ⟨⟩; rfl)
        rw [hv] at hspace ⊢
        refine .spaces k (fun d hd => ⟨hhead d hd, ?_⟩) (hrest (by simp) hv)
        obtain ⟨v, rfl⟩ := List.head?_eq_some_iff.mp hd
        rintro rfl
        cases hasPair_repeats rfl hspace
      · by_cases hc' : c = '\n'
        · subst hc'
          obtain ⟨k, v, hv, hhead⟩ := exists_repeats (x := '\n') (List.cons_ne_nil _ s) (by rintro d ⟨⟩; rfl)
          rw [hv] at hbreak ⊢
          refine .breaks k (fun d hd => ⟨?_, hhead d hd⟩) (hrest (by simp) hv)
          obtain ⟨v, rfl⟩ := List.head?_eq_some_iff.mp hd
          rintro rfl
          cases hasPair_repeats rfl hbreak
        · obtain ⟨w, v, hv, hw, hhead⟩ := exists_run (fun c => !(c = ' ' || c = '\n')) (c :: s)
          rw [hv]
          have hne : w ≠ [] := by
            rintro rfl
            rw [List.nil_append] at hv
            simpa [hc, hc'] using hhead c (by rw [← hv]; rfl)
          refine .word hne (fun d hd => ?_) (fun d hd => by simpa [or_iff_not_imp_left] using hhead d hd) (hrest hne hv)
          have hd' := hw d hd
          simp only [Bool.not_eq_true', Bool.or_eq_false_iff, decide_eq_false_iff_not] at hd'
          exact ⟨(hs d (by rw [hv]; exact List.mem_append_left _ hd)).resolve_right hd'.2, hd'.1⟩

theorem spells_word {indent : Nat} {w s t : List Char} (hw : ∀ c ∈ w, isPrinted c = true ∧ c ≠ ' ')
    (h : Spells indent .single s t) : Spells indent .single (w ++ s) (doubleQuotes w ++ t) := by
  induction w with
  | nil => exact h
  | cons c w ih =>
    obtain ⟨⟨hprinted, hspace⟩, hw⟩ := List.forall_mem_cons.mp hw
    have hrest := ih hw
    by_cases hquote : c = '\''
    · subst hquote
      exact .apostrophe hrest
    · have hone : doubleQuotes (c :: w) = c :: doubleQuotes w := by simp [doubleQuotes, hquote]
      rw [hone]
      by_cases hother : c = '"' ∨ c = '\\'
      · exact .other (.inr ⟨rfl, hother⟩) hrest
      · refine .plain hprinted ?_ hrest
        rw [not_or] at hother
        simp [isQuotedPlain, endsWord_of_isPrinted hprinted, hspace, hquote, hother]

theorem written_breaks (n : Nat) (h : Sheet) : ∃ h' : Sheet, n.fold (fun _ _ h => h.breakLine) h.breakLine =
    h'.breakLine ∧
    h'.written = List.replicate n '\n' ++ h.written := by
  induction n with
  | zero => exact ⟨h, rfl, rfl⟩
  | succ n ih =>
    obtain ⟨h', hfold, hwritten⟩ := ih
    refine ⟨h'.breakLine, by rw [Nat.fold_succ, hfold], ?_⟩
    rw [List.replicate_succ, List.cons_append, ← hwritten]
    rfl

theorem Lines.wrote {s : List Char} (hs : Lines s) (split : Bool) {indent : Nat} (hindent : indent ≤ width)
    (first : Bool) (h : Sheet) : ∃ t, Spells indent .single s t ∧ (GoesOn s → GoesOn t) ∧
      (singleRuns split indent first (runs s) h).written = t.reverse ++ h.written := by
  induction hs generalizing first h with
  | nil => exact ⟨[], .nil, id, rfl⟩
  | @word w s hne hw hs h' ih =>
    obtain ⟨t, hspells, -, hwritten⟩ := ih false (h.put (doubleQuotes w))
    refine ⟨doubleQuotes w ++ t, spells_word hw hspells, fun _ => ?_, ?_⟩
    · obtain ⟨c, w, rfl⟩ := List.exists_cons_of_ne_nil hne
      obtain ⟨hprinted, hspace⟩ := hw c (List.mem_cons_self ..)
      have hhead : (doubleQuotes (c :: w) ++ t).head? = some c := by
        by_cases hquote : c = '\'' <;> simp [doubleQuotes, hquote]
      rw [GoesOn, hhead]
      rintro _ ⟨⟩
      exact ⟨hspace, ne_of_isPrinted hprinted rfl⟩
    · rw [runs_word hne (fun c hc => ⟨(hw c hc).2, ne_of_isPrinted (hw c hc).1 rfl⟩) hs]
      simp only [singleRuns, singleRun, hwritten]
      simp [put]
  | @spaces s k hgoes hs ih =>
    have hnot : ¬ GoesOn (List.replicate (k + 1) ' ' ++ s) := fun h => (h ' ' rfl).1 rfl
    rw [runs_spaces k fun d hd => (hgoes d hd).1]
    -- A single space may be written as a line end.
    by_cases hfold : (!(first || (runs s).isEmpty) && folds split (k + 1) h) = true
    · have hcolumn := hfold
      simp only [folds, Bool.and_eq_true, decide_eq_true_eq] at hcolumn
      obtain ⟨-, ⟨-, hk⟩, hcolumn⟩ := hcolumn
      obtain rfl : k = 0 := by omega
      obtain ⟨t, hspells, hgoes', hwritten⟩ := ih false (h.indentTo indent)
      refine ⟨_, .lines 0 (hgoes' hgoes) hspells, fun h => absurd h hnot, ?_⟩
      rw [singleRuns, singleRun, if_pos hfold, hwritten, indentTo_used (.inr (by omega))]
      simp
    · obtain ⟨t, hspells, hgoes', hwritten⟩ := ih false (h.put (List.replicate (k + 1) ' '))
      refine ⟨_, .blanks k (hgoes' hgoes) hspells, fun h => absurd h hnot, ?_⟩
      rw [singleRuns, singleRun, if_neg hfold, hwritten]
      simp [put]
  | @breaks s k hgoes hs ih =>
    have hnot : ¬ GoesOn (List.replicate (k + 1) '\n' ++ s) := fun h => (h '\n' rfl).2 rfl
    obtain ⟨h', hfold, hwritten'⟩ := written_breaks (k + 1) h
    obtain ⟨t, hspells, hgoes', hwritten⟩ := ih false (h'.breakLine.indentTo indent)
    have hlines := Spells.lines (k + 1) (hgoes' hgoes) hspells
    refine ⟨_, hlines, fun h => absurd h hnot, ?_⟩
    rw [runs_breaks k fun d hd => (hgoes d hd).2, singleRuns, singleRun, hfold, hwritten, indentTo_new]
    simp only [List.reverse_cons, List.reverse_append, List.reverse_replicate, List.append_assoc, hwritten']
    rw [List.singleton_append, ← List.cons_append, ← List.replicate_succ, List.replicate_succ', List.append_assoc]
    rfl

end Single

section Double

variable {c : Char} {s t : List Char} {indent : Nat}

theorem escape?_none (h : escape? c = none) : isPrinted c = true ∧ c ≠ '"' ∧ c ≠ '\\' := by
  unfold escape? at h
  cases hlookup : shortEscapes.lookup c with
  | some d =>
    rw [hlookup] at h
    cases h
  | none =>
    rw [hlookup] at h
    dsimp only at h
    split_ifs at h with hprinted
    refine ⟨hprinted, ?_, ?_⟩ <;> rintro rfl <;> exact absurd hlookup (by decide)

theorem spells_char (hc : escape? c = none) (ht : t.head? ≠ some '\n') (h : Spells indent .double s t) :
    Spells indent .double (c :: s) (c :: t) := by
  obtain ⟨hprinted, hquote, hbackslash⟩ := escape?_none hc
  by_cases hspace : c = ' '
  · subst hspace
    exact h.blank ht
  · by_cases happ : c = '\''
    · exact .other (.inl ⟨rfl, happ⟩) h
    · refine .plain hprinted ?_ h
      simp [isQuotedPlain, endsWord_of_isPrinted hprinted, hspace, happ, hquote, hbackslash]

theorem fold_eq {h : Sheet} (hused : h.fresh = false) (next : Char) : fold indent next h =
    ⟨(if next = ' ' then ['\\'] else []) ++ (List.replicate indent ' ' ++ '\n' :: '\\' :: h.written),
      indent + (if next = ' ' then 1 else 0), false, false⟩ := by
  rw [fold, indentTo_used (.inl (show (h.put ['\\']).fresh = false from hused))]
  split <;> rfl

theorem doubleRest_blank {split : Bool} {rest : List Char} {h : Sheet} (hroom : h.column ≤ width) :
    doubleRest split indent false [] (' ' :: rest) h = doubleRest split indent false [' '] rest h := by
  rw [doubleRest, show escape? ' ' = none from rfl]
  exact if_neg (by simp; omega)

def WritesDouble (split : Bool) (indent : Nat) (s : List Char) : Prop :=
  ∀ (first : Bool) (held : List Char) (h : Sheet), h.fresh = false →
    ∃ t, Spells indent .double s t ∧ t.head? ≠ some '\n' ∧ (s.head? ≠ some ' ' → t.head? ≠ some ' ') ∧
      (doubleRest split indent first held s h).written = t.reverse ++ (held ++ h.written)

variable {split : Bool} {c : Char} {rest e : List Char}

theorem writesDouble_escape (hindent : indent < width) (he : escape? c = some e)
    (hrest : WritesDouble split indent rest)
    (hnext : WritesDouble split indent rest.tail) : WritesDouble split indent (c :: rest) := by
  intro first held h hused
  obtain ⟨e, rfl, -⟩ := escape?_eq he
  rw [doubleRest, he]
  dsimp only
  generalize hh : (h.put held.reverse).put ('\\' :: e) = h₁
  have hused₁ : h₁.fresh = false := by
    rw [← hh]
    exact hused
  have hwritten₁ : h₁.written = ('\\' :: e).reverse ++ (held ++ h.written) := by
    rw [← hh]
    simp [put]
  -- Where the line is folded, a space that would begin the next one is escaped.
  split_ifs with hfold
  · rw [fold_eq hused₁]
    cases rest with
    | nil => simp at hfold
    | cons d rest =>
      rw [List.headD_cons]
      by_cases hd : d = ' '
      · subst hd
        obtain ⟨t, hspells, -, -, hwritten⟩ := hnext false [' ']
          ⟨'\\' :: (List.replicate indent ' ' ++ '\n' :: '\\' :: h₁.written), indent + 1, false, false⟩ rfl
        refine ⟨_, .escape he (.fold (by rintro d ⟨⟩; decide) (.escapedBlank hspells)), by simp, by simp, ?_⟩
        rw [if_pos rfl, if_pos rfl, doubleRest_blank (Nat.succ_le_of_lt hindent)]
        refine hwritten.trans ?_
        simp [hwritten₁]
      · obtain ⟨t, hspells, hline, hspace, hwritten⟩ := hrest false []
          ⟨List.replicate indent ' ' ++ '\n' :: '\\' :: h₁.written, indent, false, false⟩ rfl
        refine ⟨_, .escape he (.fold (fun x hx => ⟨?_, ?_⟩) hspells), by simp, by simp, ?_⟩
        · rintro rfl
          exact hspace (by simpa using hd) hx
        · rintro rfl
          exact hline hx
        · rw [if_neg hd, if_neg hd]
          refine hwritten.trans ?_
          simp [hwritten₁]
  · obtain ⟨t, hspells, -, -, hwritten⟩ := hrest false [] h₁ hused₁
    refine ⟨_, .escape he hspells, by simp, by simp, ?_⟩
    rw [hwritten, hwritten₁]
    simp

theorem writesDouble_plain (he : escape? c = none) (hrest : WritesDouble split indent rest) :
    WritesDouble split indent (c :: rest) := by
  intro first held h hused
  obtain ⟨hprinted, -⟩ := escape?_none he
  rw [doubleRest, he]
  dsimp only
  split_ifs with hfold
  · have hput : (h.put held.reverse).fresh = false := hused
    rw [fold_eq hput]
    obtain ⟨t, hspells, hline, -, hwritten⟩ := hrest false [c] ⟨_, _, false, false⟩ rfl
    rw [hwritten]
    by_cases hc : c = ' '
    · subst hc
      refine ⟨_, .fold (by rintro d ⟨⟩; decide) (.escapedBlank hspells), by simp, by simp, ?_⟩
      simp [put]
    · refine ⟨_, .fold ?_ (spells_char he hline hspells), by simp, by simp, ?_⟩
      · rintro d ⟨⟩
        exact ⟨hc, ne_of_isPrinted hprinted rfl⟩
      · simp [put, hc]
  · obtain ⟨t, hspells, hline, -, hwritten⟩ := hrest false (c :: held) h hused
    refine ⟨_, spells_char he hline hspells, ?_, id, ?_⟩
    · rintro ⟨⟩
      cases hprinted
    · rw [hwritten]
      simp

theorem writesDouble (split : Bool) (hindent : indent < width) (s : List Char) : WritesDouble split indent s := by
  induction hn : s.length using Nat.strongRecOn generalizing s with
  | ind n ih =>
    cases s with
    | nil => exact fun first held h _ => ⟨[], .nil, by simp, by simp, by simp [doubleRest, put]⟩
    | cons c rest =>
      have hlt : rest.length < n := by
        rw [← hn]
        exact Nat.lt_succ_self _
      have hrest := ih rest.length hlt rest rfl
      cases he : escape? c with
      | none => exact writesDouble_plain he hrest
      | some e => exact writesDouble_escape hindent he hrest (ih _ (Nat.lt_of_le_of_lt (by simp) hlt) rest.tail rfl)

end Double

end Playpen.Yaml.Sheet
