import Playpen.Proofs.Yaml.Sheet

namespace Playpen.Yaml

namespace Style

variable {s : List Char}

theorem isPrinted_of_not_special {c : Char} (hspecial : isSpecial c = false) (hbreak : c ≠ '\n') :
    isPrinted c = true := by
  simpa [isSpecial, hbreak, isPrinted] using hspecial

theorem quiet_of_hasIndicator (h : hasIndicator s = false) : Sheet.Quiet ' ' s := by
  cases s with
  | nil => rfl
  | cons c rest =>
    simp only [hasIndicator, Bool.or_eq_false_iff] at h
    obtain ⟨⟨-, hleads⟩, hrest⟩ := h
    rw [leads, Bool.or_eq_false_iff] at hleads
    refine Sheet.quiet_cons.mpr ⟨?_, hrest⟩
    have hhash : c ≠ '#' := by
      rintro rfl
      cases hleads.1
    rw [interrupts, Bool.or_eq_false_iff]
    refine ⟨?_, by simp [hhash]⟩
    by_cases hcolon : c = ':'
    · subst hcolon
      simpa using hleads.2
    · simp [hcolon]

def Opens (s : List Char) : Prop := ∃ c rest, s = c :: rest ∧ leads c (rest.headD '\x00') = false

theorem opens_of_allowsPlain (h : allowsPlain s = true) (hne : s ≠ []) : Opens s := by
  obtain ⟨c, rest, rfl⟩ := List.exists_cons_of_ne_nil hne
  simp only [allowsPlain, Bool.not_eq_true', Bool.or_eq_false_iff, hasIndicator] at h
  exact ⟨c, rest, rfl, h.2.1.2⟩

theorem isPlain_of_allowsPlain (h : allowsPlain s = true) : Sheet.IsPlain s := by
  simp only [allowsPlain, Bool.not_eq_true', Bool.or_eq_false_iff] at h
  obtain ⟨⟨⟨⟨hfirst, hlast⟩, hlines⟩, hspecial⟩, hindicator⟩ := h
  have hgap {c : Char} (h : isGap c = false) : c ≠ ' ' := by
    rintro rfl
    cases h
  refine ⟨List.all_eq_true.mpr fun c hc => ?_, fun c hc => ?_, fun c hc => ?_, quiet_of_hasIndicator hindicator⟩
  · refine isPrinted_of_not_special (by simpa using List.any_eq_false.mp hspecial c hc) ?_
    rintro rfl
    exact absurd rfl (List.any_eq_false.mp hlines _ hc)
  · rw [hc] at hfirst
    exact hgap hfirst
  · rw [hc] at hlast
    exact hgap hlast

theorem lines_of_allowsSingle (h : allowsSingle s = true) : Sheet.Lines s := by
  simp only [allowsSingle, Bool.not_eq_true', Bool.or_eq_false_iff] at h
  obtain ⟨⟨hbreak, hspace⟩, hspecial⟩ := h
  refine Sheet.lines_of_pairs (fun c hc => ?_) hbreak hspace
  by_cases hline : c = '\n'
  · exact .inr hline
  · exact .inl (isPrinted_of_not_special (by simpa using List.any_eq_false.mp hspecial c hc) hline)

def isTame (c : Char) : Bool := isPrinted c && !(c = ' ' || c = ':' || c = '#')

theorem neighbours_tame (before : Char) (hs : s.all isTame = true) :
    (neighbours before s).any (fun (b, c, next) => interrupts b c next) = false := by
  induction s generalizing before with
  | nil => rfl
  | cons c s ih =>
    rw [List.all_cons, Bool.and_eq_true] at hs
    obtain ⟨hc, hs⟩ := hs
    simp only [isTame, Bool.and_eq_true, Bool.not_eq_true', Bool.or_eq_false_iff, decide_eq_false_iff_not] at hc
    rw [neighbours, List.any_cons, ih c hs]
    simp [interrupts, hc.2.1.2, hc.2.2]

theorem allowsPlain_tame {c : Char} (hs : (c :: s).all isTame = true) (hleads : leads c (s.headD '\x00') = false)
    (hseparator : startsSeparator (c :: s) = false) : allowsPlain (c :: s) = true := by
  have htame (d : Char) (hd : d ∈ c :: s) : isPrinted d = true ∧ d ≠ ' ' := by
    have := List.all_eq_true.mp hs d hd
    simp only [isTame, Bool.and_eq_true, Bool.not_eq_true', Bool.or_eq_false_iff, decide_eq_false_iff_not] at this
    exact ⟨this.1, this.2.1.1⟩
  have hgap (d : Char) (hd : d ∈ c :: s) : isGap d = false := by
    simp [isGap, (htame d hd).2, isBreak_of_isPrinted (htame d hd).1]
  have hlast : (c :: s).getLast?.any isGap = false := by
    rw [List.getLast?_eq_some_getLast (List.cons_ne_nil c s)]
    exact hgap _ (List.getLast_mem _)
  have hlines : isMultiline (c :: s) = false :=
    List.any_eq_false.mpr fun d hd => by simp [isBreak_of_isPrinted (htame d hd).1]
  have hspecial : (c :: s).any isSpecial = false := by
    refine List.any_eq_false.mpr fun d hd => ?_
    have := (htame d hd).1
    simp only [isPrinted] at this
    simp [isSpecial, this]
  have hindicator : hasIndicator (c :: s) = false := by
    rw [List.all_cons, Bool.and_eq_true] at hs
    rw [hasIndicator, hseparator, hleads, neighbours_tame c hs.2]
    rfl
  simp only [allowsPlain, List.head?_cons, Option.any_some, hgap c (List.mem_cons_self ..), hlast, hlines, hspecial,
    hindicator]
  rfl

end Style

namespace Sheet

variable {h : Sheet} {indent : Nat} {s : List Char}

theorem wrote_plain (split : Bool) (hblank : h.blank = false) (hs : IsPlain s) (hne : s ≠ []) :
    ∃ t, PlainSpells indent s t ∧ Wrote h (' ' :: t) (h.plain split indent s) := by
  have hstart : Wrote h [' '] (h.put [' ']).inUse := ⟨rfl, rfl⟩
  obtain ⟨t, hspells, hwrote⟩ := (hs.sentence hne).wrote split indent hstart.used
  refine ⟨t, hspells, ?_⟩
  have hempty : s.isEmpty = false := by rwa [List.isEmpty_eq_false_iff]
  rw [plain, hempty, if_neg Bool.false_ne_true, hblank, if_neg Bool.false_ne_true]
  exact hstart.trans hwrote

theorem wrote_mark (c : Char) (h : Sheet) : Wrote h [c] (h.mark [c] false) := ⟨by simp [mark, put], rfl⟩

theorem wrote_opening (c : Char) (hblank : h.blank = false) : Wrote h [' ', c] (h.mark [c] true) :=
  ⟨by simp [mark, put, hblank], rfl⟩

theorem wrote_single (split : Bool) (hindent : indent ≤ width) (hblank : h.blank = false) (hs : Lines s) :
    ∃ t, Spells indent .single s t ∧ Wrote h (' ' :: '\'' :: t ++ ['\'']) (h.single split indent s) := by
  obtain ⟨t, hspells, -, hwritten⟩ := hs.wrote split hindent true (h.mark ['\''] true)
  refine ⟨t, hspells, ?_, rfl⟩
  rw [single, (wrote_mark _ _).written, hwritten, (wrote_opening _ hblank).written]
  simp

theorem wrote_double (split : Bool) (hindent : indent < width) (hblank : h.blank = false) (s : List Char) :
    ∃ t, Spells indent .double s t ∧ Wrote h (' ' :: '"' :: t ++ ['"']) (h.double split indent s) := by
  obtain ⟨t, hspells, -, -, hwritten⟩ := writesDouble split hindent s true [] (h.mark ['"'] true) rfl
  refine ⟨t, hspells, ?_, rfl⟩
  rw [double, (wrote_mark _ _).written, hwritten, (wrote_opening _ hblank).written]
  simp

theorem wrote_scalar (hindent : indent < width) (hblank : h.blank = false) (tag : String)
    (hne : Schema.tagOf s = tag → s ≠ []) :
    (Schema.tagOf s = tag ∧ Style.Opens s ∧
        ∃ t, PlainSpells indent s t ∧ Wrote h (' ' :: t) (h.scalar tag false indent s)) ∨
      ((Schema.tagOf s = tag → Style.allowsPlain s = false) ∧ ∃ q t, Spells indent q s t ∧
        Wrote h (' ' :: q.mark :: t ++ [q.mark]) (h.scalar tag false indent s)) := by
  rw [scalar, Style.choose]
  split_ifs with hplain hsingle
  · simp only [Bool.and_eq_true, decide_eq_true_eq] at hplain
    obtain ⟨t, ht⟩ := wrote_plain (!false) hblank (Style.isPlain_of_allowsPlain hplain.1.2) (hne hplain.1.1)
    exact .inl ⟨hplain.1.1, Style.opens_of_allowsPlain hplain.1.2 (hne hplain.1.1), t, ht⟩
  · simp at hsingle hplain
    obtain ⟨t, ht⟩ := wrote_single (!false) (Nat.le_of_lt hindent) hblank (Style.lines_of_allowsSingle hsingle)
    exact .inr ⟨hplain, .single, t, ht⟩
  · simp at hplain
    obtain ⟨t, ht⟩ := wrote_double (!false) hindent hblank s
    exact .inr ⟨hplain, .double, t, ht⟩

end Sheet

end Playpen.Yaml
