import Playpen.Proofs.Data
import Playpen.Proofs.Yaml.Cursor
import Playpen.Yaml.Scalar.Plain

namespace Playpen.Yaml

structure IsWord (w : List Char) : Prop where
  nonempty : w ≠ []
  letters : w.all (fun c => isPrinted c && c ≠ ' ') = true
  first : w.head? ≠ some '#'
  last : w.getLast? ≠ some ':'

def LineStart (x : List Char) : Prop := ∀ c ∈ x.head?, isNameChar c = true ∨ (c = '-' ∧ (x.drop 1).head? = some ' ')

inductive PlainSpells (indent : Nat) : List Char → List Char → Prop
  | word {w : List Char} (hw : IsWord w) : PlainSpells indent w w
  | gap {w s t : List Char} (n : Nat) (hw : IsWord w) (h : PlainSpells indent s t) :
    PlainSpells indent (w ++ (List.replicate (n + 1) ' ' ++ s)) (w ++ (List.replicate (n + 1) ' ' ++ t))
  | fold {w s t : List Char} (hw : IsWord w) (h : PlainSpells indent s t) :
    PlainSpells indent (w ++ ' ' :: s) (w ++ '\n' :: (List.replicate indent ' ' ++ t))

section Characters

variable {c : Char}

theorem not_endsWord (h : (isPrinted c && c ≠ ' ') = true) : endsWord c = false := by
  simp only [Bool.and_eq_true, decide_eq_true_eq] at h
  rw [endsWord_of_isPrinted h.1]
  exact decide_eq_false h.2

theorem isPrinted_of_isNameChar (h : isNameChar c = true) : isPrinted c = true := by
  simp only [isNameChar, Bool.or_eq_true, Bool.and_eq_true, decide_eq_true_eq] at h
  rcases h with ⟨ha, hz⟩ | rfl
  · have ha' : 97 ≤ c.toNat := ha
    have hz' : c.toNat ≤ 122 := hz
    simp [isPrinted]
    omega
  · rfl

theorem ne_of_isNameChar {d : Char} (h : isNameChar c = true) (hd : isNameChar d = false) : c ≠ d := by
  rintro rfl
  rw [h] at hd
  cases hd

end Characters

section Lines

variable {x : List Char} {m : Nat} {c : Cursor}

theorem LineStart.head (h : LineStart x) : ∀ c ∈ x.head?, isPrinted c = true ∧ c ≠ ' ' ∧ c ≠ '#' := by
  intro c hc
  rcases h c hc with hname | ⟨rfl, -⟩
  · exact ⟨isPrinted_of_isNameChar hname, ne_of_isNameChar hname rfl, ne_of_isNameChar hname rfl⟩
  · decide

def EndsGap (rest : List Char) : Prop := ∀ x ∈ rest.head?, x ≠ ' ' ∧ isBreak x = false

theorem LineStart.endsGap (h : LineStart x) : EndsGap x := fun c hc =>
  ⟨(h.head c hc).2.1, isBreak_of_isPrinted (h.head c hc).1⟩

theorem LineStart.not_atSeparator (h : LineStart x) (hc : c.rest = List.replicate m ' ' ++ x) :
    c.atSeparator = false := by
  cases m with
  | succ m => exact Cursor.not_atSeparator (by rw [hc]; rintro _ ⟨⟩; decide)
  | zero =>
    rw [List.replicate_zero, List.nil_append] at hc
    cases x with
    | nil => exact Cursor.not_atSeparator (by rw [hc]; rintro _ ⟨⟩)
    | cons d x =>
      rcases h d rfl with hname | ⟨rfl, hspace⟩
      · apply Cursor.not_atSeparator
        rw [hc]
        rintro _ ⟨⟩
        exact ⟨ne_of_isNameChar hname rfl, ne_of_isNameChar hname rfl⟩
      · obtain ⟨y, rfl⟩ : ∃ y, x = ' ' :: y := by
          cases x with
          | nil => cases hspace
          | cons e y =>
            injection hspace with he
            exact ⟨y, by rw [he]⟩
        simp [Cursor.atSeparator, hc]

end Lines

section Gaps

variable {c : Cursor} {rest : List Char} {m fuel : Nat}

theorem EndsGap.peek (h : EndsGap rest) (hc : c.rest = rest) : c.peek ≠ ' ' ∧ isBreak c.peek = false := by
  cases rest with
  | nil => simp [Cursor.peek, hc, isBreak]
  | cons x rest =>
    rw [Cursor.peek_zero hc]
    exact h x rfl

theorem skipSpaces_append (hc : c.rest = List.replicate m ' ' ++ rest) (hrest : ∀ x ∈ rest.head?, x ≠ ' ') :
    c.span Cursor.isSpace = List.replicate m ' ' ∧ c.skipSpaces = c.advance m := by
  have hall : (List.replicate m ' ').all Cursor.isSpace = true := by
    rw [List.all_replicate]
    split <;> rfl
  have hends : ∀ x ∈ rest.head?, Cursor.isSpace x = false := fun x hx => by simp [Cursor.isSpace, hrest x hx]
  refine ⟨Cursor.span_append hc hall hends, ?_⟩
  rw [Cursor.skipSpaces, Cursor.skip_append hc hall hends, List.length_replicate]

theorem plainBreaks_spaces (hc : c.rest = List.replicate m ' ' ++ rest) (hrest : EndsGap rest) (hfuel : m < fuel) :
    plainBreaks fuel c = (some [], c.advance m) := by
  induction m generalizing c fuel with
  | zero =>
    obtain ⟨fuel, rfl⟩ : ∃ n, fuel = n + 1 := ⟨fuel - 1, by omega⟩
    obtain ⟨hspace, hbreak⟩ := hrest.peek hc
    rw [plainBreaks, if_neg hspace, hbreak]
    rfl
  | succ m ih =>
    obtain ⟨fuel, rfl⟩ : ∃ n, fuel = n + 1 := ⟨fuel - 1, by omega⟩
    rw [plainBreaks, if_pos (Cursor.peek_zero hc), ih (by rw [Cursor.rest_step, hc]; rfl) (by omega)]
    rfl

theorem plainGap_spaces (hc : c.rest = List.replicate m ' ' ++ rest) (hrest : EndsGap rest) :
    plainGap fuel c = (⟨List.replicate m ' ', false⟩, c.advance m) := by
  obtain ⟨hspan, hskip⟩ := skipSpaces_append hc fun x hx => (hrest x hx).1
  have hafter : (c.advance m).rest = rest := by
    rw [Cursor.rest_advance, hc, List.drop_left' (by simp)]
  rw [plainGap, hspan, hskip, (hrest.peek hafter).2]
  rfl

theorem plainGap_line (hc : c.rest = '\n' :: (List.replicate m ' ' ++ rest)) (hrest : EndsGap rest)
    (hseparator : c.step.atSeparator = false) (hfuel : m < fuel) :
    plainGap fuel c = (⟨[' '], true⟩, c.advance (m + 1)) := by
  obtain ⟨hspan, hskip⟩ := skipSpaces_append (m := 0) hc (by rintro _ ⟨⟩; decide)
  have hbreak : c.takeBreak = (['\n'], c.step) := by
    simp [Cursor.takeBreak, Cursor.peek_zero hc, isBreak, Cursor.breakText]
  have hbreaks := plainBreaks_spaces (c := c.step) (by rw [Cursor.rest_step, hc]; rfl) hrest hfuel
  have hskip : c.skipSpaces = c := hskip
  rw [plainGap, hspan, hskip, Cursor.peek_zero hc]
  simp only [show isBreak '\n' = true from rfl, if_true, hbreak, hseparator, hbreaks, Bool.false_eq_true, if_false]
  rfl

end Gaps

section Words

variable {c : Cursor} {w rest : List Char} {x : Char}

theorem plainWord_cons {d : Char} (hd : endsWord d = false) (h : d ≠ ':' ∨ endsWord (rest.headD '\x00') = false) :
    plainWord false (d :: rest) = d :: plainWord false rest := by
  rw [plainWord, hd]
  rcases h with h | h
  · simp [h]
  · simp only [h]
    simp

theorem plainWord_word (hw : IsWord w) (hx : endsWord x = true) : plainWord false (w ++ x :: rest) = w := by
  obtain ⟨hne, hletters, -, hlast⟩ := hw
  clear hne
  induction w with
  | nil => simp [plainWord, hx]
  | cons d w ih =>
    rw [List.all_cons, Bool.and_eq_true] at hletters
    have hd := not_endsWord hletters.1
    cases w with
    | nil =>
      have hcolon : d ≠ ':' := by
        rintro rfl
        exact hlast rfl
      rw [List.singleton_append, plainWord_cons hd (.inl hcolon)]
      simp [plainWord, hx]
    | cons e w =>
      have he := not_endsWord (Bool.and_eq_true_iff.mp (by simpa only [List.all_cons] using hletters.2)).1
      rw [List.cons_append, plainWord_cons hd
        (.inr (show endsWord ((e :: w ++ x :: rest).headD '\x00') = false from he)),
        ih hletters.2 (by rwa [List.getLast?_cons_cons] at hlast)]

theorem plainWord_name (hw : w.all isNameChar = true) (hrest : endsWord (rest.headD '\x00') = true) :
    plainWord false (w ++ ':' :: rest) = w := by
  induction w with
  | nil =>
    rw [List.nil_append, plainWord]
    simp only [hrest]
    simp
  | cons d w ih =>
    rw [List.all_cons, Bool.and_eq_true] at hw
    have hd := not_endsWord (c := d) (by simp [isPrinted_of_isNameChar hw.1, ne_of_isNameChar (d := ' ') hw.1 rfl])
    rw [List.cons_append, plainWord_cons hd (.inl (ne_of_isNameChar hw.1 rfl)), ih hw.2]

variable {ind : Int} {fuel : Nat} {done : Plain} {gap next : Gap} {c' : Cursor}

theorem plainFrom_word (hfirst : ∀ x ∈ w.head?, x ≠ '#') (hne : w ≠ []) (hc : c.rest = w ++ rest)
    (hword : plainWord false (w ++ rest) = w) (hgap : plainGap fuel (c.advance w.length) = (next, c')) :
    plainFrom false ind (fuel + 1) done gap c =
      if next.text.isEmpty || c'.peek = '#' || decide ((c'.column : Int) < ind) then
        (⟨w :: gap.text :: done.pieces, (c.advance w.length).mark, next.hasBreak⟩, c')
      else plainFrom false ind fuel ⟨w :: gap.text :: done.pieces, (c.advance w.length).mark,
      next.hasBreak⟩ next c' := by
  have hpeek : c.peek ≠ '#' := by
    obtain ⟨x, t, rfl⟩ := List.exists_cons_of_ne_nil hne
    rw [Cursor.peek_zero hc]
    exact hfirst x rfl
  have hempty : w.isEmpty = false := by
    rw [List.isEmpty_eq_false_iff]
    exact hne
  rw [plainFrom, if_neg hpeek, hc, hword, hempty]
  simp only [Bool.false_eq_true, if_false, hgap, Bool.not_false, Bool.true_and]

end Words

theorem IsWord.printed {w : List Char} (hw : IsWord w) : w.all isPrinted = true := by
  refine List.all_eq_true.mpr fun c hc => ?_
  have := List.all_eq_true.mp hw.letters c hc
  simp only [Bool.and_eq_true] at this
  exact this.1

theorem IsWord.hash {w : List Char} (hw : IsWord w) : ∀ x ∈ w.head?, x ≠ '#' := by
  rintro x hx rfl
  exact hw.first hx

namespace PlainSpells

variable {indent : Nat} {s t : List Char}

theorem head (h : PlainSpells indent s t) : ∃ c rest, t = c :: rest ∧ isPrinted c = true ∧ c ≠ ' ' ∧ c ≠ '#' := by
  have hword {w u : List Char} (hw : IsWord w) : ∃ c rest, w ++ u = c :: rest ∧ isPrinted c = true ∧ c ≠ ' ' ∧
      c ≠ '#' := by
    obtain ⟨hne, hletters, hfirst, -⟩ := hw
    obtain ⟨c, w, rfl⟩ := List.exists_cons_of_ne_nil hne
    simp only [List.all_cons, Bool.and_eq_true, decide_eq_true_eq] at hletters
    exact ⟨c, _, rfl, hletters.1.1, hletters.1.2, fun hc => hfirst (by rw [hc]; rfl)⟩
  cases h with
  | word hw => simpa using hword (u := []) hw
  | gap _ hw _ => exact hword hw
  | fold hw _ => exact hword hw

theorem endsGap (h : PlainSpells indent s t) (rest : List Char) : EndsGap (t ++ rest) := by
  obtain ⟨d, t', rfl, hprinted, hspace, -⟩ := h.head
  rintro _ ⟨⟩
  exact ⟨hspace, isBreak_of_isPrinted hprinted⟩

theorem peek (h : PlainSpells indent s t) {c : Cursor} {rest : List Char} (hc : c.rest = t ++ rest) : c.peek ≠ '#' := by
  obtain ⟨d, t', rfl, -, -, hhash⟩ := h.head
  rw [Cursor.peek_zero hc]
  exact hhash

end PlainSpells

def EndsPlain (ind : Int) (least : Nat) (done : Plain) (gap : Gap) (c : Cursor) (s : List Char) (c' : Cursor) : Prop :=
  ∃ pieces stop, (∀ fuel, least < fuel → plainFrom false ind fuel done gap c = (⟨pieces, stop, true⟩, c')) ∧
    pieces.reverse.flatten = done.pieces.reverse.flatten ++ gap.text ++ s

theorem EndsPlain.word {ind : Int} {least least' : Nat} {done : Plain} {gap next : Gap} {c c' c'' : Cursor}
    {w s rest : List Char}
    (hw : IsWord w) (hc : c.rest = w ++ rest) (hword : plainWord false (w ++ rest) = w) (hleast : least' < least)
    (hgap : ∀ fuel, least ≤ fuel → plainGap fuel (c.advance w.length) = (next, c')) (hnext : next.text ≠ [])
    (hpeek : c'.peek ≠ '#') (hcolumn : ind ≤ c'.column) (h : ∀ done, EndsPlain ind least' done next c' s c'') :
    EndsPlain ind least done gap c (w ++ (next.text ++ s)) c'' := by
  obtain ⟨pieces, stop, hread, hpieces⟩ := h ⟨w :: gap.text :: done.pieces, (c.advance w.length).mark, next.hasBreak⟩
  refine ⟨pieces, stop, fun fuel hfuel => ?_, by simp [hpieces]⟩
  obtain ⟨fuel, rfl⟩ : ∃ n, fuel = n + 1 := ⟨fuel - 1, by omega⟩
  rw [plainFrom_word hw.hash hw.nonempty hc hword (hgap fuel (by omega)), if_neg (by simp [hnext, hpeek]; omega),
    hread fuel (by omega)]

theorem PlainSpells.read {indent : Nat} {s t : List Char} (h : PlainSpells indent s t) {ind : Int}
    (hindent : ind ≤ indent)
    {m : Nat} (hm : (m : Int) < ind) {x : List Char} (hx : LineStart x) (done : Plain) (gap : Gap) {c : Cursor}
    (hc : c.rest = t ++ '\n' :: (List.replicate m ' ' ++ x)) (hcolumn : ind ≤ c.column) :
    EndsPlain ind (t.length + m + 1) done gap c s (c.advance (t.length + (m + 1))) := by
  -- Each word leaves the cursor behind its gap, and more pieces behind it, so all three are general.
  induction h generalizing c done gap with
  | @word w hw =>
    have hafter := Cursor.rest_advance_append hc
    have hstop : (((c.advance w.length).advance (m + 1)).column : Int) < ind := by
      rw [Cursor.advance_line hafter]
      exact hm
    refine ⟨[w, gap.text] ++ done.pieces, (c.advance w.length).mark, fun fuel hfuel => ?_, by simp⟩
    obtain ⟨fuel, rfl⟩ : ∃ n, fuel = n + 1 := ⟨fuel - 1, by omega⟩
    have hgap := plainGap_line hafter hx.endsGap (hx.not_atSeparator (m := m) (by rw [Cursor.rest_step, hafter]; rfl))
      (show m < fuel by omega)
    rw [plainFrom_word hw.hash hw.nonempty hc (plainWord_word hw rfl) hgap, if_pos (by simp [hstop]),
      Cursor.advance_add w.length]
    rfl
  | @gap w s t n hw h ih =>
    simp only [List.length_append, List.length_replicate]
    rw [List.append_assoc, List.append_assoc] at hc
    have hafter := Cursor.rest_advance_append hc
    have hnext : ((c.advance w.length).advance (n + 1)).rest = t ++ '\n' :: (List.replicate m ' ' ++ x) := by
      rw [Cursor.rest_advance, hafter, List.drop_left' (by simp)]
    have hgoes : ind ≤ ((c.advance w.length).advance (n + 1)).column := by
      have hspaces := Cursor.advance_printed hafter (Cursor.all_replicate_space (n + 1))
      rw [List.length_replicate] at hspaces
      rw [hspaces, Cursor.advance_printed hc hw.printed]
      show ind ≤ ((c.column + w.length + (n + 1) : Nat) : Int)
      omega
    have hmoved : c.advance (w.length + (n + 1 + t.length) + (m + 1)) =
        ((c.advance w.length).advance (n + 1)).advance (t.length + (m + 1)) := by
      rw [← Cursor.advance_add, ← Cursor.advance_add]
      congr 1
      omega
    rw [hmoved]
    exact .word hw hc (plainWord_word hw rfl) (show t.length + m + 1 < _ by omega)
      (fun _ _ => plainGap_spaces hafter (h.endsGap _)) (by simp) (h.peek hnext) hgoes fun done => ih done _ hnext hgoes
  | @fold w s t hw h ih =>
    simp only [List.length_append, List.length_replicate, List.length_cons]
    rw [List.append_assoc, List.cons_append, List.append_assoc] at hc
    have hafter := Cursor.rest_advance_append hc
    have hnext : ((c.advance w.length).advance (indent + 1)).rest = t ++ '\n' :: (List.replicate m ' ' ++ x) := by
      rw [Cursor.rest_advance, hafter]
      simp
    have hgoes : ind ≤ ((c.advance w.length).advance (indent + 1)).column := by
      rw [Cursor.advance_line hafter]
      exact hindent
    have hseparator : (c.advance w.length).step.atSeparator = false := by
      obtain ⟨k, hk⟩ : ∃ k, indent = k + 1 := ⟨indent - 1, by omega⟩
      apply Cursor.not_atSeparator
      rw [Cursor.rest_step, hafter, hk]
      rintro _ ⟨⟩
      decide
    have hmoved : c.advance (w.length + (indent + t.length + 1) + (m + 1)) =
        ((c.advance w.length).advance (indent + 1)).advance (t.length + (m + 1)) := by
      rw [← Cursor.advance_add, ← Cursor.advance_add]
      congr 1
      omega
    rw [hmoved]
    exact .word hw hc (plainWord_word hw rfl) (show t.length + m + 1 < _ by omega)
      (fun _ hfuel => plainGap_line hafter (h.endsGap _) hseparator (by omega)) (by simp) (h.peek hnext) hgoes
      fun done => ih done _ hnext hgoes

theorem PlainSpells.plain {indent : Nat} {s t : List Char} (h : PlainSpells indent s t) {ind : Int}
    (hindent : ind ≤ indent) {m : Nat} (hm : (m : Int) < ind) {x : List Char} (hx : LineStart x) {c : Cursor}
    (hc : c.rest = t ++ '\n' :: (List.replicate m ' ' ++ x)) (hcolumn : ind ≤ c.column) :
    ∃ p : Plain, (∀ fuel, t.length + m + 1 < fuel → Scan.plain false ind fuel c =
    (.ok p, c.advance (t.length + (m + 1)))) ∧
      p.text = s ∧ p.passedBreak = true := by
  obtain ⟨pieces, stop, hread, hpieces⟩ := h.read hindent hm hx { stop := c.mark } ⟨[], false⟩ hc hcolumn
  refine ⟨⟨pieces, stop, true⟩, fun fuel hfuel => ?_, by simpa [Plain.text] using hpieces, rfl⟩
  rw [Scan.plain, Act.bind_ok Scan.run_get, hread fuel hfuel]
  rfl

theorem plain_name {w rest : List Char} (hne : w ≠ []) (hw : w.all isNameChar = true)
    (hrest : endsWord (rest.headD '\x00') = true) {c : Cursor} (hc : c.rest = w ++ ':' :: rest) (ind : Int) :
    ∃ p : Plain, (∀ fuel, 0 < fuel → Scan.plain false ind fuel c = (.ok p, c.advance w.length)) ∧
      p.text = w ∧ p.passedBreak = false := by
  have hhash : ∀ x ∈ w.head?, x ≠ '#' := fun x hx =>
    ne_of_isNameChar (List.all_eq_true.mp hw x (List.mem_of_mem_head? hx)) rfl
  have hgap (fuel : Nat) : plainGap fuel (c.advance w.length) = (⟨[], false⟩, c.advance w.length) :=
    plainGap_spaces (m := 0) (Cursor.rest_advance_append hc) (by rintro _ ⟨⟩; decide)
  refine ⟨⟨[w, []], (c.advance w.length).mark, false⟩, fun fuel hfuel => ?_, by simp [Plain.text], rfl⟩
  obtain ⟨fuel, rfl⟩ : ∃ n, fuel = n + 1 := ⟨fuel - 1, by omega⟩
  have hread : plainFrom false ind (fuel + 1) { stop := c.mark } ⟨[], false⟩ c =
      (⟨[w, []], (c.advance w.length).mark, false⟩, c.advance w.length) :=
    plainFrom_word hhash hne hc (plainWord_name hw hrest) (hgap fuel)
  rw [Scan.plain, Act.bind_ok Scan.run_get, hread]
  rfl

end Playpen.Yaml
