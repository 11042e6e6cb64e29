import Playpen.Proofs.Json.Scalar

namespace Playpen.Json

variable {layout : Layout}

theorem skipSpace_append {blanks s : List Char} (hb : blanks.all isSpace = true)
    (hs : ∀ c ∈ s.head?, isSpace c = false) : skipSpace (blanks ++ s) = s :=
  (takeWhile_append hb hs).2

theorem line_spaces (layout : Layout) (depth : Nat) : (layout.line depth).all isSpace = true := by
  unfold Layout.line
  cases layout.indent with
  | none => rfl
  | some columns =>
    rw [List.all_cons, List.all_replicate]
    split <;> rfl

theorem line_stops (layout : Layout) (depth : Nat) {rest : List Char} (h : Stops rest) :
    Stops (layout.line depth ++ rest) := by
  unfold Layout.line
  cases layout.indent with
  | none => exact h
  | some columns =>
    rintro c ⟨⟩
    exact .inr (.inr (.inr rfl))

theorem between_eq (layout : Layout) (depth : Nat) :
    ∃ blanks, layout.between depth = ',' :: blanks ∧ blanks.all isSpace = true := by
  unfold Layout.between
  cases layout.indent with
  | none => exact ⟨_, rfl, rfl⟩
  | some columns => exact ⟨_, rfl, line_spaces layout depth⟩

theorem isSpace_of_opens {c : Char} (h : opens c = true) : isSpace c = false := by
  simp only [opens, Bool.not_eq_true', Bool.or_eq_false_iff] at h
  exact h.1.1.1

theorem Holds.head {text : List Char} {v : Value} (h : Holds text v) (rest : List Char) :
    ∀ c ∈ (text ++ rest).head?, isSpace c = false := by
  obtain ⟨c, t, rfl, hc⟩ := h.opening
  rintro _ ⟨⟩
  exact isSpace_of_opens hc

theorem append_draft (a b : List Char) : (⟨a, none⟩ : Draft) ++ (⟨b, none⟩ : Draft) = ⟨a ++ b, none⟩ := rfl

section Lists

variable {depth fuel : Nat} {s t rest rest' : List Char} {v : Value} {others : List Value}

theorem itemsOf_last (h : valueOf depth fuel s = .ok (v, t)) (ht : skipSpace t = ']' :: rest) :
    itemsOf depth (fuel + 1) s = .ok ([v], rest) := by
  simp only [itemsOf, h, bind, Except.bind, ht]

theorem itemsOf_more (h : valueOf depth fuel s = .ok (v, t)) (ht : skipSpace t = ',' :: rest)
    (hrest : itemsOf depth fuel (skipSpace rest) = .ok (others, rest')) :
    itemsOf depth (fuel + 1) s = .ok (v :: others, rest') := by
  simp only [itemsOf, h, bind, Except.bind, ht, hrest]

theorem valueOf_list (hd : depth < maxDepth) (hs : skipSpace s = t) (hne : ∀ rest, t ≠ ']' :: rest)
    (h : itemsOf (depth + 1) fuel t = .ok (others, rest)) :
    valueOf depth (fuel + 1) ('[' :: s) = .ok (.list others, rest) := by
  rw [valueOf, if_neg (by omega), hs]
  split
  · exact absurd rfl (hne _)
  · rw [h]
    rfl

theorem items_read (hlayout : layout.integer = Scalar.integerText) (depth : Nat) {items : List Scalar}
    (h : ∀ s ∈ items, s.IsPlain) : ∃ text, renderItems layout depth (items.map .scalar) = ⟨text, none⟩ ∧
      ∀ (first : List Char) (s : Scalar), Holds first (.scalar s) → ∀ (d fuel k : Nat) (rest : List Char),
        (first ++ text).length + 1 < fuel → d ≤ maxDepth →
          itemsOf d fuel (first ++ (text ++ (layout.line k ++ ']' :: rest))) =
            .ok ((s :: items).map .scalar, rest) := by
  induction items with
  | nil =>
    refine ⟨[], rfl, fun first s hs d fuel k rest hfuel hd => ?_⟩
    obtain ⟨fuel, rfl⟩ : ∃ n, fuel = n + 1 := ⟨fuel - 1, by omega⟩
    rw [List.append_nil] at hfuel
    have hstops : Stops (layout.line k ++ ']' :: rest) := line_stops layout k (by rintro c ⟨⟩; exact .inr (.inl rfl))
    have hskip : skipSpace (layout.line k ++ ']' :: rest) = ']' :: rest :=
      skipSpace_append (line_spaces layout k) (by rintro c ⟨⟩; rfl)
    exact itemsOf_last (hs.reads d fuel _ hstops (by omega) hd) hskip
  | cons s' items ih =>
    obtain ⟨hs', hitems⟩ := List.forall_mem_cons.mp h
    obtain ⟨text', htext', hholds⟩ := scalar_holds hlayout hs'
    obtain ⟨texts, htexts, hread⟩ := ih hitems
    obtain ⟨blanks, hbetween, hblanks⟩ := between_eq layout depth
    refine ⟨layout.between depth ++ text' ++ texts, ?_, fun first s hs d fuel k rest hfuel hd => ?_⟩
    · rw [List.map_cons, renderItems, render, htext', htexts]
      rfl
    · obtain ⟨fuel, rfl⟩ : ∃ n, fuel = n + 1 := ⟨fuel - 1, by omega⟩
      rw [hbetween] at hfuel ⊢
      simp only [List.length_append, List.length_cons, List.cons_append, List.append_assoc] at hfuel ⊢
      have hstops : Stops (',' :: (blanks ++ (text' ++ (texts ++ (layout.line k ++ ']' :: rest))))) := by
        rintro c ⟨⟩
        exact .inl rfl
      apply itemsOf_more (hs.reads d fuel _ hstops (by omega) hd) rfl
      rw [skipSpace_append hblanks (hholds.head _)]
      exact hread text' s' hholds d fuel k rest (by rw [List.length_append]; omega) hd

end Lists

section Records

variable {depth fuel : Nat} {s t rest rest' : List Char} {v : Value} {others : List (Scalar × Value)}

theorem pairsOf_last {name : String} {body : List Char} (hname : stringTail s = .ok (name, ':' :: body))
    (h : valueOf depth fuel (skipSpace body) = .ok (v, t)) (ht : skipSpace t = '\x7d' :: rest) :
    pairsOf depth (fuel + 1) ('"' :: s) = .ok ([(.text name, v)], rest) := by
  have hcolon : skipSpace (':' :: body) = ':' :: body := rfl
  simp only [pairsOf, hname, bind, Except.bind, hcolon, h, ht]

theorem pairsOf_more {name : String} {body : List Char} (hname : stringTail s = .ok (name, ':' :: body))
    (h : valueOf depth fuel (skipSpace body) = .ok (v, t)) (ht : skipSpace t = ',' :: rest)
    (hrest : pairsOf depth fuel (skipSpace rest) = .ok (others, rest')) :
    pairsOf depth (fuel + 1) ('"' :: s) = .ok ((.text name, v) :: others, rest') := by
  have hcolon : skipSpace (':' :: body) = ':' :: body := rfl
  simp only [pairsOf, hname, bind, Except.bind, hcolon, h, ht, hrest]

theorem valueOf_record (hd : depth < maxDepth) (hs : skipSpace s = t) (hne : ∀ rest, t ≠ '\x7d' :: rest)
    (h : pairsOf (depth + 1) fuel t = .ok (others, rest)) :
    valueOf depth (fuel + 1) ('\x7b' :: s) = .ok (.map (Value.ofPairs others), rest) := by
  rw [valueOf, if_neg (by omega), hs]
  split
  · exact absurd rfl (hne _)
  · rw [h]
    rfl

structure Written (layout : Layout) (depth : Nat) (v : Value) (text : List Char) : Prop where
  holds : Holds text v
  rendered : ∀ lead, render layout depth lead v = ⟨lead ++ text, none⟩

theorem renderEntries_cons {v : Value} {text : List Char} (h : Written layout depth v text) (lead : List Char)
    (name : String) {others : List (Scalar × Value)} {texts : List Char}
    (hothers : renderEntries layout depth (layout.between depth) others = ⟨texts, none⟩) :
    renderEntries layout depth lead ((.text name, v) :: others) =
      ⟨lead ++ string name ++ ':' :: ' ' :: text ++ texts, none⟩ := by
  rw [renderEntries, h.rendered, hothers]
  simp [key, Except.map, Draft.ofText, append_draft]

theorem entries_read (depth : Nat) (lead : List Char) {entries : List (String × Value)} (hne : entries ≠ [])
    (h : ∀ e ∈ entries, ∃ text, Written layout depth e.2 text) :
    ∃ text, renderEntries layout depth lead (entries.map fun e => (.text e.1, e.2)) = ⟨lead ++ '"' :: text, none⟩ ∧
      ∀ (d fuel k : Nat) (rest : List Char), text.length + 1 < fuel →
        (∀ e ∈ entries, d + e.2.depth ≤ maxDepth) →
          pairsOf d fuel ('"' :: text ++ (layout.line k ++ '\x7d' :: rest)) =
            .ok (entries.map fun e => (.text e.1, e.2), rest) := by
  -- What stands in front is general: the first entry follows the brace, all others a comma.
  induction entries generalizing lead with
  | nil => exact absurd rfl hne
  | cons e entries ih =>
    obtain ⟨⟨value, hvalue⟩, hentries⟩ := List.forall_mem_cons.mp h
    have hread := hvalue.holds.reads
    cases entries with
    | nil =>
      refine ⟨e.1.toList.flatMap escape ++ '"' :: ':' :: ' ' :: value, ?_, fun d fuel k rest hfuel hd => ?_⟩
      · rw [List.map_singleton, renderEntries_cons hvalue lead e.1 rfl]
        simp [string]
      · obtain ⟨fuel, rfl⟩ : ∃ n, fuel = n + 1 := ⟨fuel - 1, by omega⟩
        simp only [List.length_append, List.length_cons] at hfuel
        have hstops : Stops (layout.line k ++ '\x7d' :: rest) :=
          line_stops layout k (by rintro c ⟨⟩; exact .inr (.inr (.inl rfl)))
        have hskip : skipSpace (layout.line k ++ '\x7d' :: rest) = '\x7d' :: rest :=
          skipSpace_append (line_spaces layout k) (by rintro c ⟨⟩; rfl)
        have hblank : skipSpace (' ' :: (value ++ (layout.line k ++ '\x7d' :: rest))) =
            value ++ (layout.line k ++ '\x7d' :: rest) :=
          skipSpace_append (show [' '].all isSpace = true from rfl) (hvalue.holds.head _)
        simp only [List.cons_append, List.append_assoc]
        apply pairsOf_last (stringTail_string e.1 _) _ hskip
        rw [hblank]
        exact hread d fuel _ hstops (by omega) (hd e (List.mem_cons_self ..))
    | cons e' entries =>
      obtain ⟨texts, htexts, hreads⟩ := ih (layout.between depth) (List.cons_ne_nil _ _) hentries
      obtain ⟨blanks, hbetween, hblanks⟩ := between_eq layout depth
      refine ⟨e.1.toList.flatMap escape ++ '"' :: ':' :: ' ' :: value ++ (layout.between depth ++ '"' :: texts), ?_,
        fun d fuel k rest hfuel hd => ?_⟩
      · rw [List.map_cons, renderEntries_cons hvalue lead e.1 htexts]
        simp [string]
      · obtain ⟨fuel, rfl⟩ : ∃ n, fuel = n + 1 := ⟨fuel - 1, by omega⟩
        rw [hbetween] at hfuel ⊢
        simp only [List.length_append, List.length_cons] at hfuel
        obtain ⟨hde, hdentries⟩ := List.forall_mem_cons.mp hd
        simp only [List.cons_append, List.append_assoc]
        have hstops : Stops (',' :: (blanks ++ '"' :: (texts ++ (layout.line k ++ '\x7d' :: rest)))) := by
          rintro c ⟨⟩
          exact .inl rfl
        have hblank : skipSpace (' ' ::
            (value ++ ',' :: (blanks ++ '"' :: (texts ++ (layout.line k ++ '\x7d' :: rest))))) =
            value ++ ',' :: (blanks ++ '"' :: (texts ++ (layout.line k ++ '\x7d' :: rest))) :=
          skipSpace_append (show [' '].all isSpace = true from rfl) (hvalue.holds.head _)
        have hv : valueOf d fuel (skipSpace
            (' ' :: (value ++ ',' :: (blanks ++ '"' :: (texts ++ (layout.line k ++ '\x7d' :: rest)))))) =
            .ok (e.2, ',' :: (blanks ++ '"' :: (texts ++ (layout.line k ++ '\x7d' :: rest)))) := by
          rw [hblank]
          exact hread d fuel _ hstops (by omega) hde
        apply pairsOf_more (stringTail_string e.1 _) hv rfl
        rw [skipSpace_append hblanks (by rintro c ⟨⟩; rfl)]
        exact hreads d fuel k rest (by omega) hdentries

end Records

theorem written_list (hlayout : layout.integer = Scalar.integerText) (depth : Nat) {items : List Scalar}
    (h : ∀ s ∈ items, s.IsPlain) : ∃ text, Written layout depth (.list (items.map .scalar)) text := by
  cases items with
  | nil =>
    refine ⟨['[', ']'], ⟨⟨'[', [']'], rfl, rfl⟩, fun d fuel rest _ hfuel hd => ?_⟩,
      fun lead => by rw [List.map_nil, render, renderAll]⟩
    obtain ⟨fuel, rfl⟩ : ∃ n, fuel = n + 1 := ⟨fuel - 1, by omega⟩
    have hd' : ¬ maxDepth ≤ d := Nat.not_le.mpr hd
    simp [valueOf, hd', skipSpace, isSpace]
  | cons s items =>
    obtain ⟨hs, hitems⟩ := List.forall_mem_cons.mp h
    obtain ⟨first, hfirst, hholds⟩ := scalar_holds hlayout hs
    obtain ⟨texts, htexts, hread⟩ := items_read hlayout (depth + 1) hitems
    refine ⟨'[' :: layout.line (depth + 1) ++ first ++ texts ++ layout.line depth ++ [']'],
      ⟨⟨'[', _, rfl, rfl⟩, fun d fuel rest _ hfuel hd => ?_⟩, fun lead => ?_⟩
    · obtain ⟨fuel, rfl⟩ : ∃ n, fuel = n + 1 := ⟨fuel - 1, by omega⟩
      simp only [List.cons_append, List.append_assoc, List.length_cons, List.length_append, List.nil_append] at hfuel ⊢
      have hd' : d + 1 ≤ maxDepth := Nat.le_trans (by rw [Value.depth]; omega) hd
      apply valueOf_list hd' (skipSpace_append (line_spaces layout _) (hholds.head _))
      · obtain ⟨c, t, rfl, hc⟩ := hholds.opening
        rintro rest ⟨⟩
        cases hc
      · exact hread first s hholds (d + 1) fuel depth rest (by rw [List.length_append]; omega) hd'
    · rw [List.map_cons, render, renderAll, render, hfirst, htexts]
      simp [append_draft]

theorem written_record (depth : Nat) {entries : List (String × Value)} (hne : entries ≠ [])
    (hdistinct : (entries.map Prod.fst).Nodup) (h : ∀ e ∈ entries, ∃ text, Written layout (depth + 1) e.2 text) :
    ∃ text, Written layout depth (record entries) text := by
  obtain ⟨text, htext, hread⟩ := entries_read (depth + 1) [] hne h
  refine ⟨'\x7b' :: layout.line (depth + 1) ++ '"' :: text ++ layout.line depth ++ ['\x7d'],
    ⟨⟨'\x7b', _, rfl, rfl⟩, fun d fuel rest _ hfuel hd => ?_⟩, fun lead => ?_⟩
  · obtain ⟨fuel, rfl⟩ : ∃ n, fuel = n + 1 := ⟨fuel - 1, by omega⟩
    simp only [List.cons_append, List.append_assoc, List.length_cons, List.length_append, List.nil_append] at hfuel ⊢
    have hentries : ∀ e ∈ entries, d + 1 + e.2.depth ≤ maxDepth := fun e he => by
      have := Value.depth_le_deepestEntry he
      rw [record, Value.depth] at hd
      omega
    have hskip : skipSpace (layout.line (depth + 1) ++ '"' :: (text ++ (layout.line depth ++ '\x7d' :: rest))) =
        '"' :: (text ++ (layout.line depth ++ '\x7d' :: rest)) :=
      skipSpace_append (line_spaces layout _) (by rintro c ⟨⟩; rfl)
    rw [valueOf_record (Nat.le_trans (by rw [record, Value.depth]; omega) hd) hskip (by rintro rest ⟨⟩)
      (hread (d + 1) fuel depth rest (by omega) hentries), Value.ofPairs_record hdistinct]
    rfl
  · obtain ⟨e, others, rfl⟩ := List.exists_cons_of_ne_nil hne
    rw [List.map_cons] at htext
    rw [record, List.map_cons, render, htext, append_draft, append_draft]
    · simp
    · exact List.cons_ne_nil _ _

theorem written_data (hlayout : layout.integer = Scalar.integerText) {v : Value} (h : v.IsData) (depth : Nat) :
    ∃ text, Written layout depth v text := by
  induction h generalizing depth with
  | scalar h =>
    obtain ⟨text, htext, hholds⟩ := scalar_holds hlayout h
    exact ⟨text, hholds, fun lead => by rw [render, htext]⟩
  | list h => exact written_list hlayout depth h
  | record hne _ hdistinct _ ih => exact written_record depth hne hdistinct fun e he => ih e he (depth + 1)

theorem skipSpace_self {text : List Char} {v : Value} (h : Holds text v) : skipSpace text = text := by
  simpa using skipSpace_append (show [].all isSpace = true from rfl) (h.head [])

theorem parse_draft (hlayout : layout.integer = Scalar.integerText) {v : Value} (h : v.IsData)
    (hd : v.depth ≤ maxDepth) :
    ∃ text, draft layout v = ⟨text, none⟩ ∧ parse text = .ok v := by
  obtain ⟨text, htext⟩ := written_data hlayout h 0
  refine ⟨text, htext.rendered [], ?_⟩
  have hread := htext.holds.reads 0 (2 * text.length + 2) [] (by rintro c ⟨⟩) (by omega) (by omega)
  rw [List.append_nil] at hread
  have hmark : text.head? ≠ some '\ufeff' := by
    obtain ⟨c, t, rfl, hc⟩ := htext.holds.opening
    rintro ⟨⟩
    cases hc
  rw [parse, if_neg hmark, skipSpace_self htext.holds, hread]
  rfl

end Playpen.Json
