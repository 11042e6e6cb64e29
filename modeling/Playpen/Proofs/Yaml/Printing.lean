import Playpen.Proofs.Yaml.Blocks
import Playpen.Proofs.Yaml.Reading

namespace Playpen.Yaml

def isLaid (c : Char) : Bool := isPrinted c || c = '\n'

section Laid

variable {indent : Nat} {s t : List Char} {k : Token.Kind}

theorem isLaid_of_isPrinted {c : Char} (h : isPrinted c = true) : isLaid c = true := by
  rw [isLaid, h, Bool.true_or]

theorem IsWord.laid {w : List Char} (h : IsWord w) : w.all isLaid = true := by
  refine List.all_eq_true.mpr fun c hc => isLaid_of_isPrinted ?_
  have := List.all_eq_true.mp h.letters c hc
  simp only [Bool.and_eq_true] at this
  exact this.1

theorem all_isLaid {w : List Char} (h : w.all isPrinted = true) : w.all isLaid = true :=
  List.all_eq_true.mpr fun c hc => isLaid_of_isPrinted (List.all_eq_true.mp h c hc)

theorem isLaid_space : isLaid ' ' = true := rfl

theorem isLaid_line : isLaid '\n' = true := rfl

theorem PlainSpells.laid (h : PlainSpells indent s t) : t.all isLaid = true := by
  induction h with
  | word hw => exact hw.laid
  | gap n hw h ih => simp [hw.laid, ih, isLaid_space]
  | fold hw h ih => simp [hw.laid, ih, isLaid_space, isLaid_line]

theorem Spells.laid {q : Quote} (h : Spells indent q s t) : t.all isLaid = true := by
  induction h with
  | nil => rfl
  | plain hp hc h ih => simp [isLaid_of_isPrinted hp, ih]
  | blanks n ht h ih => simp [ih, isLaid_space]
  | lines k ht h ih => simp [ih, isLaid_space, isLaid_line]
  | apostrophe h ih => exact Bool.and_eq_true_iff.mpr ⟨rfl, Bool.and_eq_true_iff.mpr ⟨rfl, ih⟩⟩
  | other hc h ih =>
    refine Bool.and_eq_true_iff.mpr ⟨?_, ih⟩
    rcases hc with ⟨-, rfl⟩ | ⟨-, rfl | rfl⟩ <;> rfl
  | escape he h ih =>
    obtain ⟨e, rfl, hprinted⟩ := Sheet.escape?_eq he
    rw [List.all_append, ih, Bool.and_true]
    exact Bool.and_eq_true_iff.mpr ⟨rfl, all_isLaid hprinted⟩
  | escapedBlank h ih => exact Bool.and_eq_true_iff.mpr ⟨rfl, Bool.and_eq_true_iff.mpr ⟨rfl, ih⟩⟩
  | fold ht h ih => exact Bool.and_eq_true_iff.mpr ⟨rfl, Bool.and_eq_true_iff.mpr ⟨rfl, by simp [ih, isLaid_space]⟩⟩

theorem ScalarText.laid (h : ScalarText indent t k) : t.all isLaid = true := by
  cases h with
  | plain hopens h => exact h.laid
  | @quoted q s t h =>
    have hmark : isLaid q.mark = true := by cases q <;> rfl
    simp [h.laid, hmark]

theorem laid_newLine (n : Nat) (h : t.all isLaid = true) : (Lex.newLine n t).all isLaid = true := by
  simp [Lex.newLine, h, isLaid_space, isLaid_line]

end Laid

namespace Printer

open Yaml.Lex (Lexes Line Block Opens newLine page)
open Yaml.Read (Parses ParsesEntries)

variable {n : Nat} {v : Value} {h : Sheet}

structure Spelled (n : Nat) (v : Value) (t : List Char) (ks : List Token.Kind) : Prop where
  lexes : Lexes n t ks
  parses : Parses v ks
  opens : Opens t
  laid : t.all isLaid = true

def Prints (n : Nat) (v : Value) : Prop :=
  ∀ h : Sheet, h.fresh = false → h.blank = false →
    ∃ h' t ks, node (some n) true v h = .ok h' ∧ Sheet.Wrote h t h' ∧ Spelled n v t ks

theorem opens_cons {c : Char} (hc : endsWord c = true) (t : List Char) : Opens (c :: t) := fun _ => hc

theorem node_scalar {s : Scalar} {tag : String} {text : List Char} (inMapping : Bool)
    (htext : textOf s = .ok (tag, text)) (hbinary : tag ≠ core "binary") : node (some n) inMapping (.scalar s) h =
    .ok (h.scalar tag false (n + 2) text) := by
  rw [node, htext]
  show Except.ok (scalar (some n) false tag text h) = _
  rw [scalar, if_neg hbinary]
  rfl

theorem Prints.scalar {s : Scalar} (hs : s.IsPlain) (hn : n + 2 < Sheet.width) : Prints n (.scalar s) := by
  intro h hfresh hblank
  obtain ⟨tag, text, t, k, htext, hbinary, hscalar, hmeans, hwrote⟩ := wrote_scalar hn hblank hs
  exact ⟨_, _, _, node_scalar true htext hbinary, hwrote, Lexes.scalar hscalar, .scalar hmeans, opens_cons rfl t,
    Bool.and_eq_true_iff.mpr ⟨rfl, hscalar.laid⟩⟩

theorem Prints.brackets : Prints n (.list []) := by
  intro h hfresh hblank
  refine ⟨_, [' ', '[', ']'], _, by rw [node], ?_, Lexes.brackets, .brackets, opens_cons rfl _, rfl⟩
  have hput : Sheet.Wrote (h.mark ['['] true) [']'] ((h.mark ['['] true).put [']']) := .put rfl _
  exact (Sheet.wrote_opening '[' hblank).trans hput

theorem wrote_newLine {t : List Char} {h' : Sheet} (hfresh : h.fresh = false)
    (hwrote : Sheet.Wrote (h.indentTo n) t h') :
    Sheet.Wrote h (newLine n t) h' := by
  refine ⟨?_, hwrote.used⟩
  rw [hwrote.written, Sheet.indentTo_used (.inl hfresh)]
  simp [newLine]

theorem wrote_item {s : Scalar} (hs : s.IsPlain) (hn : n + 2 < Sheet.width) (hfresh : h.fresh = false) :
    ∃ h' t k, node (some n) false (.scalar s) ((h.indentTo n).entryMark '-') = .ok h' ∧
      Sheet.Wrote h (newLine n ('-' :: ' ' :: t)) h' ∧ ScalarText (n + 2) t k ∧ k.Means s := by
  obtain ⟨tag, text, t, k, htext, hbinary, hscalar, hmeans, hwrote⟩ :=
    wrote_scalar (h := (h.indentTo n).entryMark '-') hn rfl hs
  refine ⟨_, t, k, node_scalar false htext hbinary, wrote_newLine hfresh ⟨?_, hwrote.used⟩, hscalar, hmeans⟩
  have hmark : ((h.indentTo n).entryMark '-').written = '-' :: (h.indentTo n).written := by
    rw [Sheet.indentTo_used (.inl hfresh)]
    rfl
  rw [hwrote.written, hmark]
  simp

def itemLines (ps : List (List Char × Scalar × Token.Kind)) : List (List Char × List Token.Kind) :=
  ps.map fun p => ('-' :: ' ' :: p.1, [.blockEntry, p.2.2])

theorem items_ok {xs : List Scalar} (hxs : ∀ s ∈ xs, s.IsPlain) (hn : n + 2 < Sheet.width) (hfresh : h.fresh = false) :
    ∃ h' ps, items n (xs.map .scalar) h = .ok h' ∧ Sheet.Wrote h (page n (itemLines ps)) h' ∧
    (ps.map Prod.snd).map Prod.fst = xs ∧
      ∀ p ∈ ps, ScalarText (n + 2) p.1 p.2.2 ∧ p.2.2.Means p.2.1 := by
  induction xs generalizing h with
  | nil => exact ⟨h, [], by rw [List.map_nil, items], ⟨rfl, hfresh⟩, rfl, nofun⟩
  | cons s xs ih =>
    obtain ⟨hs, hxs⟩ := List.forall_mem_cons.mp hxs
    obtain ⟨h₁, t, k, hnode, hwrote, hscalar, hmeans⟩ := wrote_item hs hn hfresh
    obtain ⟨h₂, ps, hitems, hwrote₂, hvalues, hps⟩ := ih hxs hwrote.used
    refine ⟨h₂, (t, s, k) :: ps, ?_, hwrote.trans hwrote₂, by rw [List.map_cons, List.map_cons, hvalues],
      List.forall_mem_cons.mpr ⟨⟨hscalar, hmeans⟩, hps⟩⟩
    rw [List.map_cons, items, hnode]
    exact hitems

theorem laid_page {ps : List (List Char × List Token.Kind)} (hps : ∀ p ∈ ps, p.1.all isLaid = true) :
    (page n ps).all isLaid = true := by
  rw [page, List.all_flatMap, List.all_eq_true]
  exact fun p hp => laid_newLine n (hps p hp)

theorem opens_newLine (n : Nat) (t : List Char) : Opens (newLine n t) := opens_cons rfl _

theorem node_items {x : Value} {xs : List Value} (hfresh : h.fresh = false) :
    node (some n) true (.list (x :: xs)) h = items n (x :: xs) h := by
  rw [node, itemIndent, hfresh]
  · rfl
  · exact List.cons_ne_nil _ _

theorem Prints.items {xs : List Scalar} (hxs : ∀ s ∈ xs, s.IsPlain) (hne : xs ≠ []) (hn : n + 2 < Sheet.width) :
    Prints n (.list (xs.map .scalar)) := by
  intro h hfresh hblank
  obtain ⟨h', ps, hitems, hwrote, rfl, hps⟩ := items_ok hxs hn hfresh
  obtain ⟨p, ps, rfl⟩ := List.exists_cons_of_ne_nil (show ps ≠ [] by simpa using hne)
  have htokens : (itemLines (p :: ps)).flatMap Prod.snd = ((p :: ps).map Prod.snd).flatMap fun p =>
      [.blockEntry, p.2] := by
    simp [itemLines, List.flatMap_map]
  have hmeans : ∀ q ∈ (p :: ps).map Prod.snd, q.2.Means q.1 := fun q hq => by
    obtain ⟨p, hp, rfl⟩ := List.mem_map.mp hq
    exact (hps p hp).2
  have hparses := Parses.items hmeans (by simp)
  rw [← htokens] at hparses
  refine ⟨h', _, _, (node_items hfresh).trans hitems, hwrote, Lexes.lines fun q hq => ?_, hparses, ?_,
    laid_page fun q hq => ?_⟩
  · obtain ⟨p, hp, rfl⟩ := List.mem_map.mp hq
    exact .item (hps p hp).1
  · rw [itemLines, List.map_cons, page, List.flatMap_cons, newLine, List.cons_append]
    exact opens_cons rfl _
  · obtain ⟨p, hp, rfl⟩ := List.mem_map.mp hq
    exact Bool.and_eq_true_iff.mpr ⟨rfl, Bool.and_eq_true_iff.mpr ⟨rfl, (hps p hp).1.laid⟩⟩

theorem laid_name {name : String} (hname : IsName name) : name.toList.all isLaid = true :=
  List.all_eq_true.mpr fun c hc => isLaid_of_isPrinted
  (isPrinted_of_isNameChar (List.all_eq_true.mp hname.letters c hc))

section Entries

variable {name : String} {es : List (String × Value)}

theorem wrote_entry (hname : IsName name) (hv : Prints n v) (hblank : (h.indentTo n).blank = true)
    (rest : List (Scalar × Value)) :
    ∃ h' t ks, entries n ((.text name, v) :: rest) h = entries n rest h' ∧
    Sheet.Wrote (h.indentTo n) (name.toList ++ ':' :: t) h' ∧
      Spelled n v t ks := by
  obtain ⟨h₁, hkey, hwrote, hblank₁⟩ := wrote_key hname hblank
  obtain ⟨h₂, t, ks, hnode, hwrote₂, hspelled⟩ := hv h₁ hwrote.used hblank₁
  refine ⟨h₂, t, ks, ?_, by simpa using hwrote.trans hwrote₂, hspelled⟩
  rw [entries, hkey]
  show (node (some n) true v h₁ >>= _) = _
  rw [hnode]
  rfl

theorem Spelled.laid_entry {t : List Char} {ks : List Token.Kind} (h : Spelled n v t ks) (hname : IsName name) :
    (name.toList ++ ':' :: t).all isLaid = true := by
  rw [List.all_append, laid_name hname, Bool.true_and]
  exact Bool.and_eq_true_iff.mpr ⟨rfl, h.laid⟩

theorem entries_ok (hes : ∀ e ∈ es, IsName e.1 ∧ Prints n e.2) (hfresh : h.fresh = false) :
    ∃ h' ps, entries n (es.map fun e => (.text e.1, e.2)) h = .ok h' ∧ Sheet.Wrote h (page n ps) h' ∧
      (∀ p ∈ ps, Line n p.1 p.2 ∧ p.1.all isLaid = true) ∧ ParsesEntries es (ps.flatMap Prod.snd) := by
  induction es generalizing h with
  | nil => exact ⟨h, [], by rw [List.map_nil, entries], ⟨rfl, hfresh⟩, nofun, .nil⟩
  | cons e es ih =>
    obtain ⟨⟨hname, hv⟩, hes⟩ := List.forall_mem_cons.mp hes
    have hblank : (h.indentTo n).blank = true := by rw [Sheet.indentTo_used (.inl hfresh)]
    obtain ⟨h₁, t, ks, hentry, hwrote, hspelled⟩ := wrote_entry hname hv hblank (es.map fun e => (.text e.1, e.2))
    obtain ⟨h₂, ps, hrest, hwrote₂, hps, hparses⟩ := ih hes hwrote.used
    refine ⟨h₂, (e.1.toList ++ ':' :: t, _) :: ps, hentry.trans hrest, (wrote_newLine hfresh hwrote).trans hwrote₂,
      List.forall_mem_cons.mpr ⟨⟨.entry hname hspelled.lexes hspelled.opens, hspelled.laid_entry hname⟩, hps⟩, ?_⟩
    rw [List.flatMap_cons]
    exact .cons hname hspelled.parses hparses

theorem record_ok (hes : ∀ e ∈ es, IsName e.1 ∧ Prints n e.2) (hne : es ≠ []) (hblank : (h.indentTo n).blank = true) :
    ∃ h' t ks, entries n (es.map fun e => (.text e.1, e.2)) h = .ok h' ∧ Sheet.Wrote (h.indentTo n) t h' ∧
    Block n t ks ∧
      ParsesEntries es ks ∧ t.all isLaid = true := by
  obtain ⟨e, es, rfl⟩ := List.exists_cons_of_ne_nil hne
  obtain ⟨⟨hname, hv⟩, hes⟩ := List.forall_mem_cons.mp hes
  obtain ⟨h₁, t, ks, hentry, hwrote, hspelled⟩ := wrote_entry hname hv hblank (es.map fun e => (.text e.1, e.2))
  obtain ⟨h₂, ps, hrest, hwrote₂, hps, hparses⟩ := entries_ok hes hwrote.used
  refine ⟨h₂, e.1.toList ++ ':' :: (t ++ page n ps), _, hentry.trans hrest, by simpa using hwrote.trans hwrote₂,
    .entries hname hspelled.lexes hspelled.opens fun p hp => (hps p hp).1, .cons hname hspelled.parses hparses, ?_⟩
  have hlaid := hspelled.laid_entry hname
  simp only [List.all_append, List.all_cons, Bool.and_eq_true] at hlaid ⊢
  exact ⟨hlaid.1, hlaid.2.1, hlaid.2.2, laid_page fun p hp => (hps p hp).2⟩

theorem Prints.record (hes : ∀ e ∈ es, IsName e.1 ∧ Prints (n + 2) e.2) (hne : es ≠ [])
    (hdistinct : (es.map Prod.fst).Nodup) :
    Prints n (record es) := by
  intro h hfresh hblank
  obtain ⟨h', t, ks, hentries, hwrote, hblock, hparses, hlaid⟩ :=
    record_ok (h := h) hes hne (by rw [Sheet.indentTo_used (.inl hfresh)])
  obtain ⟨e, es, rfl⟩ := List.exists_cons_of_ne_nil hne
  refine ⟨h', _, _, ?_, wrote_newLine hfresh hwrote, Lexes.block hblock, .record hparses hdistinct, opens_newLine _ _,
    laid_newLine _ hlaid⟩
  rw [Playpen.record, List.map_cons, node]
  · exact hentries
  · exact List.cons_ne_nil _ _

end Entries

theorem prints {v : Value} (hv : v.IsData) {n : Nat} (hn : n + 2 * v.depth + 2 < Sheet.width) : Prints n v := by
  induction hv generalizing n with
  | scalar hs => exact .scalar hs (by simpa [Value.depth] using hn)
  | @list items hitems =>
    by_cases hne : items = []
    · subst hne
      exact .brackets
    · exact .items hitems hne (by omega)
  | @record es hne hnames hdistinct hdata ih =>
    refine .record (fun e he => ⟨hnames e he, ih e he ?_⟩) hne hdistinct
    have hdeep := Value.depth_le_deepestEntry he
    rw [record, Value.depth] at hn
    omega

end Printer

theorem print_record {es : List (String × Value)} (hne : es ≠ []) (hnames : ∀ e ∈ es, IsName e.1)
    (hdata : ∀ e ∈ es, e.2.IsData) (hdepth : 2 * (record es).depth < Sheet.width) :
    ∃ t ks, print (record es) = .ok (t ++ ['\n']) ∧ Lex.Block 0 t ks ∧ Read.ParsesEntries es ks ∧
      t.all isLaid = true := by
  have hes (e : String × Value) (he : e ∈ es) : IsName e.1 ∧ Printer.Prints 0 e.2 := by
    refine ⟨hnames e he, Printer.prints (hdata e he) ?_⟩
    have := Value.depth_le_deepestEntry he
    rw [record, Value.depth] at hdepth
    omega
  obtain ⟨h', t, ks, hentries, hwrote, hblock, hparses, hlaid⟩ := Printer.record_ok (h := {}) hes hne rfl
  obtain ⟨e, es, rfl⟩ := List.exists_cons_of_ne_nil hne
  refine ⟨t, ks, ?_, hblock, hparses, hlaid⟩
  have hnode : Printer.node none false (record (e :: es)) {} = .ok h' := by
    rw [record, List.map_cons, Printer.node]
    · exact hentries
    · exact List.cons_ne_nil _ _
  have hwritten : h'.written = t.reverse := hwrote.written.trans (List.append_nil _)
  rw [print, hnode]
  show Except.ok (h'.indentTo 0).written.reverse = _
  rw [Sheet.indentTo_used (.inl hwrote.used), hwritten]
  simp

end Playpen.Yaml
