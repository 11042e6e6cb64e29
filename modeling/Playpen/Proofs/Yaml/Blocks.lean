import Playpen.Proofs.Yaml.Tokens
/-!
Lines that belong to one block, and the blocks inside others. What comes behind a line is taken along as a
text and the column at which that begins, so that the tokens of a block are those of its lines.
-/
namespace Playpen.Yaml.Lex

variable {l : Lexer} {n m : Nat} {outer : List Int} {base ks : List Token.Kind} {t x : List Char}

def Comes (l : Lexer) (n : Nat) (outer : List Int) (ks : List Token.Kind) (m : Nat) (x : List Char) : Prop :=
  ∃ pending, Stage l pending n outer ks ∧ (∀ i ∈ pending, (n : Int) < i) ∧ Before l m x

structure Follows (n m : Nat) (x : List Char) : Prop where
  column : m ≤ n
  start : LineStart x

def newLine (m : Nat) (x : List Char) : List Char := '\n' :: (List.replicate m ' ' ++ x)

def Lexes (n : Nat) (t : List Char) (ks : List Token.Kind) : Prop :=
  ∀ {l : Lexer} {outer : List Int} {base : List Token.Kind} {m : Nat} {x : List Char}, Follows n m x →
    Ready l n outer base false (t ++ newLine m x) → ∃ l', Runs l l' ∧ Comes l' n outer (base ++ ks) m x

structure Line (n : Nat) (t : List Char) (ks : List Token.Kind) : Prop where
  start (rest : List Char) : LineStart (t ++ rest)
  lexes {l : Lexer} {outer : List Int} {base : List Token.Kind} {m : Nat} {x : List Char} (hf : Follows n m x)
    (h : Comes l n outer base n (t ++ newLine m x)) : ∃ l', Runs l l' ∧ Comes l' n outer (base ++ ks) m x

theorem Runs.refl (l : Lexer) : Runs l l := fun fuel hfuel => ⟨fuel, hfuel, rfl⟩

theorem Lexes.scalar {k : Token.Kind} (ht : ScalarText (n + 2) t k) : Lexes n (' ' :: t) [k] := by
  intro l outer base m x hf h
  obtain ⟨l', hruns, hs, hb⟩ := h.scalar ht hf.column hf.start
  exact ⟨l', hruns, [], hs, by simp, hb⟩

theorem Lexes.brackets : Lexes n [' ', '[', ']'] [.flowSequence, .flowSequenceEnd] := by
  intro l outer base m x hf h
  obtain ⟨l', hruns, hs, hb⟩ := h.brackets
  exact ⟨l', hruns, [], hs, by simp, hb⟩

theorem Line.item {k : Token.Kind} (ht : ScalarText (n + 2) t k) : Line n ('-' :: ' ' :: t) [.blockEntry, k] where
  start rest := by
    rintro _ ⟨⟩
    exact .inr ⟨rfl, rfl⟩
  lexes := by
    rintro l outer base m x hf ⟨pending, hs, hpending, hb⟩
    obtain ⟨l₁, hruns, hready⟩ := hs.item hb hpending
    obtain ⟨l₂, hruns', hs₂, hb₂⟩ := hready.scalar ht hf.column hf.start
    rw [List.append_assoc] at hs₂
    exact ⟨l₂, hruns.trans hruns', [], hs₂, by simp, hb₂⟩

def Opens (t : List Char) : Prop := ∀ rest, endsWord ((t ++ rest).headD '\x00') = true

theorem lineStart_name {name : String} (hname : IsName name) (rest : List Char) : LineStart (name.toList ++ rest) := by
  obtain ⟨d, u, hd, hletter⟩ := starts_name hname rest
  rw [hd]
  rintro _ ⟨⟩
  exact .inl hletter

theorem Line.entry {name : String} (hname : IsName name) (ht : Lexes n t ks) (hopens : Opens t) :
    Line n (name.toList ++ ':' :: t) ([.key, .scalar name.toList true, .value] ++ ks) where
  start rest := by
    rw [List.append_assoc]
    exact lineStart_name hname _
  lexes := by
    rintro l outer base m x hf ⟨pending, hs, hpending, hb⟩
    rw [List.append_assoc] at hb
    obtain ⟨l₁, hruns, hready⟩ := hs.key hname hb (hopens _) hpending (le_refl _)
    rw [if_neg (lt_irrefl _), decide_eq_false (lt_irrefl _)] at hready
    obtain ⟨l₂, hruns', hcomes⟩ := ht hf hready
    rw [List.append_assoc] at hcomes
    exact ⟨l₂, hruns.trans hruns', hcomes⟩

def place (n m : Nat) (x : List Char) : List (List Char) → Nat × List Char
  | [] => (m, x)
  | t :: ts => (n, t ++ newLine (place n m x ts).1 (place n m x ts).2)

theorem follows_place {ps : List (List Char × List Token.Kind)} (hps : ∀ p ∈ ps, Line n p.1 p.2) (hf : Follows n m x) :
    Follows n (place n m x (ps.map Prod.fst)).1 (place n m x (ps.map Prod.fst)).2 := by
  cases ps with
  | nil => exact hf
  | cons p ps => exact ⟨le_refl _, (hps p (List.mem_cons_self ..)).start _⟩

theorem lines_lex {ps : List (List Char × List Token.Kind)} (hps : ∀ p ∈ ps, Line n p.1 p.2) (hf : Follows n m x)
    (h : Comes l n outer base (place n m x (ps.map Prod.fst)).1 (place n m x (ps.map Prod.fst)).2) :
    ∃ l', Runs l l' ∧ Comes l' n outer (base ++ ps.flatMap Prod.snd) m x := by
  induction ps generalizing l base with
  | nil => exact ⟨l, .refl l, by simpa [place] using h⟩
  | cons p ps ih =>
    obtain ⟨hp, hps⟩ := List.forall_mem_cons.mp hps
    obtain ⟨l₁, hruns, h₁⟩ := hp.lexes (follows_place hps hf) h
    obtain ⟨l₂, hruns', h₂⟩ := ih hps h₁
    exact ⟨l₂, hruns.trans hruns', by simpa using h₂⟩

def page (n : Nat) (ps : List (List Char × List Token.Kind)) : List Char := ps.flatMap fun p => newLine n p.1

theorem newLine_append (m : Nat) (s t : List Char) : newLine m (s ++ t) = newLine m s ++ t := by
  simp [newLine]

theorem newLine_place (ps : List (List Char × List Token.Kind)) :
    newLine (place n m x (ps.map Prod.fst)).1 (place n m x (ps.map Prod.fst)).2 = page n ps ++ newLine m x := by
  induction ps with
  | nil => rfl
  | cons p ps ih =>
    show newLine n (p.1 ++ newLine _ _) = _
    rw [ih, newLine_append, ← List.append_assoc]
    rfl

theorem Lexes.lines {ps : List (List Char × List Token.Kind)} (hps : ∀ p ∈ ps, Line n p.1 p.2) :
    Lexes n (page n ps) (ps.flatMap Prod.snd) := by
  intro l outer base m x hf h
  have hrest := h.rest
  rw [← newLine_place] at hrest
  exact lines_lex hps hf ⟨[], h.stage, by simp, .line hrest (.none h.none)⟩

structure Block (n : Nat) (t : List Char) (ks : List Token.Kind) : Prop where
  start (rest : List Char) : LineStart (t ++ rest)
  lexes {l : Lexer} {pending : List Int} {indent : Int} {outer : List Int} {base : List Token.Kind} {m : Nat}
  {x : List Char}
    (hf : Follows n m x) (hs : Stage l pending indent outer base) (hpending : ∀ i ∈ pending, (n : Int) < i)
    (hindent : indent < n) (hb : Before l n (t ++ newLine m x)) : ∃ l', Runs l l' ∧
    Comes l' n (indent :: outer) (base ++ .blockMapping :: ks) m x

theorem Block.entries {name : String} (hname : IsName name) (ht : Lexes n t ks) (hopens : Opens t)
    {ps : List (List Char × List Token.Kind)} (hps : ∀ p ∈ ps, Line n p.1 p.2) :
    Block n (name.toList ++ ':' :: (t ++ page n ps))
    ([.key, .scalar name.toList true, .value] ++ ks ++ ps.flatMap Prod.snd) where
  start rest := by
    rw [List.append_assoc]
    exact lineStart_name hname _
  lexes := by
    intro l pending indent outer base m x hf hs hpending hindent hb
    simp only [List.append_assoc, List.cons_append] at hb
    obtain ⟨l₁, hruns, hready⟩ := hs.key hname hb (hopens _) hpending (Int.le_of_lt hindent)
    rw [if_pos hindent, decide_eq_true hindent, ← newLine_place] at hready
    obtain ⟨l₂, hruns', hcomes⟩ := ht (follows_place hps hf) hready
    obtain ⟨l₃, hruns'', hcomes'⟩ := lines_lex hps hf hcomes
    exact ⟨l₃, hruns.trans (hruns'.trans hruns''), by simpa [keyKinds] using hcomes'⟩

theorem Comes.close {n' : Nat} (h : Comes l n' (n :: outer) ks m x) (hn : n < n') :
    Comes l n outer (ks ++ [.blockEnd]) m x := by
  obtain ⟨pending, hs, hpending, hb⟩ := h
  refine ⟨pending ++ [(n' : Int)], ⟨by simpa using hs.blocks, ?_, hs.count, hs.flow, hs.going⟩, ?_, hb⟩
  · rw [← hs.kinds]
    simp [List.replicate_succ']
  · intro i hi
    rcases List.mem_append.mp hi with hi | hi
    · have := hpending i hi
      omega
    · rw [List.mem_singleton.mp hi]
      omega

theorem Lexes.block (h : Block (n + 2) t ks) : Lexes n (newLine (n + 2) t) (.blockMapping :: ks ++ [.blockEnd]) := by
  intro l outer base m x hf hready
  have hrest := hready.rest
  rw [← newLine_append] at hrest
  obtain ⟨l', hruns, hcomes⟩ := h.lexes ⟨Nat.le_add_right_of_le hf.column, hf.start⟩ hready.stage (by simp) (by omega)
    (.line hrest (.none hready.none))
  refine ⟨l', hruns, ?_⟩
  have := hcomes.close (Nat.lt_add_of_pos_right (Nat.zero_lt_two))
  simpa using this

theorem Block.tokens (h : Block 0 t ks) : ∃ ts, Yaml.tokens ⟨t ++ ['\n'], none⟩ = (ts, none) ∧
    ts.map (·.kind) = .blockMapping :: ks ++ [.blockEnd, .streamEnd] := by
  have hmark : ({ rest := t ++ ['\n'] } : Cursor).peek ≠ '\ufeff' := by
    have hstart := h.start ['\n']
    cases hrest : t ++ ['\n'] with
    | nil => simp at hrest
    | cons d u =>
      rw [hrest] at hstart
      have hpeek : ({ rest := d :: u } : Cursor).peek = d := Cursor.peek_zero rfl
      rw [hpeek]
      exact ne_of_isPrinted (hstart.head d rfl).1 rfl
  have hstage : Stage { cursor := { rest := t ++ ['\n'] } } [] (-1) [] [] := ⟨rfl, rfl, rfl, rfl, rfl⟩
  obtain ⟨l', hruns, pending, hs, hpending, hb⟩ := h.lexes (x := []) ⟨le_refl 0, by rintro _ ⟨⟩⟩ hstage (by simp)
      (by decide)
    (.here rfl rfl rfl rfl)
  obtain ⟨fuel, hfuel, hall⟩ := hruns ((t ++ ['\n']).length + 2) (Nat.lt_succ_self _)
  obtain ⟨ts, hts, hkinds⟩ := hs.finish hb (by simpa using hpending) hfuel
  refine ⟨ts, ?_, by simpa using hkinds⟩
  rw [Yaml.tokens]
  dsimp only
  rw [if_neg hmark, hall, hts]

end Playpen.Yaml.Lex
