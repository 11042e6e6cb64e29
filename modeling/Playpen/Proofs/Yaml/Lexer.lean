import Playpen.Proofs.Yaml.Scalar

namespace Playpen.Yaml

namespace Lex

variable {l : Lexer} {α : Type}

theorem run_get : (get : Lex Lexer) l = (.ok l, l) := rfl

theorem run_scan {x : Scan α} {a : α} {c : Cursor} (h : x l.cursor = (.ok a, c)) :
    scan x l = (.ok a, { l with cursor := c }) := by
  unfold scan Act.within
  rw [h]

theorem run_emitScan {x : Scan Token.Kind} {k : Token.Kind} {c : Cursor} (h : x l.cursor = (.ok k, c)) :
    emitScan x l =
      (.ok (), { l with cursor := c, tokens := ⟨k, l.cursor.mark, c.mark⟩ :: l.tokens, count := l.count + 1 }) := by
  unfold emitScan
  rw [Act.bind_ok (show mark l = (.ok l.cursor.mark, l) from rfl), Act.bind_ok (run_scan h)]
  rfl

def Starts (x : List Char) : Prop := ∀ c ∈ x.head?, isPrinted c = true ∧ c ≠ ' ' ∧ c ≠ '#'

theorem Starts.endsGap {x : List Char} (h : Starts x) : EndsGap x := fun c hc =>
  ⟨(h c hc).2.1, isBreak_of_isPrinted (h c hc).1⟩

theorem toNextToken_eq {m fuel : Nat} {x : List Char} (h : l.cursor.rest = List.replicate m ' ' ++ x)
    (hx : ∀ c ∈ x.head?, c ≠ ' ' ∧ c ≠ '#') : toNextToken (fuel + 1) l =
      (do
        if isBreak (l.cursor.advance m).peek then
          let _ ← scan Scan.takeBreak
          if !(← inFlow) then allowKeys true
          toNextToken fuel : Lex Unit) { l with cursor := l.cursor.advance m } := by
  have hafter : (l.cursor.advance m).rest = x := by
    rw [Cursor.rest_advance, h, List.drop_left' (by simp)]
  have hcomment : (l.cursor.advance m).skipComment = l.cursor.advance m := by
    unfold Cursor.skipComment
    rw [if_neg]
    cases x with
    | nil => simp [Cursor.peek, hafter]
    | cons c x =>
      rw [Cursor.peek_zero hafter]
      exact (hx c rfl).2
  have hspaces : Scan.skipSpaces l.cursor = (.ok (), l.cursor.advance m) := by
    rw [← (skipSpaces_append h fun c hc => (hx c hc).1).2]
    rfl
  have hskip : (modify Cursor.skipComment : Scan Unit) (l.cursor.advance m) = (.ok (), l.cursor.advance m) := by
    show (Except.ok (), (l.cursor.advance m).skipComment) = _
    rw [hcomment]
  rw [toNextToken, Act.bind_ok (run_scan hspaces),
    Act.bind_ok (run_scan (l := { l with cursor := l.cursor.advance m }) hskip)]
  rfl

theorem toNextToken_spaces {m fuel : Nat} {x : List Char} (h : l.cursor.rest = List.replicate m ' ' ++ x)
    (hx : Starts x) (hfuel : 0 < fuel) : toNextToken fuel l = (.ok (), { l with cursor := l.cursor.advance m }) := by
  obtain ⟨fuel, rfl⟩ : ∃ n, fuel = n + 1 := ⟨fuel - 1, by omega⟩
  have hafter : (l.cursor.advance m).rest = x := by
    rw [Cursor.rest_advance, h, List.drop_left' (by simp)]
  rw [toNextToken_eq h fun c hc => (hx c hc).2, (hx.endsGap.peek hafter).2]
  rfl

theorem toNextToken_line {m fuel : Nat} {x : List Char} (h : l.cursor.rest = '\n' :: (List.replicate m ' ' ++ x))
    (hx : Starts x) (hflow : l.flow = 0) (hfuel : 1 < fuel) :
    toNextToken fuel l = (.ok (), { l with cursor := l.cursor.advance (m + 1), keysAllowed := true }) := by
  obtain ⟨fuel, rfl⟩ : ∃ n, fuel = n + 1 := ⟨fuel - 1, by omega⟩
  have hbreak : scan Scan.takeBreak l = (.ok ['\n'], { l with cursor := l.cursor.step }) :=
    run_scan (Scan.run_takeBreak h)
  have hflow' : inFlow { l with cursor := l.cursor.step } = (.ok false, { l with cursor := l.cursor.step }) := by
    show (Except.ok (decide (l.flow ≠ 0)), _) = _
    rw [hflow]
    rfl
  have hrest : l.cursor.step.rest = List.replicate m ' ' ++ x := by
    rw [Cursor.rest_step, h]
    rfl
  have hspaces := toNextToken_spaces (l := { l with cursor := l.cursor.step, keysAllowed := true }) hrest hx
    (show 0 < fuel by omega)
  rw [toNextToken_eq (m := 0) h (by rintro c ⟨⟩; decide)]
  show (if isBreak l.cursor.peek then _ else _ : Lex Unit) l = _
  rw [Cursor.peek_zero h, if_pos (show isBreak '\n' = true from rfl), Act.bind_ok hbreak, Act.bind_ok hflow']
  exact hspaces

inductive Idle (l : Lexer) : Prop
  | none (h : l.candidates = [])
  | one (k : Candidate) (h : l.candidates = [(0, k)]) (hrequired : k.required = false)
      (hline : k.mark.line ≤ l.cursor.line)

theorem dropStale_none (h : l.candidates = []) : dropStale l = (.ok (), l) := by
  unfold dropStale
  rw [Act.bind_ok run_get, h]
  rfl

theorem dropStale_one {k : Candidate} (h : l.candidates = [(0, k)]) (hrequired : k.required = false) :
    dropStale l = (.ok (), { l with candidates :=
      if k.mark.line ≠ l.cursor.line || 1024 < l.cursor.offset - k.offset then [] else [(0, k)] }) := by
  have hgive : giveUp 0 k l = (.ok (), { l with candidates := [] }) := by
    unfold giveUp
    rw [hrequired]
    show (Except.ok (), { l with candidates := l.candidates.filter (·.1 ≠ 0) }) = _
    rw [h]
    rfl
  unfold dropStale
  rw [Act.bind_ok run_get, h, List.forIn_cons]
  by_cases hstale : (decide (k.mark.line ≠ l.cursor.line) || decide (1024 < l.cursor.offset - k.offset)) = true
  · simp only [hstale, if_true]
    rw [bind_assoc, bind_assoc, Act.bind_ok hgive]
    rfl
  · simp only [hstale, Bool.false_eq_true, if_false]
    rw [← h]
    rfl

structure Stage (l : Lexer) (pending : List Int) (indent : Int) (outer : List Int) (ks : List Token.Kind) : Prop where
  blocks : l.indent :: l.outer = pending ++ indent :: outer
  kinds : l.tokens.reverse.map (·.kind) ++ List.replicate pending.length .blockEnd = ks
  count : l.count = l.tokens.length
  flow : l.flow = 0
  going : l.done = false

inductive Before (l : Lexer) (m : Nat) (x : List Char) : Prop
  | here (hrest : l.cursor.rest = x) (hcolumn : l.cursor.column = m) (hkeys : l.keysAllowed = true)
      (hnone : l.candidates = [])
  | line (hrest : l.cursor.rest = '\n' :: (List.replicate m ' ' ++ x)) (hidle : Idle l)

structure At (l : Lexer) (m : Nat) (x : List Char) (keys : Bool) : Prop where
  rest : l.cursor.rest = x
  column : l.cursor.column = m
  keys : l.keysAllowed = keys
  none : l.candidates = []

def arrive (fuel : Nat) : Lex Unit := do
  toNextToken fuel
  dropStale

theorem arrive_before {m : Nat} {x : List Char} (hx : Starts x) (h : Before l m x) (hflow : l.flow = 0) :
    ∃ c, (∀ fuel, l.cursor.rest.length < fuel →
      arrive fuel l = (.ok (), { l with cursor := c, keysAllowed := true, candidates := [] })) ∧ c.rest = x ∧
      c.column = m := by
  cases h with
  | here hrest hcolumn hkeys hnone =>
    refine ⟨l.cursor, fun fuel hfuel => ?_, hrest, hcolumn⟩
    have hnext := toNextToken_spaces (m := 0) hrest hx (Nat.zero_lt_of_lt hfuel)
    have hstale : dropStale { l with cursor := l.cursor.advance 0 } =
        (.ok (), { l with cursor := l.cursor.advance 0 }) :=
      dropStale_none hnone
    rw [arrive, Act.bind_ok hnext, hstale, ← hkeys, ← hnone]
    rfl
  | line hrest hidle =>
    refine ⟨l.cursor.advance (m + 1), fun fuel hfuel => ?_, ?_, ?_⟩
    · have hroom : 1 < fuel := by
        rw [hrest, List.length_cons] at hfuel
        omega
      rw [arrive, Act.bind_ok (toNextToken_line hrest hx hflow hroom)]
      cases hidle with
      | none h =>
        rw [dropStale_none (l := { l with cursor := l.cursor.advance (m + 1), keysAllowed := true }) h, h]
      | one k h hrequired hline =>
        have hstale : (decide (k.mark.line ≠ (l.cursor.advance (m + 1)).line) ||
            decide (1024 < (l.cursor.advance (m + 1)).offset - k.offset)) = true := by
          rw [Cursor.advance_line hrest]
          simp
          omega
        rw [dropStale_one (l := { l with cursor := l.cursor.advance (m + 1), keysAllowed := true }) h hrequired,
          if_pos hstale]
    · rw [Cursor.advance_line hrest]
    · rw [Cursor.advance_line hrest]

theorem closeBlocks_run {column : Int} {pending : List Int} {indent : Int} {outer : List Int}
    (hblocks : l.indent :: l.outer = pending ++ indent :: outer) (hpending : ∀ i ∈ pending, column < i)
    (hindent : indent ≤ column) {fuel : Nat} (hfuel : pending.length < fuel) :
    closeBlocks column fuel l = (.ok (), { l with
      indent, outer
      tokens := List.replicate pending.length ⟨.blockEnd, l.cursor.mark, l.cursor.mark⟩ ++ l.tokens
      count := l.count + pending.length }) := by
  obtain ⟨fuel, rfl⟩ : ∃ n, fuel = n + 1 := ⟨fuel - 1, by omega⟩
  induction pending generalizing l fuel with
  | nil =>
    obtain ⟨rfl, rfl⟩ : l.indent = indent ∧ l.outer = outer := by simpa using hblocks
    rw [closeBlocks, Act.bind_ok run_get, if_neg (by omega)]
    rfl
  | cons i pending ih =>
    obtain ⟨hi, hothers⟩ := List.forall_mem_cons.mp hpending
    obtain ⟨rfl, houter⟩ : l.indent = i ∧ l.outer = pending ++ indent :: outer := by simpa using hblocks
    obtain ⟨fuel, rfl⟩ : ∃ n, fuel = n + 1 := ⟨fuel - 1, by rw [List.length_cons] at hfuel; omega⟩
    rw [closeBlocks, Act.bind_ok run_get, if_pos hi]
    have hrest := ih (l := { l with
      indent := l.outer.headD (-1)
      outer := l.outer.drop 1
      tokens := ⟨.blockEnd, l.cursor.mark, l.cursor.mark⟩ :: l.tokens
      count := l.count + 1 }) (by rw [houter]; cases pending <;> rfl) hothers fuel (by simpa using hfuel)
    refine hrest.trans ?_
    have htokens (t : Token) : List.replicate pending.length t ++ t :: l.tokens =
        List.replicate (pending.length + 1) t ++ l.tokens := by
      rw [List.replicate_succ', List.append_assoc]
      rfl
    simp only [htokens, List.length_cons, Nat.add_assoc, Nat.add_comm 1]

section Stages

variable {pending : List Int} {indent : Int} {outer : List Int} {ks : List Token.Kind} {m : Nat} {x : List Char}

theorem Stage.unwind {column : Int} (hs : Stage l pending indent outer ks) (hpending : ∀ i ∈ pending, column < i)
    (hindent : indent ≤ column) : ∃ l', Lex.unwind column l = (.ok (), l') ∧ Stage l' [] indent outer ks ∧
      l'.cursor = l.cursor ∧ l'.keysAllowed = l.keysAllowed ∧ l'.candidates = l.candidates := by
  have hlength : pending.length < l.outer.length + 1 := by
    have := congrArg List.length hs.blocks
    simp only [List.length_cons, List.length_append] at this
    omega
  have hclose := closeBlocks_run hs.blocks hpending hindent hlength
  refine ⟨{ l with
    indent, outer
    tokens := List.replicate pending.length ⟨.blockEnd, l.cursor.mark, l.cursor.mark⟩ ++ l.tokens
    count := l.count + pending.length }, ?_, ⟨rfl, ?_, ?_, hs.flow, hs.going⟩, rfl, rfl, rfl⟩
  · rw [Lex.unwind, Act.bind_ok run_get, if_pos hs.flow]
    exact hclose
  · rw [← hs.kinds]
    simp
  · simp [hs.count, Nat.add_comm]

theorem Stage.arrive (hs : Stage l pending indent outer ks) (hb : Before l m x) (hx : Starts x)
    (hpending : ∀ i ∈ pending, (m : Int) < i) (hindent : indent ≤ m) :
    ∃ l', (∀ fuel, l.cursor.rest.length < fuel → next fuel l = token fuel l'.cursor false l') ∧
      Stage l' [] indent outer ks ∧ At l' m x true := by
  obtain ⟨c, harrive, hrest, hcolumn⟩ := arrive_before hx hb hs.flow
  have hstage : Stage { l with cursor := c, keysAllowed := true, candidates := [] } pending indent outer ks :=
    ⟨hs.blocks, hs.kinds, hs.count, hs.flow, hs.going⟩
  obtain ⟨l', hunwind, hs', hcursor, hkeys, hnone⟩ := hstage.unwind hpending hindent
  refine ⟨l', fun fuel hfuel => ?_, hs', ⟨by rw [hcursor, hrest], by rw [hcursor, hcolumn], hkeys, hnone⟩⟩
  obtain ⟨_, l₁, hskip, hstale⟩ := Act.ok_of_bind (harrive fuel hfuel)
  have hunwind : Lex.unwind c.column { l with cursor := c, keysAllowed := true, candidates := [] } = (.ok (), l') := by
    rw [hcolumn]
    exact hunwind
  rw [next, Act.bind_ok hskip, Act.bind_ok hstale, Act.bind_ok run_get]
  dsimp only
  rw [Act.bind_ok hunwind, hcursor, hs.flow]
  rfl

theorem Stage.along (hs : Stage l [] indent outer ks) {n fuel : Nat} (hrest : l.cursor.rest = List.replicate n ' ' ++ x)
    (hx : Starts x) (hfuel : 0 < fuel)
    (hstale : dropStale { l with cursor := l.cursor.advance n } = (.ok (), { l with cursor := l.cursor.advance n }))
    (hindent : indent ≤ (l.cursor.advance n).column) :
    next fuel l = token fuel (l.cursor.advance n) false { l with cursor := l.cursor.advance n } := by
  have hblocks : l.indent :: l.outer = [] ++ l.indent :: l.outer := rfl
  have hle : l.indent ≤ (l.cursor.advance n).column := by
    have := hs.blocks
    simp only [List.nil_append, List.cons.injEq] at this
    rwa [this.1]
  have hunwind : Lex.unwind (l.cursor.advance n).column { l with cursor := l.cursor.advance n } =
      (.ok (), { l with cursor := l.cursor.advance n }) := by
    rw [Lex.unwind, Act.bind_ok run_get, if_pos hs.flow]
    exact closeBlocks_run (l := { l with cursor := l.cursor.advance n }) hblocks (by rintro i ⟨⟩) hle
      (Nat.zero_lt_succ _)
  rw [next, Act.bind_ok (toNextToken_spaces hrest hx hfuel), Act.bind_ok hstale, Act.bind_ok run_get]
  dsimp only
  rw [Act.bind_ok hunwind, hs.flow]
  rfl

end Stages

def Runs (l l' : Lexer) : Prop := ∀ fuel, l.cursor.rest.length + 1 < fuel →
  ∃ fuel', l'.cursor.rest.length + 1 < fuel' ∧ all none fuel l = all none fuel' l'

theorem Runs.trans {l l' l'' : Lexer} (h : Runs l l') (h' : Runs l' l'') : Runs l l'' := by
  intro fuel hfuel
  obtain ⟨fuel', hfuel', heq⟩ := h fuel hfuel
  obtain ⟨fuel'', hfuel'', heq'⟩ := h' fuel' hfuel'
  exact ⟨fuel'', hfuel'', heq.trans heq'⟩

theorem all_step {l l₁ l' : Lexer} {fuel : Nat} (hgoing : l.done = false) (hnext : next fuel l = (.ok (), l₁))
    (hstale : dropStale l₁ = (.ok (), l')) : all none (fuel + 1) l = all none fuel l' := by
  rw [all, hgoing, if_neg Bool.false_ne_true, Act.bind_ok hnext, hstale]
  dsimp only
  rw [ite_self]

theorem Runs.step {l l' : Lexer} (hgoing : l.done = false) (hlt : l'.cursor.rest.length < l.cursor.rest.length)
    (h : ∀ fuel, l.cursor.rest.length < fuel → ∃ l₁, next fuel l = (.ok (), l₁) ∧ dropStale l₁ = (.ok (), l')) :
    Runs l l' := by
  intro fuel hfuel
  obtain ⟨fuel, rfl⟩ : ∃ n, fuel = n + 1 := ⟨fuel - 1, by omega⟩
  obtain ⟨l₁, hnext, hstale⟩ := h fuel (by omega)
  exact ⟨fuel, by omega, all_step hgoing hnext hstale⟩

end Lex

end Playpen.Yaml
