import Playpen.Proofs.Yaml.Lexer

namespace Playpen.Yaml.Lex

variable {l : Lexer} {fuel : Nat}

def remembered (l : Lexer) : List (Nat × Candidate) :=
  if l.keysAllowed then [(0, ⟨l.count, decide (l.indent = l.cursor.column), l.cursor.offset, l.cursor.mark⟩)] else []

theorem run_dropCurrent (hnone : l.candidates = []) : dropCurrent l = (.ok (), l) := by
  unfold dropCurrent
  rw [Act.bind_ok run_get, hnone]
  rfl

theorem run_saveCandidate (hnone : l.candidates = []) (hflow : l.flow = 0) :
    saveCandidate l = (.ok (), { l with candidates := remembered l }) := by
  unfold saveCandidate remembered
  rw [Act.bind_ok run_get]
  by_cases hkeys : l.keysAllowed = true
  · rw [if_pos hkeys, if_pos hkeys, Act.bind_ok (run_dropCurrent hnone)]
    show (Except.ok (), { l with candidates := l.candidates ++ _ }) = _
    rw [hnone, hflow]
    simp
  · rw [if_neg hkeys, if_neg hkeys, ← hnone]
    rfl

def taken (l : Lexer) (kind : Token.Kind) (c : Cursor) (stop : Mark) (keys : Bool) : Lexer :=
  { l with
    cursor := c, candidates := remembered l, keysAllowed := keys
    tokens := ⟨kind, l.cursor.mark, stop⟩ :: l.tokens, count := l.count + 1 }

theorem run_plainScalar {p : Plain} {c : Cursor} (hnone : l.candidates = []) (hflow : l.flow = 0)
    (hplain : Scan.plain false (l.indent + 1) fuel l.cursor = (.ok p, c)) :
    plainScalar fuel l = (.ok (), taken l (.scalar p.text true) c p.stop p.passedBreak) := by
  have hblock : decide (l.flow ≠ 0) = false := decide_eq_false (not_not.mpr hflow)
  have hscan : scan (Scan.plain (decide (l.flow ≠ 0)) (l.indent + 1) fuel) { l with candidates := remembered l } =
      (.ok p, { l with cursor := c, candidates := remembered l }) := by
    rw [hblock]
    exact run_scan (l := { l with candidates := remembered l }) hplain
  rw [plainScalar, Act.bind_ok (run_saveCandidate hnone hflow), Act.bind_ok run_get]
  exact (Act.bind_ok hscan).trans rfl

theorem run_quotedScalar {q : Quote} {s : List Char} {c : Cursor} (hnone : l.candidates = []) (hflow : l.flow = 0)
    (hquoted : Scan.quoted q fuel l.cursor = (.ok s, c)) :
    quotedScalar q fuel l = (.ok (), taken l (.scalar s false) c c.mark false) := by
  have hscan : (do
      let text ← Scan.quoted q fuel
      pure (.scalar text false) : Scan Token.Kind) l.cursor = (.ok (.scalar s false), c) := by
    rw [Act.bind_ok hquoted]
    rfl
  rw [quotedScalar, keyPart, Act.bind_ok (run_saveCandidate hnone hflow)]
  exact run_emitScan (l := { l with candidates := remembered l, keysAllowed := false }) hscan

theorem Stage.taken {indent : Int} {outer : List Int} {ks : List Token.Kind} (hs : Stage l [] indent outer ks)
    (kind : Token.Kind) (c : Cursor) (stop : Mark) (keys : Bool) :
    Stage (taken l kind c stop keys) [] indent outer (ks ++ [kind]) := by
  refine ⟨hs.blocks, ?_, ?_, hs.flow, hs.going⟩
  · rw [← hs.kinds]
    simp [Lex.taken]
  · rw [Lex.taken, List.length_cons, ← hs.count]

theorem run_emitMark (kind : Token.Kind) (width : Nat) : emitMark kind width l = (.ok (), { l with
    cursor := l.cursor.advance width
    tokens := ⟨kind, l.cursor.mark, (l.cursor.advance width).mark⟩ :: l.tokens, count := l.count + 1 }) :=
  run_emitScan (Act.bind_ok (Scan.run_forward width))

theorem run_dropCandidate {k : Candidate} (hk : l.candidates = [(0, k)]) :
    dropCandidate 0 l = (.ok (), { l with candidates := [] }) := by
  show (Except.ok (), { l with candidates := l.candidates.filter (·.1 ≠ 0) }) = _
  rw [hk]
  rfl

theorem run_insertAt {k : Candidate} (kind : Token.Kind) {later earlier : List Token}
    (htokens : l.tokens = later ++ earlier)
    (hlater : l.count - k.index = later.length) : insertAt k kind l = (.ok (), { l with
      tokens := later ++ ⟨kind, k.mark, k.mark⟩ :: earlier, count := l.count + 1 }) := by
  show (Except.ok (), { l with
    tokens := l.tokens.take (l.count - k.index) ++ (⟨kind, k.mark, k.mark⟩ : Token) :: l.tokens.drop (l.count - k.index)
    count := l.count + 1 }) = _
  rw [hlater, htokens, List.take_left, List.drop_left]

def opened (column : Nat) (l : Lexer) : Lexer :=
  if l.indent < column then { l with indent := column, outer := l.indent :: l.outer } else l

theorem run_openBlock (column : Nat) : openBlock column l = (.ok (decide (l.indent < column)), opened column l) := by
  unfold openBlock opened
  rw [Act.bind_ok run_get]
  split_ifs with hdeeper
  · rw [decide_eq_true hdeeper]
    rfl
  · rw [decide_eq_false hdeeper]
    rfl

theorem run_value {k : Candidate} {t : Token} {ts : List Token} (hk : l.candidates = [(0, k)]) (hflow : l.flow = 0)
    (htokens : l.tokens = t :: ts) (hcount : l.count = l.tokens.length) (hindex : k.index = ts.length) :
    value l = (.ok (), { opened k.mark.column l with
      cursor := l.cursor.advance 1, candidates := [], keysAllowed := false
      tokens := ⟨.value, l.cursor.mark, (l.cursor.advance 1).mark⟩ :: t :: ⟨.key, k.mark, k.mark⟩ ::
        ((if l.indent < k.mark.column then [⟨.blockMapping, k.mark, k.mark⟩] else []) ++ ts)
      count := l.count + (if l.indent < k.mark.column then 1 else 0) + 2 }) := by
  have hlength : l.count = ts.length + 1 := by
    rw [hcount, htokens, List.length_cons]
  have hlookup : l.candidates.lookup l.flow = some k := by
    rw [hk, hflow]
    rfl
  have hkey := run_insertAt (l := { l with candidates := [] }) (k := k) .key (show l.tokens = [t] ++ ts from htokens)
    (show l.count - k.index = 1 by omega)
  have hopen := run_openBlock
    (l := { l with candidates := [], tokens := t :: ⟨.key, k.mark, k.mark⟩ :: ts, count := l.count + 1 })
    k.mark.column
  unfold value
  rw [Act.bind_ok run_get, hlookup, hflow]
  dsimp only
  rw [Act.bind_ok (run_dropCandidate hk), Act.bind_ok hkey, if_pos rfl]
  refine (Act.bind_ok hopen).trans ?_
  by_cases hdeeper : l.indent < k.mark.column
  · have hmapping := run_insertAt (k := k) .blockMapping
      (l := { l with
        candidates := [], tokens := t :: ⟨.key, k.mark, k.mark⟩ :: ts, count := l.count + 1
        indent := k.mark.column, outer := l.indent :: l.outer })
      (show _ = [t, ⟨.key, k.mark, k.mark⟩] ++ ts from rfl) (show l.count + 1 - k.index = 2 by omega)
    simp only [opened, if_pos hdeeper, if_pos (decide_eq_true hdeeper)]
    exact (Act.bind_ok hmapping).trans rfl
  · simp only [opened, if_neg hdeeper, decide_eq_false hdeeper, Bool.false_eq_true, if_false]
    rfl

section Dispatch

variable {c : Cursor}

theorem token_plain (hopens : Style.Opens c.rest) (hprinted : isPrinted c.peek = true) (hspace : c.peek ≠ ' ')
    (hfirst : c.column = 0 → c.peek ≠ '-' ∧ c.peek ≠ '.') : token fuel c false = plainScalar fuel := by
  have hopens : Style.leads c.peek (c.peek 1) = false := by
    obtain ⟨d, t, hd, hleads⟩ := hopens
    rw [Cursor.peek_zero hd, Cursor.peek, hd]
    cases t <;> exact hleads
  have hword : endsWord c.peek = false := by
    rw [endsWord_of_isPrinted hprinted]
    exact decide_eq_false hspace
  have hnull : c.peek ≠ '\x00' := ne_of_isPrinted hprinted rfl
  simp only [Style.leads, Bool.or_eq_false_iff, Bool.and_eq_false_iff, List.contains_eq_mem, decide_eq_false_iff_not,
    List.mem_cons, not_or, List.not_mem_nil, not_false_eq_true, and_true] at hopens
  obtain ⟨⟨_, _, _, _, _, _, _, _, _, _, _, _, _, _, _, _⟩, hmarks⟩ := hopens
  have hdash : (c.peek = '-' && decide (c.column = 0) && c.atSeparator) = false := by
    by_cases hcolumn : c.column = 0
    · simp [(hfirst hcolumn).1]
    · simp [hcolumn]
  have hdots : (c.peek = '.' && decide (c.column = 0) && c.atSeparator) = false := by
    by_cases hcolumn : c.column = 0
    · simp [(hfirst hcolumn).2]
    · simp [hcolumn]
  rcases hmarks with ⟨hquestion, hcolon, hminus⟩ | hafter
  · simp [token, startsPlain, isIndicator, *]
  · simp [token, startsPlain, isIndicator, *]

end Dispatch

structure Ready (l : Lexer) (n : Nat) (outer : List Int) (ks : List Token.Kind) (keys : Bool) (rest : List Char) :
    Prop where
  stage : Stage l [] n outer ks
  rest : l.cursor.rest = rest
  column : n < l.cursor.column
  keys : l.keysAllowed = keys
  none : l.candidates = []

theorem dropStale_fresh {k : Candidate} (h : l.candidates = [(0, k)]) (hline : k.mark.line = l.cursor.line)
    (hnear : l.cursor.offset - k.offset ≤ 1024) : dropStale l = (.ok (), l) := by
  have hstale : (decide (k.mark.line ≠ l.cursor.line) || decide (1024 < l.cursor.offset - k.offset)) = false := by
    simp [hline, hnear]
  unfold dropStale
  rw [Act.bind_ok run_get, h, List.forIn_cons]
  simp only [hstale, Bool.false_eq_true, if_false]
  rfl

theorem Stage.head {indent : Int} {outer : List Int} {ks : List Token.Kind} (hs : Stage l [] indent outer ks) :
    l.indent = indent ∧ l.outer = outer := by
  simpa using hs.blocks

theorem Before.length_le {m : Nat} {x : List Char} (h : Before l m x) : x.length ≤ l.cursor.rest.length := by
  cases h with
  | here hrest => rw [hrest]
  | line hrest =>
    rw [hrest, List.length_cons, List.length_append]
    omega

section Keys

variable {pending : List Int} {indent : Int} {outer : List Int} {ks : List Token.Kind} {n : Nat} {rest : List Char}
    {name : String}

def keyKinds (opening : Bool) (name : String) : List Token.Kind :=
  (if opening then [.blockMapping] else []) ++ [.key, .scalar name.toList true, .value]

structure Named (l : Lexer) (n : Nat) (indent : Int) (outer : List Int) (ks : List Token.Kind) (name : String)
    (rest : List Char) : Prop where
  stage : Stage l [] indent outer (ks ++ [.scalar name.toList true])
  rest : l.cursor.rest = rest
  column : n < l.cursor.column
  fresh : dropStale l = (.ok (), l)
  candidate : ∃ k, l.candidates = [(0, k)] ∧ k.mark.column = n ∧ k.index + 1 = l.tokens.length

theorem starts_name (hname : IsName name) (rest : List Char) :
    ∃ d t, name.toList ++ rest = d :: t ∧ isNameChar d = true := by
  obtain ⟨d, t, hd⟩ := List.exists_cons_of_ne_nil hname.nonempty
  exact ⟨d, t ++ rest, by rw [hd]; rfl, List.all_eq_true.mp hname.letters d (by rw [hd]; exact List.mem_cons_self ..)⟩

theorem Stage.named (hname : IsName name) (hs : Stage l [] indent outer ks)
    (hat : At l n (name.toList ++ ':' :: rest) true)
    (hrest : endsWord (rest.headD '\x00') = true) :
    ∃ l', (∀ fuel, 0 < fuel → token fuel l.cursor false l = (.ok (), l')) ∧
    Named l' n indent outer ks name (':' :: rest) := by
  have hletters : name.toList.all isPrinted = true :=
    List.all_eq_true.mpr fun c hc => isPrinted_of_isNameChar (List.all_eq_true.mp hname.letters c hc)
  obtain ⟨d, t, hd, hletter⟩ := starts_name hname (':' :: rest)
  have hpeek : l.cursor.peek = d := Cursor.peek_zero (hat.rest.trans hd)
  obtain ⟨p, hplain, htext, hpassed⟩ := plain_name hname.nonempty hname.letters hrest hat.rest (l.indent + 1)
  have hcursor := Cursor.advance_printed hat.rest hletters
  have hdispatch (fuel : Nat) : token fuel l.cursor false = plainScalar fuel := by
    apply token_plain ⟨d, t, hat.rest.trans hd, leads_name hletter _⟩ <;> rw [hpeek]
    · exact isPrinted_of_isNameChar hletter
    · exact ne_of_isNameChar hletter rfl
    · exact fun _ => ⟨ne_of_isNameChar hletter rfl, ne_of_isNameChar hletter rfl⟩
  have hrun (fuel : Nat) (hfuel : 0 < fuel) := run_plainScalar hat.none hs.flow (hplain fuel hfuel)
  refine ⟨_, fun fuel hfuel => (congrFun (hdispatch fuel) l).trans (hrun fuel hfuel),
    by rw [← htext]; exact hs.taken .., ?_, ?_,
    dropStale_fresh (if_pos hat.keys) ?_ ?_, _, if_pos hat.keys, hat.column, ?_⟩
  · exact Cursor.rest_advance_append hat.rest
  · rw [Lex.taken, hcursor, ← hat.column]
    exact Nat.lt_add_of_pos_right (List.length_pos_iff.mpr hname.nonempty)
  · rw [Lex.taken, hcursor]
    rfl
  · rw [Lex.taken, hcursor]
    have := hname.short
    show l.cursor.offset + name.toList.length - l.cursor.offset ≤ 1024
    omega
  · rw [Lex.taken, List.length_cons, ← hs.count]

theorem Named.key {l : Lexer} (h : Named l n indent outer ks name (':' :: rest)) (hindent : indent ≤ n)
    (hrest : endsWord (rest.headD '\x00') = true) :
    ∃ l', (∀ fuel, 0 < fuel → next fuel l = (.ok (), l')) ∧
      Ready l' n (if indent < n then indent :: outer else outer)
      (ks ++ keyKinds (decide (indent < n)) name) false rest := by
  obtain ⟨k, hk, hcolumn, hindex⟩ := h.candidate
  obtain ⟨t, ts, htokens⟩ := List.exists_cons_of_ne_nil (l := l.tokens) (by rintro h; simp [h] at hindex)
  have hindex : k.index = ts.length := by
    rw [htokens, List.length_cons] at hindex
    omega
  -- What was remembered is the name in front, so the tokens for the key go in before it.
  have hvalue := run_value hk h.stage.flow htokens h.stage.count hindex
  have hdispatch (fuel : Nat) : token fuel l.cursor false = value := by
    have hends : endsWord (l.cursor.peek 1) = true := by
      rw [Cursor.peek, h.rest]
      cases rest <;> exact hrest
    simp [token, Cursor.peek_zero h.rest, hends]
  have halong (fuel : Nat) (hfuel : 0 < fuel) : next fuel l = token fuel l.cursor false l :=
    h.stage.along (n := 0) h.rest (by rintro _ ⟨⟩; decide) hfuel h.fresh
    (by have := h.column; show indent ≤ l.cursor.column; omega)
  obtain ⟨hkinds, hkind⟩ : ts.reverse.map (·.kind) = ks ∧ t.kind = .scalar name.toList true := by
    have := h.stage.kinds
    simpa [htokens] using this
  obtain ⟨hi, ho⟩ := h.stage.head
  refine ⟨_, fun fuel hfuel => ((halong fuel hfuel).trans (congrFun (hdispatch fuel) l)).trans hvalue,
    ⟨?_, ?_, ?_, ?_, ?_⟩, ?_, ?_, rfl, rfl⟩
  · simp only [hcolumn, opened, hi, ho]
    split_ifs with hdeeper
    · rfl
    · have : indent = n := by omega
      rw [hi, ho, this]
      rfl
  · simp only [hcolumn, hi, ← hkinds, keyKinds]
    by_cases hdeeper : indent < n <;> simp [hdeeper, hkind]
  · simp only [hcolumn, hi, h.stage.count, htokens]
    by_cases hdeeper : indent < n <;> simp [hdeeper]
  · simp only [opened]
    split_ifs <;> exact h.stage.flow
  · simp only [opened]
    split_ifs <;> exact h.stage.going
  · exact Cursor.rest_advance_append (t := [':']) h.rest
  · have hcursor := Cursor.advance_printed (t := [':']) h.rest rfl
    have hafter : (l.cursor.advance 1).column = l.cursor.column + 1 := congrArg Cursor.column hcursor
    exact Nat.lt_of_lt_of_le h.column (hafter ▸ Nat.le_succ _)

theorem Stage.key (hname : IsName name) (hs : Stage l pending indent outer ks)
    (hb : Before l n (name.toList ++ ':' :: rest)) (hrest : endsWord (rest.headD '\x00') = true)
    (hpending : ∀ i ∈ pending, (n : Int) < i) (hindent : indent ≤ n) :
    ∃ l', Runs l l' ∧ Ready l' n (if indent < n then indent :: outer else outer)
      (ks ++ keyKinds (decide (indent < n)) name) false rest := by
  obtain ⟨d, t, hd, hletter⟩ := starts_name hname (':' :: rest)
  have hx : Starts (name.toList ++ ':' :: rest) := by
    rw [hd]
    rintro _ ⟨⟩
    exact ⟨isPrinted_of_isNameChar hletter, ne_of_isNameChar hletter rfl, ne_of_isNameChar hletter rfl⟩
  obtain ⟨a, harrive, hsa, hat⟩ := hs.arrive hb hx hpending hindent
  obtain ⟨l₁, htoken, hnamed⟩ := hsa.named hname hat hrest
  obtain ⟨l₂, hnext, hready⟩ := hnamed.key hindent hrest
  have hlength := hb.length_le
  have hpositive := List.length_pos_iff.mpr hname.nonempty
  have hfirst : Runs l l₁ := .step hs.going
      (by rw [hnamed.rest]; simp only [List.length_append, List.length_cons] at hlength ⊢; omega)
    fun fuel hfuel => ⟨l₁, (harrive fuel hfuel).trans (htoken fuel (Nat.zero_lt_of_lt hfuel)), hnamed.fresh⟩
  have hsecond : Runs l₁ l₂ := .step hnamed.stage.going (by rw [hnamed.rest, hready.rest]; exact Nat.lt_succ_self _)
    fun fuel hfuel => ⟨l₂, hnext fuel (Nat.zero_lt_of_lt hfuel), dropStale_none hready.none⟩
  exact ⟨l₂, hfirst.trans hsecond, hready⟩

end Keys

section Scalars

theorem opens_word {w r r' : List Char} (hne : w ≠ []) (hr : endsWord (r.headD '\x00') = true)
    (hr' : endsWord (r'.headD '\x00') = true) (h : Style.Opens (w ++ r)) : Style.Opens (w ++ r') := by
  obtain ⟨d, w, rfl⟩ := List.exists_cons_of_ne_nil hne
  obtain ⟨_, _, heq, hleads⟩ := h
  cases heq
  refine ⟨d, w ++ r', rfl, ?_⟩
  cases w with
  | nil =>
    change Style.leads d (r.headD '\x00') = false at hleads
    show Style.leads d (r'.headD '\x00') = false
    rw [Style.leads, hr] at hleads
    rwa [Style.leads, hr']
  | cons e w => exact hleads

theorem opens_plain {indent : Nat} {s t : List Char} (h : PlainSpells indent s t) (hopens : Style.Opens s)
    (rest : List Char) :
    Style.Opens (t ++ '\n' :: rest) := by
  cases h with
  | word hw => exact opens_word hw.nonempty (r := []) rfl rfl (by rwa [List.append_nil])
  | gap n hw h =>
    rw [List.append_assoc]
    exact opens_word hw.nonempty rfl rfl hopens
  | fold hw h =>
    rw [List.append_assoc]
    exact opens_word hw.nonempty rfl rfl hopens

theorem dropStale_taken (hindent : l.indent ≠ l.cursor.column) (kind : Token.Kind) {c : Cursor} (stop : Mark)
    (keys : Bool) (hline : l.cursor.line ≤ c.line) :
    ∃ cs, dropStale (taken l kind c stop keys) = (.ok (), { taken l kind c stop keys with candidates := cs }) ∧
      Idle { taken l kind c stop keys with candidates := cs } ∧ (l.cursor.line < c.line → cs = []) := by
  by_cases hkeys : l.keysAllowed = true
  · have hcandidates : (taken l kind c stop keys).candidates = _ := if_pos hkeys
    refine ⟨_, dropStale_one hcandidates (decide_eq_false hindent), ?_, fun hlt => if_pos ?_⟩
    · split_ifs
      · exact .none rfl
      · exact .one _ rfl (decide_eq_false hindent) hline
    · have hne : l.cursor.line ≠ c.line := Nat.ne_of_lt hlt
      simp [Cursor.mark, hne, taken]
  · have hcandidates : (taken l kind c stop keys).candidates = [] := if_neg hkeys
    refine ⟨[], ?_, .none rfl, fun _ => rfl⟩
    rw [dropStale_none hcandidates, ← hcandidates]

variable {n m : Nat} {outer : List Int} {ks : List Token.Kind} {keys : Bool} {s t x : List Char} {k : Token.Kind}

def Takes (l l' : Lexer) : Prop :=
  ∀ fuel, l.cursor.rest.length < fuel → ∃ l₁, token fuel l.cursor false l = (.ok (), l₁) ∧ dropStale l₁ = (.ok (), l')

theorem Stage.plain (hs : Stage l [] n outer ks) (hnone : l.candidates = []) (hcolumn : n < l.cursor.column)
    (hrest : l.cursor.rest = t ++ '\n' :: (List.replicate m ' ' ++ x)) (hopens : Style.Opens s)
    (hspells : PlainSpells (n + 2) s t) (hm : m ≤ n) (hx : LineStart x) :
    ∃ l', Takes l l' ∧ Stage l' [] n outer (ks ++ [.scalar s true]) ∧ Before l' m x := by
  obtain ⟨hi, -⟩ := hs.head
  obtain ⟨d, u, hd, hprinted, hspace, -⟩ := hspells.head
  have hpeek : l.cursor.peek = d := Cursor.peek_zero (hrest.trans (by rw [hd]; rfl))
  have hdispatch (fuel : Nat) : token fuel l.cursor false = plainScalar fuel :=
    token_plain (by rw [hrest]; exact opens_plain hspells hopens _) (by rwa [hpeek]) (by rwa [hpeek])
    (fun hzero => by omega)
  obtain ⟨p, hplain, htext, hpassed⟩ :=
    hspells.plain (show l.indent + 1 ≤ (n + 2 : Nat) by omega) (by omega) hx hrest (by omega)
  have hline := Cursor.advance_line (Cursor.rest_advance_append hrest)
  rw [← Cursor.advance_add] at hline
  have hlater : l.cursor.line < (l.cursor.advance (t.length + (m + 1))).line := by
    rw [hline]
    exact Nat.lt_succ_of_le (Cursor.line_le_advance _ _)
  obtain ⟨cs, hstale, -, hcs⟩ := dropStale_taken (show l.indent ≠ l.cursor.column by omega) (.scalar p.text true) p.stop
    p.passedBreak (Nat.le_of_lt hlater)
  refine ⟨_, fun fuel hfuel => ⟨_,
    (congrFun (hdispatch fuel) l).trans (run_plainScalar hnone hs.flow (hplain fuel ?_)), hstale⟩,
    ?_, ?_⟩
  · rw [hrest] at hfuel
    simp only [List.length_append, List.length_cons, List.length_replicate] at hfuel
    omega
  · rw [← htext]
    have := hs.taken (.scalar p.text true) (l.cursor.advance (t.length + (m + 1))) p.stop p.passedBreak
    exact ⟨this.blocks, this.kinds, this.count, this.flow, this.going⟩
  · exact .here (congrArg Cursor.rest hline) (congrArg Cursor.column hline) hpassed (hcs hlater)

theorem Stage.quoted {q : Quote} (hs : Stage l [] n outer ks) (hnone : l.candidates = [])
    (hcolumn : n < l.cursor.column)
    (hrest : l.cursor.rest = q.mark :: t ++ q.mark :: '\n' :: (List.replicate m ' ' ++ x))
    (hspells : Spells (n + 2) q s t) :
    ∃ l', Takes l l' ∧ Stage l' [] n outer (ks ++ [.scalar s false]) ∧ Before l' m x := by
  obtain ⟨hi, -⟩ := hs.head
  have hdispatch (fuel : Nat) : token fuel l.cursor false = quotedScalar q fuel := by
    have hpeek : l.cursor.peek = q.mark := Cursor.peek_zero hrest
    cases q <;> simp [token, hpeek, Quote.mark]
  obtain ⟨cs, hstale, hidle, -⟩ := dropStale_taken (show l.indent ≠ l.cursor.column by omega) (.scalar s false)
    (l.cursor.advance (t.length + 2)).mark false (Cursor.line_le_advance (t.length + 2) l.cursor)
  refine ⟨_, fun fuel hfuel => ⟨_,
    (congrFun (hdispatch fuel) l).trans (run_quotedScalar hnone hs.flow (hspells.quoted hrest ?_)),
    hstale⟩, ?_, ?_⟩
  · rw [hrest] at hfuel
    simp only [List.length_append, List.length_cons] at hfuel
    omega
  · have := hs.taken (.scalar s false) (l.cursor.advance (t.length + 2)) (l.cursor.advance (t.length + 2)).mark false
    exact ⟨this.blocks, this.kinds, this.count, this.flow, this.going⟩
  · refine .line ?_ hidle
    show (l.cursor.advance (t.length + 2)).rest = _
    rw [Cursor.rest_advance, hrest]
    simp [List.drop_append]

theorem Ready.scalar (h : Ready l n outer ks keys (' ' :: (t ++ '\n' :: (List.replicate m ' ' ++ x))))
    (ht : ScalarText (n + 2) t k) (hm : m ≤ n) (hx : LineStart x) :
    ∃ l', Runs l l' ∧ Stage l' [] n outer (ks ++ [k]) ∧ Before l' m x := by
  obtain ⟨hi, ho⟩ := h.stage.head
  have hcolumn := h.column
  have hblank := Cursor.advance_printed (t := [' ']) h.rest rfl
  have hrest : (l.cursor.advance 1).rest = t ++ '\n' :: (List.replicate m ' ' ++ x) := congrArg Cursor.rest hblank
  have hafter : n < (l.cursor.advance 1).column := by
    rw [show (l.cursor.advance 1).column = l.cursor.column + 1 from congrArg Cursor.column hblank]
    omega
  have hstarts : Starts (l.cursor.advance 1).rest := by
    rw [hrest]
    cases ht with
    | plain _ hspells =>
      obtain ⟨d, u, rfl, hd⟩ := hspells.head
      rintro _ ⟨⟩
      exact hd
    | @quoted q => cases q <;> rintro _ ⟨⟩ <;> decide
  have halong (fuel : Nat) (hfuel : 0 < fuel) :=
    h.stage.along (n := 1) (by rw [h.rest, hrest]; rfl) hstarts hfuel (dropStale_none h.none) (by omega)
  have hstage : Stage { l with cursor := l.cursor.advance 1 } [] n outer ks :=
    ⟨h.stage.blocks, h.stage.kinds, h.stage.count, h.stage.flow, h.stage.going⟩
  obtain ⟨l', htakes, hs, hb⟩ : ∃ l', Takes { l with cursor := l.cursor.advance 1 } l' ∧
      Stage l' [] n outer (ks ++ [k]) ∧
      Before l' m x := by
    cases ht with
    | plain hopens hspells => exact hstage.plain h.none hafter hrest hopens hspells hm hx
    | quoted hspells => exact hstage.quoted h.none hafter (by rw [hrest]; simp) hspells
  have hlt : l'.cursor.rest.length < l.cursor.rest.length := by
    rw [h.rest]
    cases hb with
    | here hrest' =>
      rw [hrest']
      simp only [List.length_cons, List.length_append]
      omega
    | line hrest' =>
      rw [hrest']
      simp only [List.length_cons, List.length_append]
      omega
  refine ⟨l', .step h.stage.going hlt fun fuel hfuel => ?_, hs, hb⟩
  obtain ⟨l₁, htoken, hstale⟩ := htakes fuel (by
    show (l.cursor.advance 1).rest.length < fuel
    rw [hrest]
    rw [h.rest, List.length_cons] at hfuel
    omega)
  exact ⟨l₁, (halong fuel (Nat.zero_lt_of_lt hfuel)).trans htoken, hstale⟩

end Scalars

section Marks

variable {pending : List Int} {n m : Nat} {outer : List Int} {ks : List Token.Kind} {rest x : List Char}

def marked (l : Lexer) (kind : Token.Kind) (flow : Nat) (keys : Bool) : Lexer :=
  { l with
    cursor := l.cursor.advance 1, flow, keysAllowed := keys
    tokens := ⟨kind, l.cursor.mark, (l.cursor.advance 1).mark⟩ :: l.tokens, count := l.count + 1 }

theorem run_blockEntry (hnone : l.candidates = []) (hflow : l.flow = 0) (hkeys : l.keysAllowed = true)
    (hindent : ¬ l.indent < l.cursor.column) : blockEntry l = (.ok (), marked l .blockEntry 0 true) := by
  have hopen : openHere .blockSequence "sequence entries are not allowed here" l = (.ok (), l) := by
    unfold openHere
    rw [Act.bind_ok run_get, if_pos hflow, hkeys]
    refine (Act.bind_ok (run_openBlock _)).trans ?_
    rw [opened, if_neg hindent, decide_eq_false hindent]
    rfl
  have hdrop : dropCurrent { l with keysAllowed := true } = (.ok (), { l with keysAllowed := true }) :=
    run_dropCurrent hnone
  unfold blockEntry
  rw [Act.bind_ok hopen, marked, ← hflow]
  exact (Act.bind_ok hdrop).trans (run_emitMark (l := { l with keysAllowed := true }) .blockEntry 1)

theorem run_openFlow (kind : Token.Kind) (hnone : l.candidates = []) (hflow : l.flow = 0)
    (hkeys : l.keysAllowed = false) :
    openFlow kind l = (.ok (), marked l kind 1 true) := by
  have hremembered : remembered l = [] := if_neg (by rw [hkeys]; exact Bool.false_ne_true)
  unfold openFlow
  rw [Act.bind_ok (run_saveCandidate hnone hflow), hremembered, ← hnone]
  show emitMark kind 1 { l with flow := l.flow + 1, keysAllowed := true } = _
  rw [hflow]
  exact run_emitMark (l := { l with flow := 1, keysAllowed := true }) kind 1

theorem run_closeFlow (kind : Token.Kind) (hnone : l.candidates = []) (hflow : l.flow = 1) :
    closeFlow kind l = (.ok (), marked l kind 0 false) := by
  unfold closeFlow
  rw [Act.bind_ok (run_dropCurrent hnone)]
  show emitMark kind 1 { l with flow := l.flow - 1, keysAllowed := false } = _
  rw [hflow]
  exact run_emitMark (l := { l with flow := 0, keysAllowed := false }) kind 1

theorem Stage.dash (hs : Stage l [] n outer ks) (hat : At l n ('-' :: ' ' :: rest) true) :
    (∀ fuel, token fuel l.cursor false l = (.ok (), marked l .blockEntry 0 true)) ∧
      Ready (marked l .blockEntry 0 true) n outer (ks ++ [.blockEntry]) true (' ' :: rest) := by
  obtain ⟨hi, ho⟩ := hs.head
  have hcursor := Cursor.advance_printed (t := ['-']) hat.rest rfl
  have hdispatch (fuel : Nat) : token fuel l.cursor false = blockEntry := by
    have hpeek : l.cursor.peek 1 = ' ' := by
      rw [Cursor.peek, hat.rest]
      rfl
    have hseparator : l.cursor.atSeparator = false := by simp [Cursor.atSeparator, hat.rest]
    simp [token, Cursor.peek_zero hat.rest, hpeek, hseparator, endsWord, endsItem]
  have hshallow : ¬ l.indent < l.cursor.column := by
    rw [hi, hat.column]
    exact lt_irrefl _
  refine ⟨fun fuel => (congrFun (hdispatch fuel) l).trans (run_blockEntry hat.none hs.flow hat.keys hshallow),
    ⟨hs.blocks, ?_, ?_, rfl, hs.going⟩, congrArg Cursor.rest hcursor, ?_, rfl, hat.none⟩
  · rw [← hs.kinds]
    simp [marked]
  · rw [marked, List.length_cons, ← hs.count]
  · rw [marked, show (l.cursor.advance 1).column = _ from congrArg Cursor.column hcursor, hat.column]
    exact Nat.lt_succ_self n

theorem Stage.item (hs : Stage l pending n outer ks) (hb : Before l n ('-' :: ' ' :: rest))
    (hpending : ∀ i ∈ pending, (n : Int) < i) :
    ∃ l', Runs l l' ∧ Ready l' n outer (ks ++ [.blockEntry]) true (' ' :: rest) := by
  obtain ⟨a, harrive, hsa, hat⟩ := hs.arrive hb (by rintro _ ⟨⟩; decide) hpending (le_refl _)
  obtain ⟨htoken, hready⟩ := hsa.dash hat
  have hlength := hb.length_le
  refine ⟨_, .step hs.going (by rw [hready.rest]; simp only [List.length_cons] at hlength ⊢; omega) fun fuel hfuel =>
    ⟨_, (harrive fuel hfuel).trans (htoken fuel), dropStale_none hready.none⟩, hready⟩

theorem next_inside (hrest : Starts l.cursor.rest) (hnone : l.candidates = []) (hflow : l.flow = 1) (hfuel : 0 < fuel) :
    next fuel l = token fuel l.cursor true l := by
  have hskip : toNextToken fuel l = (.ok (), l) := toNextToken_spaces (m := 0) rfl hrest hfuel
  have hunwind : Lex.unwind l.cursor.column l = (.ok (), l) := by
    rw [Lex.unwind, Act.bind_ok run_get, if_neg (by omega)]
    rfl
  rw [next, Act.bind_ok hskip, Act.bind_ok (dropStale_none hnone), Act.bind_ok run_get,
    Act.bind_ok hunwind, hflow]
  rfl

theorem Ready.brackets (h : Ready l n outer ks false (' ' :: '[' :: ']' :: '\n' :: (List.replicate m ' ' ++ x))) :
    ∃ l', Runs l l' ∧ Stage l' [] n outer (ks ++ [.flowSequence, .flowSequenceEnd]) ∧ Before l' m x := by
  have hcolumn := h.column
  have hblank := Cursor.advance_printed (t := [' ']) h.rest rfl
  have hindent : (n : Int) ≤ (l.cursor.advance 1).column := by
    rw [show (l.cursor.advance 1).column = l.cursor.column + 1 from congrArg Cursor.column hblank]
    omega
  have halong (fuel : Nat) (hfuel : 0 < fuel) :=
    h.stage.along (n := 1) h.rest (by rintro _ ⟨⟩; decide) hfuel (dropStale_none h.none) hindent
  have hopen : (l.cursor.advance 1).rest = '[' :: ']' :: '\n' :: (List.replicate m ' ' ++ x) :=
    congrArg Cursor.rest hblank
  have hclose : ((l.cursor.advance 1).advance 1).rest = ']' :: '\n' :: (List.replicate m ' ' ++ x) :=
    Cursor.rest_advance_append (t := ['[']) hopen
  have hafter : (((l.cursor.advance 1).advance 1).advance 1).rest = '\n' :: (List.replicate m ' ' ++ x) :=
    Cursor.rest_advance_append (t := [']']) hclose
  have hfirst (fuel : Nat) : token fuel (l.cursor.advance 1) false = openFlow .flowSequence := by
    simp [token, Cursor.peek_zero hopen]
  have hsecond (fuel : Nat) : token fuel ((l.cursor.advance 1).advance 1) true = closeFlow .flowSequenceEnd := by
    simp [token, Cursor.peek_zero hclose]
  obtain ⟨l₁, hl₁⟩ : ∃ l₁, l₁ = marked { l with cursor := l.cursor.advance 1 } .flowSequence 1 true := ⟨_, rfl⟩
  have hcursor : l₁.cursor = (l.cursor.advance 1).advance 1 := by rw [hl₁, marked]
  have hnone : l₁.candidates = [] := by rw [hl₁, marked, h.none]
  have hflow : l₁.flow = 1 := by rw [hl₁, marked]
  -- One step for each bracket, the second one inside of the first.
  have hbefore : Runs l l₁ := by
    refine .step h.stage.going (by rw [hcursor, h.rest, hclose]; simp) fun fuel hfuel => ⟨l₁, ?_, dropStale_none hnone⟩
    rw [halong fuel (Nat.zero_lt_of_lt hfuel), hfirst, hl₁]
    exact run_openFlow .flowSequence h.none h.stage.flow h.keys
  have hbehind : Runs l₁ (marked l₁ .flowSequenceEnd 0 false) := by
    refine .step (by rw [hl₁]; exact h.stage.going) (by rw [marked, hcursor, hclose, hafter]; simp) fun fuel hfuel =>
      ⟨_, ?_, dropStale_none hnone⟩
    rw [next_inside (by rw [hcursor, hclose]; rintro _ ⟨⟩; decide) hnone hflow (Nat.zero_lt_of_lt hfuel), hcursor,
      hsecond, run_closeFlow .flowSequenceEnd hnone hflow]
  refine ⟨_, hbefore.trans hbehind, ⟨?_, ?_, ?_, rfl, ?_⟩, .line (by rw [marked, hcursor, hafter]) (.none hnone)⟩
  · rw [hl₁]
    exact h.stage.blocks
  · rw [hl₁, ← h.stage.kinds]
    simp [marked]
  · rw [hl₁]
    simp [marked, ← h.stage.count]
  · rw [hl₁]
    exact h.stage.going

theorem run_streamEnd (hs : Stage l [] 0 [-1] ks) (hnone : l.candidates = []) :
    ∃ l', streamEnd l = (.ok (), l') ∧ l'.candidates = [] ∧ l'.done = true ∧
      l'.tokens.reverse.map (·.kind) = ks ++ [.blockEnd, .streamEnd] := by
  have hopen : Stage l [0] (-1) [] (ks ++ [.blockEnd]) :=
    ⟨hs.blocks, by rw [← hs.kinds]; simp, hs.count, hs.flow, hs.going⟩
  obtain ⟨l₁, hunwind, hs₁, -, -, hsame⟩ := hopen.unwind (show ∀ i ∈ [0], (-1 : Int) < i by simp) (le_refl _)
  refine ⟨{ l₁ with
    keysAllowed := false, candidates := [], done := true
    tokens := ⟨.streamEnd, l₁.cursor.mark, l₁.cursor.mark⟩ :: l₁.tokens, count := l₁.count + 1 }, ?_, rfl, rfl, ?_⟩
  · rw [streamEnd, Act.bind_ok hunwind, Act.bind_ok (run_dropCurrent (hsame.trans hnone))]
    rfl
  · have := hs₁.kinds
    simp only [List.length_nil, List.replicate_zero, List.append_nil] at this
    simp [this]

theorem Stage.finish (hs : Stage l pending 0 [-1] ks) (hb : Before l 0 []) (hpending : ∀ i ∈ pending, 0 < i)
    (hfuel : l.cursor.rest.length + 1 < fuel) :
    ∃ ts, all none fuel l = (ts, none) ∧ ts.map (·.kind) = ks ++ [.blockEnd, .streamEnd] := by
  obtain ⟨fuel, rfl⟩ : ∃ n, fuel = n + 1 := ⟨fuel - 1, by omega⟩
  obtain ⟨a, harrive, hsa, hat⟩ := hs.arrive hb (by rintro _ ⟨⟩) hpending (le_refl _)
  obtain ⟨l', hend, hnone, hdone, hkinds⟩ := run_streamEnd hsa hat.none
  have htoken : token fuel a.cursor false = streamEnd := by simp [token, Cursor.peek, hat.rest]
  have hnext : next fuel l = (.ok (), l') := ((harrive fuel (by omega)).trans (congrFun htoken a)).trans hend
  refine ⟨l'.tokens.reverse, ?_, hkinds⟩
  rw [all_step hs.going hnext (dropStale_none hnone)]
  cases fuel with
  | zero => rfl
  | succ fuel => rw [all, if_pos hdone]

end Marks

end Playpen.Yaml.Lex
