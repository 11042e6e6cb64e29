import Mathlib.Tactic.SplitIfs
import Playpen.Proofs.Text.Units
import Playpen.Proofs.Yaml.Cursor
import Playpen.Yaml.Scalar.Quoted
import Playpen.Yaml.Printer

namespace Playpen.Yaml

namespace Sheet

theorem lookup_shortEscapes {x e : Char} (h : shortEscapes.lookup x = some e) : (x, e) ∈ shortEscapes := by
  obtain ⟨before, after, hsplit, -⟩ := List.lookup_eq_some_iff.mp h
  rw [hsplit]
  exact List.mem_append_right _ (List.mem_cons_self ..)

theorem capitalHex_printed (width n : Nat) : (capitalHex width n).all isPrinted = true := by
  have hall : ∀ d < 16, isPrinted (Schema.upperAscii (Text.hexDigit d)) = true := by decide
  rw [capitalHex, Text.hex_eq_map, List.map_map, List.all_map, List.all_eq_true]
  exact fun d hd => hall d (Text.nibbles_lt width n d hd)

theorem shortEscapes_printed : shortEscapes.all (fun p => isPrinted p.2) = true := by decide

theorem escape?_eq {x : Char} {e : List Char} (h : escape? x = some e) :
    ∃ t, e = '\\' :: t ∧ t.all isPrinted = true := by
  unfold escape? at h
  cases hlookup : shortEscapes.lookup x with
  | some d =>
    rw [hlookup] at h
    cases h
    refine ⟨[d], rfl, ?_⟩
    simpa using List.all_eq_true.mp shortEscapes_printed _ (lookup_shortEscapes hlookup)
  | none =>
    rw [hlookup] at h
    dsimp only at h
    split_ifs at h <;> cases h <;> exact ⟨_, rfl, Bool.and_eq_true_iff.mpr ⟨rfl, capitalHex_printed _ _⟩⟩

end Sheet

namespace Scan

section Words

variable {q : Quote} {start : Mark} {fuel : Nat} {c c' c'' : Cursor} {x : Char} {rest : List Char} {ns text : List Nat}

theorem run_takeWhile_none {p : Char → Bool} (h : c.rest = x :: rest) (hx : p x = false) :
    takeWhile p c = (.ok [], c) :=
  run_takeWhile_append (t := []) h rfl (by rintro _ ⟨⟩; exact hx)

theorem quotedWord_plain (h : c.rest = x :: rest) (hx : isQuotedPlain x = true)
    (hword : quotedWord q start (fuel + 1) c.step = (.ok ns, c')) :
    quotedWord q start (fuel + 1) c = (.ok (x.toNat :: ns), c') := by
  have htake : takeWhile isQuotedPlain c = (.ok (x :: c.step.span isQuotedPlain), c.step.skip isQuotedPlain) := by
    have hspan : c.span isQuotedPlain = x :: c.step.span isQuotedPlain := by
      rw [Cursor.span, Cursor.span, Cursor.rest_step, h, List.takeWhile_cons_of_pos hx]
      rfl
    rw [run_takeWhile, Cursor.skip, hspan]
    rfl
  rw [quotedWord] at hword ⊢
  rw [Act.bind_ok (run_takeWhile _)] at hword
  rw [Act.bind_ok htake]
  obtain ⟨part, c₁, hmark, hword⟩ := Act.ok_of_bind hword
  rw [Act.bind_ok hmark]
  cases part with
  | none =>
    cases hword
    rfl
  | some text =>
    obtain ⟨ms, c₂, hrest, hword⟩ := Act.ok_of_bind hword
    cases hword
    exact Act.bind_ok hrest

theorem quotedWord_mark (h : c.rest = x :: rest) (hx : isQuotedPlain x = false)
    (hmark : quotedMark q start fuel c = (.ok (some text), c')) (hword : quotedWord q start fuel c' = (.ok ns, c'')) :
    quotedWord q start (fuel + 1) c = (.ok (text ++ ns), c'') := by
  rw [quotedWord, Act.bind_ok (run_takeWhile_none h hx), Act.bind_ok hmark]
  exact Act.bind_ok hword

theorem quotedWord_stop (h : c.rest = x :: rest) (hx : isQuotedPlain x = false)
    (hmark : quotedMark q start fuel c = (.ok none, c)) : quotedWord q start (fuel + 1) c = (.ok [], c) := by
  rw [quotedWord, Act.bind_ok (run_takeWhile_none h hx), Act.bind_ok hmark]
  rfl

theorem quotedMark_gap (h : c.rest = x :: rest) (hx : x = ' ' ∨ x = '\n') :
    quotedMark q start fuel c = (.ok none, c) := by
  rw [quotedMark, Act.bind_ok (run_peek_zero h)]
  rcases hx with rfl | rfl <;> cases q <;> rfl

theorem quotedMark_close {y : Char} (h : c.rest = q.mark :: y :: rest) (hy : y ≠ '\'') :
    quotedMark q start fuel c = (.ok none, c) := by
  have hpeek : peek 1 c = (.ok y, c) := by
    rw [run_peek (by rw [h]; simp)]
    simp [Cursor.peek, h]
  rw [quotedMark, Act.bind_ok (run_peek_zero h)]
  cases q with
  | double => rfl
  | single =>
    simp [Quote.mark, Act.bind_ok hpeek, hy]
    rfl

theorem quotedMark_apostrophe (h : c.rest = '\'' :: '\'' :: rest) :
    quotedMark .single start fuel c = (.ok (some [39]), c.advance 2) := by
  have hpeek : peek 1 c = (.ok '\'', c) := by
    rw [run_peek (by rw [h]; simp)]
    simp [Cursor.peek, h]
  rw [quotedMark, Act.bind_ok (run_peek_zero h)]
  simp [Act.bind_ok hpeek]
  rfl

theorem quotedMark_other (h : c.rest = x :: rest)
    (hx : (q = .double ∧ x = '\'') ∨ (q = .single ∧ (x = '"' ∨ x = '\\'))) :
    quotedMark q start fuel c = (.ok (some [x.toNat]), c.step) := by
  rw [quotedMark, Act.bind_ok (run_peek_zero h)]
  rcases hx with ⟨rfl, rfl⟩ | ⟨rfl, rfl | rfl⟩ <;> rfl

theorem quotedMark_escape (h : c.rest = '\\' :: rest) (he : escaped start fuel c = (.ok text, c')) :
    quotedMark .double start fuel c = (.ok (some text), c') := by
  rw [quotedMark, Act.bind_ok (run_peek_zero h)]
  show (some <$> escaped start fuel) c = _
  exact Act.bind_ok he

end Words

def Inside (rest : List Char) : Prop := ∃ x t, rest = x :: t ∧ isBlank x = false ∧ isBreak x = false ∧ x ≠ '\x00'

section Gaps

variable {q : Quote} {start : Mark} {fuel m : Nat} {c : Cursor} {rest : List Char}

theorem Inside.head (h : Inside rest) : ∀ x ∈ rest.head?, isBlank x = false := by
  obtain ⟨x, t, rfl, hx, -⟩ := h
  rintro _ ⟨⟩
  exact hx

theorem all_isBlank (n : Nat) : (List.replicate n ' ').all isBlank = true := by
  rw [List.all_replicate]
  split <;> rfl

theorem run_takeWhile_blanks (h : c.rest = List.replicate m ' ' ++ rest) (hrest : Inside rest) :
    takeWhile isBlank c = (.ok (List.replicate m ' '), c.advance m) := by
  have := run_takeWhile_append h (all_isBlank m) hrest.head
  rwa [List.length_replicate] at this

theorem run_quotedBreaks {k : Nat} (h : c.rest = List.replicate k '\n' ++ (List.replicate (m + 1) ' ' ++ rest))
    (hrest : Inside rest) (hfuel : k < fuel) :
    quotedBreaks start fuel c = (.ok (List.replicate k '\n'), c.advance (k + (m + 1))) := by
  induction k generalizing c fuel with
  | zero =>
    obtain ⟨fuel, rfl⟩ : ∃ n, fuel = n + 1 := ⟨fuel - 1, by omega⟩
    rw [List.replicate_zero, List.nil_append] at h
    have hseparator : c.atSeparator = false := Cursor.not_atSeparator (by rw [h]; rintro _ ⟨⟩; decide)
    rw [quotedBreaks, Act.bind_ok run_get, hseparator, if_neg Bool.false_ne_true, Nat.zero_add]
    dsimp only
    rw [Act.bind_ok (run_takeWhile_blanks h hrest)]
    have hafter : (c.advance (m + 1)).rest = rest := by
      rw [Cursor.rest_advance, h, List.drop_left' (by simp)]
    obtain ⟨x, t, rfl, -, hbreak, -⟩ := hrest
    rw [Act.bind_ok (run_peek_zero hafter), hbreak, if_neg Bool.false_ne_true]
    rfl
  | succ k ih =>
    obtain ⟨fuel, rfl⟩ : ∃ n, fuel = n + 1 := ⟨fuel - 1, by omega⟩
    rw [List.replicate_succ, List.cons_append] at h
    have hseparator : c.atSeparator = false := Cursor.not_atSeparator (by rw [h]; rintro _ ⟨⟩; decide)
    rw [quotedBreaks, Act.bind_ok run_get, hseparator, if_neg Bool.false_ne_true]
    dsimp only
    rw [Act.bind_ok (run_takeWhile_none h rfl), Act.bind_ok (run_peek_zero h),
      if_pos (show isBreak '\n' = true from rfl), Act.bind_ok (run_takeBreak h)]
    have hrec := ih (c := c.step) (by rw [Cursor.rest_step, h]; rfl) (Nat.lt_of_succ_lt_succ hfuel)
    rw [Act.bind_ok hrec, Nat.add_right_comm k 1]
    rfl

theorem run_quotedGap_blanks (h : c.rest = List.replicate m ' ' ++ rest) (hrest : Inside rest) :
    quotedGap start fuel c = (.ok (points (List.replicate m ' ')), c.advance m) := by
  rw [quotedGap, Act.bind_ok (run_takeWhile_blanks h hrest)]
  have hafter : (c.advance m).rest = rest := by
    rw [Cursor.rest_advance, h, List.drop_left' (by simp)]
  obtain ⟨x, t, rfl, -, hbreak, hnull⟩ := hrest
  rw [Act.bind_ok (run_peek_zero hafter), if_neg hnull, hbreak, if_neg Bool.false_ne_true]
  rfl

def lineEnds (k : Nat) : List Char := if k = 0 then [' '] else List.replicate k '\n'

theorem run_quotedGap_lines {k : Nat}
    (h : c.rest = '\n' :: (List.replicate k '\n' ++ (List.replicate (m + 1) ' ' ++ rest)))
    (hrest : Inside rest) (hfuel : k < fuel) :
    quotedGap start fuel c = (.ok (points (lineEnds k)), c.advance (k + (m + 1) + 1)) := by
  have hbreaks : quotedBreaks start fuel c.step = (.ok (List.replicate k '\n'), c.step.advance (k + (m + 1))) :=
    run_quotedBreaks (by rw [Cursor.rest_step, h]; rfl) hrest hfuel
  rw [quotedGap, Act.bind_ok (run_takeWhile_none h rfl), Act.bind_ok (run_peek_zero h), if_neg (by decide),
    if_pos (show isBreak '\n' = true from rfl), Act.bind_ok (run_takeBreak h), Act.bind_ok hbreaks]
  cases k <;> rfl

end Gaps

section Escapes

variable {start : Mark} {fuel : Nat} {c : Cursor} {rest : List Char}

theorem mapM_reads {σ ε α β : Type} {f : α → Act σ ε β} {g : α → β} {s : σ} {l : List α}
    (h : ∀ a ∈ l, f a s = (.ok (g a), s)) : l.mapM f s = (.ok (l.map g), s) := by
  induction l with
  | nil => rfl
  | cons a l ih =>
    obtain ⟨ha, hl⟩ := List.forall_mem_cons.mp h
    rw [List.mapM_cons, Act.bind_ok ha, Act.bind_ok (ih hl)]
    rfl

theorem hexValue?_upperAscii {d : Nat} (h : d < 16) :
    Text.Units.hexValue? (Schema.upperAscii (Text.hexDigit d)) = some d := by
  have hall : ∀ d < 16, Text.Units.hexValue? (Schema.upperAscii (Text.hexDigit d)) = some d := by decide
  exact hall d h

theorem run_escapeDigit {width n count k d : Nat} (h : c.rest = Sheet.capitalHex width n ++ rest)
    (hd : (Text.nibbles width n)[k]? = some d) : escapeDigit start count k c = (.ok d, c) := by
  have hk : k < width := by
    rw [← Text.length_nibbles width n]
    exact (List.getElem?_eq_some_iff.mp hd).1
  have hpeek : c.peek k = Schema.upperAscii (Text.hexDigit d) := by
    rw [Cursor.peek, h, Sheet.capitalHex, Text.hex_eq_map,
      List.getElem?_append_left (by simpa [Text.length_nibbles] using hk), List.getElem?_map, List.getElem?_map, hd]
    rfl
  have hlt : d < 16 := Text.nibbles_lt width n d (List.mem_of_getElem? hd)
  have hinside : k < c.rest.length := by
    rw [h, Sheet.capitalHex, List.length_append, List.length_map, Text.length_hex]
    omega
  rw [escapeDigit, Act.bind_ok (run_peek hinside), hpeek, hexValue?_upperAscii hlt]
  rfl

theorem run_escapeNumber {width n : Nat} (h : c.rest = Sheet.capitalHex width n ++ rest) (hn : n < 16 ^ width) :
    escapeNumber start width c = (.ok n, c.advance width) := by
  have hlength := Text.length_nibbles width n
  have hdigits : ∀ k ∈ List.range width, escapeDigit start width k c =
      (.ok ((Text.nibbles width n)[k]?.getD 0), c) := by
    intro k hk
    rw [List.mem_range, ← hlength] at hk
    rw [run_escapeDigit h (List.getElem?_eq_getElem hk), List.getElem?_eq_getElem hk]
    rfl
  have hall : (List.range width).map (fun k => (Text.nibbles width n)[k]?.getD 0) = Text.nibbles width n := by
    apply List.ext_getElem
    · simp [hlength]
    · intro k hk hk'
      simp [hk']
  rw [escapeNumber, Act.bind_ok (mapM_reads hdigits), hall, Text.foldl_nibbles hn]
  rfl

theorem run_escaped_short {e x : Char} (h : c.rest = '\\' :: e :: rest) (he : escapes.lookup e = some x) :
    escaped start fuel c = (.ok [x.toNat], c.advance 2) := by
  have hstep : (c.advance 1).rest = e :: rest := by
    rw [Cursor.rest_advance, h]
    rfl
  rw [escaped, Act.bind_ok (run_forward 1), Act.bind_ok (run_peek_zero hstep), he]
  rfl

theorem run_escaped_number {e : Char} {width n : Nat} (h : c.rest = '\\' :: e :: (Sheet.capitalHex width n ++ rest))
    (he : escapes.lookup e = none) (hwidth : numberEscapes.lookup e = some width) (hn : n < 16 ^ width)
    (hpoint : n ≤ 0x10ffff) :
    escaped start fuel c = (.ok [n], c.advance ('\\' :: e :: Sheet.capitalHex width n).length) := by
  have hlength : ('\\' :: e :: Sheet.capitalHex width n).length = 2 + width := by
    rw [List.length_cons, List.length_cons, Sheet.capitalHex, List.length_map, Text.length_hex]
    omega
  have hstep : (c.advance 1).rest = e :: (Sheet.capitalHex width n ++ rest) := by
    rw [Cursor.rest_advance, h]
    rfl
  have hnumber : escapeNumber start width (c.advance 2) = (.ok n, (c.advance 2).advance width) :=
    run_escapeNumber (by rw [Cursor.rest_advance, h]; rfl) hn
  have hvalue : pointOf n = pure n := by
    unfold pointOf
    rw [if_neg (by omega), if_neg (by omega)]
  rw [escaped, Act.bind_ok (run_forward 1), Act.bind_ok (run_peek_zero hstep), he, hwidth]
  dsimp only
  rw [Act.bind_ok (run_forward 1)]
  show ((escapeNumber start width >>= fun n => pointOf n >>= fun x => pure [x]) : Scan (List Nat)) (c.advance 2) = _
  rw [Act.bind_ok hnumber, hvalue, ← Cursor.advance_add, hlength]
  rfl

theorem run_escaped_line {m : Nat} (h : c.rest = '\\' :: '\n' :: (List.replicate (m + 1) ' ' ++ rest))
    (hrest : Inside rest) (hfuel : 0 < fuel) : escaped start fuel c = (.ok [], c.advance (m + 3)) := by
  have hstep : (c.advance 1).rest = '\n' :: (List.replicate (m + 1) ' ' ++ rest) := by
    rw [Cursor.rest_advance, h]
    rfl
  have hbreaks : quotedBreaks start fuel (c.advance 1).step = (.ok [], (c.advance 1).step.advance (0 + (m + 1))) :=
    run_quotedBreaks (k := 0) (by rw [Cursor.rest_step, hstep]; rfl) hrest hfuel
  rw [escaped, Act.bind_ok (run_forward 1), Act.bind_ok (run_peek_zero hstep)]
  show ((takeBreak >>= fun _ => points <$> quotedBreaks start fuel) : Scan (List Nat)) (c.advance 1) = _
  rw [Act.bind_ok (run_takeBreak hstep)]
  show ((quotedBreaks start fuel >>= fun s => pure (points s)) : Scan (List Nat)) _ = _
  rw [Act.bind_ok hbreaks, Nat.zero_add]
  rfl

theorem lookup_escapes : Sheet.shortEscapes.all (fun p => escapes.lookup p.2 = some p.1) = true := by decide

theorem run_escaped {x : Char} {e : List Char} (he : Sheet.escape? x = some e) (h : c.rest = e ++ rest) :
    escaped start fuel c = (.ok [x.toNat], c.advance e.length) := by
  have hvalid : x.toNat < 0xd800 ∨ 0xdfff < x.toNat ∧ x.toNat < 0x110000 := x.valid
  unfold Sheet.escape? at he
  cases hlookup : Sheet.shortEscapes.lookup x with
  | some d =>
    rw [hlookup] at he
    cases he
    exact run_escaped_short h
      (by simpa using List.all_eq_true.mp lookup_escapes _ (Sheet.lookup_shortEscapes hlookup))
  | none =>
    rw [hlookup] at he
    dsimp only at he
    split_ifs at he <;> cases he <;> exact run_escaped_number h rfl rfl (by omega) (by omega)

end Escapes

end Scan

def GoesOn (t : List Char) : Prop := ∀ c ∈ t.head?, c ≠ ' ' ∧ c ≠ '\n'

inductive Spells (indent : Nat) : Quote → List Char → List Char → Prop
  | nil {q : Quote} : Spells indent q [] []
  | plain {q : Quote} {c : Char} {s t : List Char} (hp : isPrinted c = true) (hc : isQuotedPlain c = true)
    (h : Spells indent q s t) : Spells indent q (c :: s) (c :: t)
  | blanks {q : Quote} {s t : List Char} (n : Nat) (ht : GoesOn t) (h : Spells indent q s t) :
    Spells indent q (List.replicate (n + 1) ' ' ++ s) (List.replicate (n + 1) ' ' ++ t)
  | lines {q : Quote} {s t : List Char} (k : Nat) (ht : GoesOn t) (h : Spells indent q s t) :
    Spells indent q (Scan.lineEnds k ++ s) ('\n' :: (List.replicate k '\n' ++ (List.replicate indent ' ' ++ t)))
  | apostrophe {s t : List Char} (h : Spells indent .single s t) :
    Spells indent .single ('\'' :: s) ('\'' :: '\'' :: t)
  | other {q : Quote} {c : Char} {s t : List Char}
    (hc : (q = .double ∧ c = '\'') ∨ (q = .single ∧ (c = '"' ∨ c = '\\'))) (h : Spells indent q s t) :
    Spells indent q (c :: s) (c :: t)
  | escape {c : Char} {e s t : List Char} (he : Sheet.escape? c = some e) (h : Spells indent .double s t) :
    Spells indent .double (c :: s) (e ++ t)
  | escapedBlank {s t : List Char} (h : Spells indent .double s t) :
    Spells indent .double (' ' :: s) ('\\' :: ' ' :: t)
  | fold {s t : List Char} (ht : GoesOn t) (h : Spells indent .double s t) :
    Spells indent .double s ('\\' :: '\n' :: (List.replicate indent ' ' ++ t))

namespace Spells

variable {q : Quote} {indent : Nat} {s t : List Char}

theorem blank (ht : t.head? ≠ some '\n') (h : Spells indent q s t) : Spells indent q (' ' :: s) (' ' :: t) := by
  have hone (hgoes : GoesOn t) : Spells indent q (' ' :: s) (' ' :: t) := .blanks 0 hgoes h
  cases h with
  | nil => exact hone (by rintro c ⟨⟩)
  | @plain _ c s t hp hc h =>
    refine hone ?_
    rintro _ ⟨⟩
    exact ⟨by rintro rfl; simp [isQuotedPlain, endsWord, endsItem] at hc,
      by rintro rfl; simp [isQuotedPlain, endsWord, endsItem, endsLine, isBreak] at hc⟩
  | blanks n hgoes h => exact .blanks (n + 1) hgoes h
  | lines => exact absurd rfl ht
  | apostrophe h => exact hone (by rintro c ⟨⟩; decide)
  | @other _ c s t hc h =>
    refine hone ?_
    rintro _ ⟨⟩
    rcases hc with ⟨-, rfl⟩ | ⟨-, rfl | rfl⟩ <;> decide
  | @escape c e s t he h =>
    obtain ⟨e, rfl, -⟩ := Sheet.escape?_eq he
    exact hone (by rintro c ⟨⟩; decide)
  | escapedBlank h => exact hone (by rintro c ⟨⟩; decide)
  | fold _ h => exact hone (by rintro c ⟨⟩; decide)

theorem printed (h : Spells indent q s t) : t.all (fun c => isPrinted c || c = '\n') = true := by
  have hspaces (n : Nat) : (List.replicate n ' ').all (fun c => isPrinted c || c = '\n') = true := by
    rw [List.all_replicate]
    split <;> rfl
  have hbreaks (n : Nat) : (List.replicate n '\n').all (fun c => isPrinted c || c = '\n') = true := by
    rw [List.all_replicate]
    split <;> rfl
  induction h with
  | nil => rfl
  | plain hp _ _ ih => simp [hp, ih]
  | blanks n _ _ ih => rw [List.all_append, hspaces, ih]; rfl
  | lines k _ _ ih => rw [List.all_cons, List.all_append, List.all_append, hbreaks, hspaces, ih]; rfl
  | apostrophe _ ih => rw [List.all_cons, List.all_cons, ih]; rfl
  | other hc _ ih =>
    rw [List.all_cons, ih]
    rcases hc with ⟨-, rfl⟩ | ⟨-, rfl | rfl⟩ <;> rfl
  | escape he _ ih =>
    obtain ⟨e, rfl, hprinted⟩ := Sheet.escape?_eq he
    rw [List.all_append, ih, Bool.and_true, List.all_cons]
    exact Bool.and_eq_true_iff.mpr ⟨rfl, List.all_eq_true.mpr fun c hc => by simp [List.all_eq_true.mp hprinted c hc]⟩
  | escapedBlank _ ih => rw [List.all_cons, List.all_cons, ih]; rfl
  | fold _ _ ih => rw [List.all_cons, List.all_cons, List.all_append, hspaces, ih]; rfl

end Spells

def Scan.quotedBody (q : Quote) (start : Mark) (f g : Nat) : Scan (List Nat) := do
  let word ← quotedWord q start f
  let rest ← quotedRest q start g
  pure (word ++ rest)

namespace Scan

section Body

variable {q : Quote} {start : Mark} {f f' g : Nat} {c c' c'' : Cursor} {x : Char} {rest : List Char}
  {ns gap text : List Nat}

theorem quotedBody_word (text : List Nat) (hword : ∀ ms c'', quotedWord q start f c' = (.ok ms, c'') →
    quotedWord q start f' c = (.ok (text ++ ms), c'')) (h : quotedBody q start f g c' = (.ok ns, c'')) :
    quotedBody q start f' g c = (.ok (text ++ ns), c'') := by
  obtain ⟨word, c₁, h₁, h⟩ := Act.ok_of_bind h
  obtain ⟨others, c₂, h₂, h⟩ := Act.ok_of_bind h
  cases h
  rw [quotedBody, Act.bind_ok (hword _ _ h₁), Act.bind_ok h₂, ← List.append_assoc]
  rfl

theorem quotedBody_mark (h : c.rest = x :: rest) (hx : isQuotedPlain x = false)
    (hmark : quotedMark q start f c = (.ok (some text), c')) (hbody : quotedBody q start f g c' = (.ok ns, c'')) :
    quotedBody q start (f + 1) g c = (.ok (text ++ ns), c'') :=
  quotedBody_word text (fun _ _ hword => quotedWord_mark h hx hmark hword) hbody

theorem quotedBody_gap (h : c.rest = x :: rest) (hx : x = ' ' ∨ x = '\n')
    (hgap : quotedGap start g c = (.ok gap, c')) (hbody : quotedBody q start g g c' = (.ok ns, c'')) :
    quotedBody q start (f + 1) (g + 1) c = (.ok (gap ++ ns), c'') := by
  have hplain : isQuotedPlain x = false := by rcases hx with rfl | rfl <;> rfl
  have hmark : x ≠ q.mark := by rcases hx with rfl | rfl <;> cases q <;> decide
  obtain ⟨word, c₁, h₁, hbody⟩ := Act.ok_of_bind hbody
  obtain ⟨others, c₂, h₂, hbody⟩ := Act.ok_of_bind hbody
  cases hbody
  have hrest : quotedRest q start (g + 1) c = (.ok (gap ++ (word ++ others)), c'') := by
    rw [quotedRest, Act.bind_ok (run_peek_zero h), if_neg hmark, Act.bind_ok hgap, Act.bind_ok h₁, Act.bind_ok h₂,
      ← List.append_assoc]
    rfl
  rw [quotedBody, Act.bind_ok (quotedWord_stop h hplain (quotedMark_gap h hx)), Act.bind_ok hrest]
  rfl

theorem quotedBody_close (h : c.rest = q.mark :: '\n' :: rest) :
    quotedBody q start (f + 1) (g + 1) c = (.ok [], c.advance 1) := by
  have hplain : isQuotedPlain q.mark = false := by cases q <;> rfl
  have hrest : quotedRest q start (g + 1) c = (.ok [], c.advance 1) := by
    rw [quotedRest, Act.bind_ok (run_peek_zero h), if_pos rfl]
    rfl
  rw [quotedBody, Act.bind_ok (quotedWord_stop h hplain (quotedMark_close h (by decide))), Act.bind_ok hrest]
  rfl

end Body

end Scan

theorem GoesOn.inside {t rest : List Char} (h : GoesOn t) (hp : t.all (fun c => isPrinted c || c = '\n') = true)
    (q : Quote) :
    Scan.Inside (t ++ q.mark :: rest) := by
  cases t with
  | nil => cases q <;> exact ⟨_, _, rfl, rfl, rfl, by decide⟩
  | cons x t =>
    obtain ⟨hspace, hbreak⟩ := h x rfl
    have hx : isPrinted x = true := by simpa [hbreak] using (List.all_eq_true.mp hp) x (List.mem_cons_self ..)
    have hne {d : Char} (hd : isPrinted d = false) : x ≠ d := ne_of_isPrinted hx hd
    exact ⟨x, _, rfl, by simp [isBlank, hspace, hne (d := '\t') rfl], isBreak_of_isPrinted hx, hne rfl⟩

theorem Spells.read {q : Quote} {indent : Nat} {s t : List Char} (h : Spells (indent + 1) q s t) (start : Mark)
    {f g : Nat} {c : Cursor} {rest : List Char} (hc : c.rest = t ++ q.mark :: '\n' :: rest) (hf : t.length < f)
    (hg : t.length < g) :
    Scan.quotedBody q start f g c = (.ok (points s), c.advance (t.length + 1)) := by
  -- each piece of the spelling moves the cursor behind it, and the rest is read from there
  have hmoved {c : Cursor} (a : Nat) {b n : Nat} (hn : a + b = n) : (c.advance a).advance b = c.advance n := by
    rw [← Cursor.advance_add, hn]
  obtain ⟨f, rfl⟩ : ∃ n, f = n + 1 := ⟨f - 1, by omega⟩
  obtain ⟨g, rfl⟩ : ∃ n, g = n + 1 := ⟨g - 1, by omega⟩
  induction h generalizing c f g with
  | nil => exact Scan.quotedBody_close hc
  | @plain q x s t hp hx h ih =>
    have hnext := ih (c := c.step) (by rw [Cursor.rest_step, hc]; rfl) f (Nat.lt_of_succ_lt hf) g (Nat.lt_of_succ_lt hg)
    exact Scan.quotedBody_word [x.toNat] (fun _ _ hword => Scan.quotedWord_plain hc hx hword) hnext
  | @blanks q s t n ht h ih =>
    simp only [List.length_append, List.length_replicate] at hf hg
    obtain ⟨g, rfl⟩ : ∃ n, g = n + 1 := ⟨g - 1, by omega⟩
    have hinside : Scan.Inside (t ++ q.mark :: '\n' :: rest) := ht.inside h.printed q
    have hgap : Scan.quotedGap start (g + 1) c = (.ok (points (List.replicate (n + 1) ' ')), c.advance (n + 1)) :=
      Scan.run_quotedGap_blanks (by rw [hc, List.append_assoc]) hinside
    have hnext := ih (c := c.advance (n + 1))
        (by rw [Cursor.rest_advance, hc, List.append_assoc, List.drop_left' (by simp)])
      g (by omega) g (by omega)
    rw [hmoved (n + 1) (n := (List.replicate (n + 1) ' ' ++ t).length + 1) (by simp; omega)] at hnext
    rw [points, List.map_append]
    exact Scan.quotedBody_gap (by rw [hc]; rfl) (.inl rfl) hgap hnext
  | @lines q s t k ht h ih =>
    simp only [List.length_append, List.length_replicate, List.length_cons] at hf hg
    obtain ⟨g, rfl⟩ : ∃ n, g = n + 1 := ⟨g - 1, by omega⟩
    have hinside : Scan.Inside (t ++ q.mark :: '\n' :: rest) := ht.inside h.printed q
    have hgap : Scan.quotedGap start (g + 1) c = (.ok (points (Scan.lineEnds k)), c.advance (k + (indent + 1) + 1)) :=
      Scan.run_quotedGap_lines (by rw [hc]; simp) hinside (by omega)
    have hnext := ih (c := c.advance (k + (indent + 1) + 1))
      (by rw [Cursor.rest_advance, hc]; simp [List.drop_append]) g (by omega) g (by omega)
    rw [hmoved _ (n := ('\n' :: (List.replicate k '\n' ++ (List.replicate (indent + 1) ' ' ++ t))).length + 1)
      (by simp; omega)] at hnext
    rw [points, List.map_append]
    exact Scan.quotedBody_gap hc (.inr rfl) hgap hnext
  | @apostrophe s t h ih =>
    simp only [List.length_cons] at hf hg
    obtain ⟨f, rfl⟩ : ∃ n, f = n + 1 := ⟨f - 1, by omega⟩
    have hnext := ih (c := c.advance 2) (by rw [Cursor.rest_advance, hc]; rfl) f (by omega) g (by omega)
    exact Scan.quotedBody_mark hc rfl (Scan.quotedMark_apostrophe hc) hnext
  | @other q x s t hx h ih =>
    simp only [List.length_cons] at hf hg
    obtain ⟨f, rfl⟩ : ∃ n, f = n + 1 := ⟨f - 1, by omega⟩
    have hplain : isQuotedPlain x = false := by rcases hx with ⟨-, rfl⟩ | ⟨-, rfl | rfl⟩ <;> rfl
    have hnext := ih (c := c.step) (by rw [Cursor.rest_step, hc]; rfl) f (by omega) g (by omega)
    exact Scan.quotedBody_mark hc hplain (Scan.quotedMark_other hc hx) hnext
  | @escape x e s t he h ih =>
    obtain ⟨e, rfl, -⟩ := Sheet.escape?_eq he
    simp only [List.length_append, List.length_cons] at hf hg
    obtain ⟨f, rfl⟩ : ∃ n, f = n + 1 := ⟨f - 1, by omega⟩
    have hescaped : Scan.escaped start (f + 1) c = (.ok [x.toNat], c.advance ('\\' :: e).length) :=
      Scan.run_escaped he (by rw [hc, List.append_assoc])
    have hnext := ih (c := c.advance ('\\' :: e).length)
      (by rw [Cursor.rest_advance, hc, List.append_assoc, List.drop_left]) f (by omega) g (by omega)
    rw [hmoved _ (n := ('\\' :: e ++ t).length + 1) (by simp; omega)] at hnext
    exact Scan.quotedBody_mark hc rfl (Scan.quotedMark_escape hc hescaped) hnext
  | @escapedBlank s t h ih =>
    simp only [List.length_cons] at hf hg
    obtain ⟨f, rfl⟩ : ∃ n, f = n + 1 := ⟨f - 1, by omega⟩
    have hescaped : Scan.escaped start (f + 1) c = (.ok [' '.toNat], c.advance 2) := Scan.run_escaped_short hc rfl
    have hnext := ih (c := c.advance 2) (by rw [Cursor.rest_advance, hc]; rfl) f (by omega) g (by omega)
    exact Scan.quotedBody_mark hc rfl (Scan.quotedMark_escape hc hescaped) hnext
  | @fold s t ht h ih =>
    simp only [List.length_append, List.length_replicate, List.length_cons] at hf hg
    obtain ⟨f, rfl⟩ : ∃ n, f = n + 1 := ⟨f - 1, by omega⟩
    have hinside : Scan.Inside (t ++ Quote.double.mark :: '\n' :: rest) := ht.inside h.printed .double
    have hescaped : Scan.escaped start (f + 1) c = (.ok [], c.advance (indent + 3)) :=
      Scan.run_escaped_line (by rw [hc]; simp) hinside (by omega)
    have hnext := ih (c := c.advance (indent + 3))
      (by rw [Cursor.rest_advance, hc]; simp) f (by omega) g (by omega)
    rw [hmoved _ (n := ('\\' :: '\n' :: (List.replicate (indent + 1) ' ' ++ t)).length + 1) (by simp; omega)] at hnext
    exact Scan.quotedBody_mark hc rfl (Scan.quotedMark_escape hc hescaped) hnext

theorem Spells.quoted {q : Quote} {indent : Nat} {s t : List Char} (h : Spells (indent + 1) q s t) {fuel : Nat}
    {c : Cursor} {rest : List Char} (hc : c.rest = q.mark :: t ++ q.mark :: '\n' :: rest) (hfuel : t.length < fuel) :
    Scan.quoted q fuel c = (.ok s, c.advance (t.length + 2)) := by
  have hbody := h.read c.mark (c := c.advance 1) (by rw [Cursor.rest_advance, hc]; rfl) hfuel hfuel
  obtain ⟨word, c₁, h₁, hbody⟩ := Act.ok_of_bind hbody
  obtain ⟨others, c₂, h₂, hbody⟩ := Act.ok_of_bind hbody
  have hpoints : word ++ others = points s := by
    injection hbody with hbody
    injection hbody
  have hcursor : c₂ = (c.advance 1).advance (t.length + 1) := by
    injection hbody
  show ((Scan.quotedWord q c.mark fuel >>= fun word => Scan.quotedRest q c.mark fuel >>= fun rest =>
    pure (Text.Units.decode (word ++ rest))) : Scan (List Char)) (c.advance 1) = _
  rw [Act.bind_ok h₁, Act.bind_ok h₂, hpoints, hcursor, points, Text.Units.decode_toNat, ← Cursor.advance_add,
    Nat.add_comm 1]
  rfl

end Playpen.Yaml
