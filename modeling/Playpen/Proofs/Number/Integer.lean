import Mathlib.Data.Nat.Digits.Defs
import Playpen.Number.Numeral
import Playpen.Proofs.Text.Lines

namespace Playpen.Numeral

open Text (IsEdgeWhite digitZeros digitValue? isAsciiDigit isEdgeBlank trimBy)

def IsDigit (c : Char) (d : Nat) : Prop := d < 10 ∧ ∃ z ∈ digitZeros, c.toNat = z + d

inductive Digits : List Char → List Nat → Prop
  | one {c : Char} {d : Nat} (h : IsDigit c d) : Digits [c] [d]
  | next {c : Char} {d : Nat} {s : List Char} {ds : List Nat} (h : IsDigit c d) (hs : Digits s ds) :
    Digits (c :: s) (d :: ds)
  | apart {c : Char} {d : Nat} {s : List Char} {ds : List Nat} (h : IsDigit c d) (hs : Digits s ds) :
    Digits (c :: '_' :: s) (d :: ds)

def value (ds : List Nat) : Nat := Nat.ofDigits 10 ds.reverse

inductive Signed : List Char → Int → Prop
  | plain {s : List Char} {ds : List Nat} (h : Digits s ds) (hlength : ds.length ≤ 4300) : Signed s (value ds)
  | plus {s : List Char} {ds : List Nat} (h : Digits s ds) (hlength : ds.length ≤ 4300) : Signed ('+' :: s) (value ds)
  | minus {s : List Char} {ds : List Nat} (h : Digits s ds) (hlength : ds.length ≤ 4300) :
    Signed ('-' :: s) (-(value ds : Int))

def Spells (s : String) (i : Int) : Prop :=
  ∃ before body after, s.toList = before ++ body ++ after ∧ (∀ c ∈ before, IsEdgeWhite c) ∧
    (∀ c ∈ after, IsEdgeWhite c) ∧ Signed body i

section

variable {c : Char} {d n : Nat} {s t : List Char} {ds : List Nat} {i : Int}

theorem zeros_apart : ∀ z ∈ digitZeros, ∀ z' ∈ digitZeros, z < z' → z + 10 ≤ z' := by decide +kernel

theorem digitValue?_eq_some_iff : digitValue? c = some d ↔ IsDigit c d := by
  rw [digitValue?, Option.map_eq_some_iff, IsDigit]
  constructor
  · rintro ⟨z, hfind, rfl⟩
    have hrange := List.find?_some hfind
    simp only [Bool.and_eq_true, decide_eq_true_eq] at hrange
    exact ⟨by omega, z, List.mem_of_find?_eq_some hfind, by omega⟩
  · rintro ⟨hd, z, hz, hc⟩
    have hsome : (digitZeros.find? fun z => z ≤ c.toNat && c.toNat < z + 10).isSome = true := by
      rw [List.find?_isSome]
      exact ⟨z, hz, by simp only [Bool.and_eq_true, decide_eq_true_eq]; omega⟩
    obtain ⟨found, hfind⟩ := Option.isSome_iff_exists.mp hsome
    have hrange := List.find?_some hfind
    simp only [Bool.and_eq_true, decide_eq_true_eq] at hrange
    refine ⟨found, hfind, ?_⟩
    have hless := zeros_apart z hz found (List.mem_of_find?_eq_some hfind)
    have hmore := zeros_apart found (List.mem_of_find?_eq_some hfind) z hz
    omega

def digitChar (d : Nat) : Char := Char.ofNat (48 + d)

theorem digitChar_facts : ∀ d < 10, isAsciiDigit (digitChar d) = true ∧ digitOf (digitChar d) = d ∧
    isEdgeBlank (digitChar d) = false ∧ digitChar d ∉ ['_', '-', '+'] := by decide

theorem zeros_visible : ∀ z ∈ digitZeros, ∀ d < 10, isEdgeBlank (Char.ofNat (z + d)) = false ∧
    z + d ∉ ['_'.toNat, '-'.toNat, '+'.toNat] := by decide +kernel

theorem IsDigit.not_isEdgeBlank (h : IsDigit c d) : isEdgeBlank c = false := by
  obtain ⟨hd, z, hz, hc⟩ := h
  rw [← Char.ofNat_toNat c, hc]
  exact (zeros_visible z hz d hd).1

theorem IsDigit.not_mark (h : IsDigit c d) : c ∉ ['_', '-', '+'] := by
  obtain ⟨hd, z, hz, hc⟩ := h
  intro hmark
  apply (zeros_visible z hz d hd).2
  rw [← hc]
  exact List.mem_map_of_mem hmark

theorem isDigit_of_isAsciiDigit (h : isAsciiDigit c = true) : IsDigit c (c.toNat - 48) := by
  simp only [isAsciiDigit, Bool.and_eq_true, decide_eq_true_eq] at h
  have hrange : 48 ≤ c.toNat ∧ c.toNat ≤ 57 := h
  exact ⟨by omega, 48, List.mem_cons_self, by omega⟩

theorem normalize_of_isDigit (h : IsDigit c d) : normalize c = digitChar d := by
  rw [normalize, digitValue?_eq_some_iff.mpr h]
  rfl

theorem normalize_of_not_isDigit (h : ∀ d, ¬IsDigit c d) : normalize c = if isEdgeBlank c then ' ' else c := by
  have hnone : digitValue? c = none := Option.eq_none_iff_forall_ne_some.mpr fun d hd =>
    h d (digitValue?_eq_some_iff.mp hd)
  rw [normalize, hnone]

theorem isEdgeBlank_normalize (c : Char) : isEdgeBlank (normalize c) = isEdgeBlank c := by
  by_cases h : ∃ d, IsDigit c d
  · obtain ⟨d, hd⟩ := h
    rw [normalize_of_isDigit hd, (digitChar_facts d hd.1).2.2.1, hd.not_isEdgeBlank]
  · rw [normalize_of_not_isDigit (not_exists.mp h)]
    cases hc : isEdgeBlank c with
    | true => rfl
    | false => exact hc

theorem isAsciiDigit_normalize (c : Char) : isAsciiDigit (normalize c) = true ↔ ∃ d, IsDigit c d := by
  constructor
  · intro hdigit
    by_contra h
    rw [normalize_of_not_isDigit (not_exists.mp h)] at hdigit
    split at hdigit
    · cases hdigit
    · exact h ⟨_, isDigit_of_isAsciiDigit hdigit⟩
  · rintro ⟨d, hd⟩
    rw [normalize_of_isDigit hd]
    exact (digitChar_facts d hd.1).1

theorem normalize_eq_mark {m : Char} (hm : m ∈ ['_', '-', '+']) : normalize c = m ↔ c = m := by
  by_cases h : ∃ d, IsDigit c d
  · obtain ⟨d, hd⟩ := h
    rw [normalize_of_isDigit hd]
    refine iff_of_false ?_ ?_ <;> rintro rfl
    · exact (digitChar_facts d hd.1).2.2.2 hm
    · exact hd.not_mark hm
  · have hblanks : ∀ m ∈ ['_', '-', '+'], ' ' ≠ m ∧ isEdgeBlank m = false := by
      intro m hm
      simp only [List.mem_cons, List.not_mem_nil, or_false] at hm
      obtain rfl | rfl | rfl := hm <;> decide
    rw [normalize_of_not_isDigit (not_exists.mp h)]
    split
    · rename_i hc
      refine iff_of_false (hblanks m hm).1 ?_
      rintro rfl
      cases hc.symm.trans (hblanks c hm).2
    · exact Iff.rfl

theorem joined?_next (c : Char) {e : Char} (he : e ≠ '_') (rest : List Char) : joined? (c :: e :: rest) =
    if isAsciiDigit c then (joined? (e :: rest)).map (c :: ·) else none := by
  rw [joined?.eq_def]
  dsimp only
  rw [if_neg he]
  cases isAsciiDigit c <;> rfl

theorem joined?_apart (c e : Char) (rest : List Char) : joined? (c :: '_' :: e :: rest) =
    if isAsciiDigit c && isAsciiDigit e then (joined? (e :: rest)).map (c :: ·) else none := by
  rw [joined?, if_pos rfl]
  cases isAsciiDigit c <;> rfl

theorem joined?_end (c : Char) : joined? [c, '_'] = none := by
  rw [joined?, if_pos rfl, ite_self]

theorem digits_of_joined? {s t : List Char} (h : joined? (s.map normalize) = some t) (hs : s ≠ []) :
    ∃ ds, Digits s ds ∧ t = ds.map digitChar := by
  match s with
  | [] => exact absurd rfl hs
  | [c] =>
    rw [List.map_singleton, joined?] at h
    split at h
    · rename_i hc
      obtain ⟨d, hd⟩ := (isAsciiDigit_normalize c).mp hc
      cases h
      exact ⟨[d], .one hd, by rw [normalize_of_isDigit hd]; rfl⟩
    · cases h
  | c :: e :: rest =>
    by_cases he : e = '_'
    · subst he
      have hmark : normalize '_' = '_' := (normalize_eq_mark (by simp)).mpr rfl
      cases rest with
      | nil =>
        rw [List.map_cons, List.map_singleton, hmark, joined?_end] at h
        cases h
      | cons e rest =>
        rw [List.map_cons, List.map_cons, List.map_cons, hmark, joined?_apart, ← List.map_cons] at h
        split at h
        · rename_i hdigits
          obtain ⟨d, hd⟩ := (isAsciiDigit_normalize c).mp (Bool.and_eq_true_iff.mp hdigits).1
          obtain ⟨t, ht, rfl⟩ := Option.map_eq_some_iff.mp h
          obtain ⟨ds, hds, rfl⟩ := digits_of_joined? ht (List.cons_ne_nil _ _)
          exact ⟨d :: ds, .apart hd hds, by rw [normalize_of_isDigit hd]; rfl⟩
        · cases h
    · have hmark : normalize e ≠ '_' := mt (normalize_eq_mark (by simp)).mp he
      rw [List.map_cons, List.map_cons, joined?_next _ hmark, ← List.map_cons] at h
      split at h
      · rename_i hc
        obtain ⟨d, hd⟩ := (isAsciiDigit_normalize c).mp hc
        obtain ⟨t, ht, rfl⟩ := Option.map_eq_some_iff.mp h
        obtain ⟨ds, hds, rfl⟩ := digits_of_joined? ht (List.cons_ne_nil _ _)
        exact ⟨d :: ds, .next hd hds, by rw [normalize_of_isDigit hd]; rfl⟩
      · cases h
termination_by s.length

theorem Digits.head (h : Digits s ds) : ∃ c t d, s = c :: t ∧ IsDigit c d := by
  cases h <;> exact ⟨_, _, _, rfl, ‹_›⟩

theorem Digits.ne_nil (h : Digits s ds) : ds ≠ [] := by
  cases h <;> exact List.cons_ne_nil _ _

theorem joined?_of_digits (h : Digits s ds) : joined? (s.map normalize) = some (ds.map digitChar) := by
  induction h with
  | one hd =>
    rw [List.map_singleton, joined?, if_pos ((isAsciiDigit_normalize _).mpr ⟨_, hd⟩), normalize_of_isDigit hd]
    rfl
  | next hd hs ih =>
    obtain ⟨e, rest, d', rfl, he⟩ := hs.head
    have hmark : normalize e ≠ '_' := fun hn => he.not_mark (by rw [(normalize_eq_mark (by simp)).mp hn]; simp)
    rw [List.map_cons] at ih
    rw [List.map_cons, List.map_cons, joined?_next _ hmark, if_pos ((isAsciiDigit_normalize _).mpr ⟨_, hd⟩), ih,
      normalize_of_isDigit hd]
    rfl
  | apart hd hs ih =>
    obtain ⟨e, rest, d', rfl, he⟩ := hs.head
    have hmark : normalize '_' = '_' := (normalize_eq_mark (by simp)).mpr rfl
    rw [List.map_cons] at ih
    rw [List.map_cons, List.map_cons, List.map_cons, hmark, joined?_apart, (isAsciiDigit_normalize _).mpr ⟨_, hd⟩,
      (isAsciiDigit_normalize _).mpr ⟨_, he⟩, Bool.and_self, if_pos rfl, ih, normalize_of_isDigit hd]
    rfl

theorem ofDigits_map (h : ∀ d ∈ ds, d < 10) : ofDigits (ds.map digitChar) = value ds := by
  rw [ofDigits, List.foldl_map, value, Nat.ofDigits_eq_foldr, List.foldr_reverse]
  apply List.foldl_ext
  intro n d hd
  rw [(digitChar_facts d (h d hd)).2.1, Nat.add_comm]
  rfl

theorem Digits.lt (h : Digits s ds) : ∀ d ∈ ds, d < 10 := by
  induction h with
  | one hd => exact List.forall_mem_singleton.mpr hd.1
  | next hd hs ih => exact List.forall_mem_cons.mpr ⟨hd.1, ih⟩
  | apart hd hs ih => exact List.forall_mem_cons.mpr ⟨hd.1, ih⟩

theorem natural?_eq_some_iff {n : Nat} :
    natural? (s.map normalize) = some n ↔ ∃ ds, Digits s ds ∧ ds.length ≤ 4300 ∧ value ds = n := by
  constructor
  · intro h
    unfold natural? at h
    split at h
    · rename_i c cs hjoined
      have hs : s ≠ [] := by
        rintro rfl
        cases hjoined
      obtain ⟨ds, hds, hcs⟩ := digits_of_joined? hjoined hs
      rw [hcs, List.length_map, ofDigits_map hds.lt] at h
      split at h
      · rename_i hlength
        exact ⟨ds, hds, hlength, Option.some.inj h⟩
      · cases h
    · cases h
  · rintro ⟨ds, hds, hlength, rfl⟩
    obtain ⟨d, rest, rfl⟩ := List.exists_cons_of_ne_nil hds.ne_nil
    have hlength : ((d :: rest).map digitChar).length ≤ maxDigits := by rwa [List.length_map]
    rw [natural?, joined?_of_digits hds]
    show (if ((d :: rest).map digitChar).length ≤ maxDigits then some
        (ofDigits ((d :: rest).map digitChar)) else none) = _
    rw [if_pos hlength, ofDigits_map hds.lt]

theorem sign_plain (h : ∀ c ∈ s.head?, c ≠ '-' ∧ c ≠ '+') : sign s = (false, s) := by
  unfold sign
  split
  · exact absurd rfl (h _ rfl).1
  · exact absurd rfl (h _ rfl).2
  · rfl

def signed? (s : List Char) : Option Int :=
  let (negative, body) := sign (s.map normalize)
  (natural? body).map fun n : Nat => if negative then -(n : Int) else (n : Int)

theorem Digits.plain (h : Digits s ds) : sign (s.map normalize) = (false, s.map normalize) := by
  obtain ⟨c, t, d, rfl, hd⟩ := h.head
  apply sign_plain
  rintro _ ⟨⟩
  rw [ne_eq, ne_eq, normalize_eq_mark (by simp), normalize_eq_mark (by simp)]
  constructor <;> rintro rfl <;> exact hd.not_mark (by simp)

theorem sign_cases (s : List Char) : (∃ t, s = '-' :: t ∧ sign (s.map normalize) = (true, t.map normalize)) ∨
    (∃ t, s = '+' :: t ∧ sign (s.map normalize) = (false, t.map normalize)) ∨
      sign (s.map normalize) = (false, s.map normalize) := by
  by_cases hminus : ∃ t, s = '-' :: t
  · obtain ⟨t, rfl⟩ := hminus
    exact .inl ⟨t, rfl, rfl⟩
  by_cases hplus : ∃ t, s = '+' :: t
  · obtain ⟨t, rfl⟩ := hplus
    exact .inr (.inl ⟨t, rfl, rfl⟩)
  refine .inr (.inr (sign_plain ?_))
  cases s with
  | nil => exact nofun
  | cons c t =>
    rintro _ ⟨⟩
    rw [ne_eq, ne_eq, normalize_eq_mark (by simp), normalize_eq_mark (by simp)]
    exact ⟨fun hc => hminus ⟨t, by rw [hc]⟩, fun hc => hplus ⟨t, by rw [hc]⟩⟩

theorem signed?_eq_some_iff : signed? s = some i ↔ Signed s i := by
  unfold signed?
  constructor
  · intro h
    obtain ⟨t, rfl, hsign⟩ | ⟨t, rfl, hsign⟩ | hsign := sign_cases s
    all_goals
      rw [hsign] at h
      obtain ⟨n, hn, rfl⟩ := Option.map_eq_some_iff.mp h
      obtain ⟨ds, hds, hlength, rfl⟩ := natural?_eq_some_iff.mp hn
    · exact .minus hds hlength
    · exact .plus hds hlength
    · exact .plain hds hlength
  · rintro (⟨h, hlength⟩ | ⟨h, hlength⟩ | ⟨h, hlength⟩)
    · rw [h.plain]
      exact Option.map_eq_some_iff.mpr ⟨_, natural?_eq_some_iff.mpr ⟨_, h, hlength, rfl⟩, rfl⟩
    · exact Option.map_eq_some_iff.mpr ⟨_, natural?_eq_some_iff.mpr ⟨_, h, hlength, rfl⟩, rfl⟩
    · exact Option.map_eq_some_iff.mpr ⟨_, natural?_eq_some_iff.mpr ⟨_, h, hlength, rfl⟩, rfl⟩

theorem Digits.last (h : Digits s ds) : ∀ c ∈ s.getLast?, isEdgeBlank c = false := by
  induction h with
  | one hd =>
    rintro _ ⟨⟩
    exact hd.not_isEdgeBlank
  | next hd hs ih =>
    obtain ⟨e, rest, d', rfl, -⟩ := hs.head
    rwa [List.getLast?_cons_cons]
  | apart hd hs ih =>
    obtain ⟨e, rest, d', rfl, -⟩ := hs.head
    rwa [List.getLast?_cons_cons, List.getLast?_cons_cons]

theorem Signed.ends (h : Signed s i) :
    (∀ c ∈ s.head?, isEdgeBlank c = false) ∧ ∀ c ∈ s.getLast?, isEdgeBlank c = false := by
  obtain ⟨h, -⟩ | ⟨h, -⟩ | ⟨h, -⟩ := h <;> obtain ⟨c, t, d, rfl, hd⟩ := h.head <;> refine ⟨?_, ?_⟩
  · rintro _ ⟨⟩
    exact hd.not_isEdgeBlank
  · exact h.last
  · rintro _ ⟨⟩
    rfl
  · rw [List.getLast?_cons_cons]
    exact h.last
  · rintro _ ⟨⟩
    rfl
  · rw [List.getLast?_cons_cons]
    exact h.last

theorem trimBy_normalize (s : List Char) :
    trimBy isEdgeBlank (s.map normalize) = (trimBy isEdgeBlank s).map normalize := by
  have hsame : isEdgeBlank ∘ normalize = isEdgeBlank := funext isEdgeBlank_normalize
  rw [trimBy, Text.trimEnd, List.dropWhile_map, hsame, ← List.map_reverse, List.dropWhile_map, hsame,
    ← List.map_reverse]
  rfl

theorem integer?_eq (s : String) : integer? s = signed? (trimBy isEdgeBlank s.toList) := by
  unfold integer? signed?
  rw [trimBy_normalize]
  rcases sign ((trimBy isEdgeBlank s.toList).map normalize) with ⟨negative, body⟩
  dsimp only
  cases natural? body <;> rfl

theorem integer?_eq_some_iff {s : String} : integer? s = some i ↔ Spells s i := by
  rw [integer?_eq]
  constructor
  · intro h
    obtain ⟨before, after, hparts, hbefore, hafter⟩ := Text.trimBy_parts isEdgeBlank s.toList
    refine ⟨before, _, after, hparts, fun c hc => ?_, fun c hc => ?_, signed?_eq_some_iff.mp h⟩
    · exact of_decide_eq_true ((Text.isEdgeBlank_eq c).symm.trans (hbefore c hc))
    · exact of_decide_eq_true ((Text.isEdgeBlank_eq c).symm.trans (hafter c hc))
  · rintro ⟨before, body, after, hparts, hbefore, hafter, hsigned⟩
    have hwhite {part : List Char} (h : ∀ c ∈ part, IsEdgeWhite c) : ∀ c ∈ part, isEdgeBlank c = true :=
      fun c hc => (Text.isEdgeBlank_eq c).trans (decide_eq_true (h c hc))
    rw [hparts, Text.trimBy_append (hwhite hbefore) (hwhite hafter) hsigned.ends.1 hsigned.ends.2]
    exact signed?_eq_some_iff.mpr hsigned

end

end Playpen.Numeral
