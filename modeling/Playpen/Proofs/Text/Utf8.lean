import Mathlib.Data.List.TakeWhile
import Mathlib.Tactic.SplitIfs
import Playpen.Text.Utf8

namespace Playpen.Utf8

open String (utf8EncodeChar)

theorem lead_eq (b : UInt8) : lead b =
    if 0xc2 ≤ b.toNat ∧ b.toNat ≤ 0xdf then some (1, 0x80, 0xbf)
    else if b.toNat = 0xe0 then some (2, 0xa0, 0xbf)
    else if b.toNat = 0xed then some (2, 0x80, 0x9f)
    else if 0xe1 ≤ b.toNat ∧ b.toNat ≤ 0xef then some (2, 0x80, 0xbf)
    else if b.toNat = 0xf0 then some (3, 0x90, 0xbf)
    else if b.toNat = 0xf4 then some (3, 0x80, 0x8f)
    else if 0xf1 ≤ b.toNat ∧ b.toNat ≤ 0xf3 then some (3, 0x80, 0xbf)
    else none := by
  simp only [lead, UInt8.le_iff_toNat_le, ← UInt8.toNat_inj]
  rfl

def Begins (n : Nat) (a b : UInt8) : Prop := ∃ lo hi, lead a = some (n, lo, hi) ∧ within lo hi b = true

theorem within_iff (lo hi b : UInt8) :
    within lo hi b = true ↔ lo.toNat ≤ b.toNat ∧ b.toNat ≤ hi.toNat := by
  simp [within, UInt8.le_iff_toNat_le]

theorem begins_one_iff {a b : UInt8} : Begins 1 a b ↔
    (0xc2 ≤ a.toNat ∧ a.toNat ≤ 0xdf) ∧ 0x80 ≤ b.toNat ∧ b.toNat ≤ 0xbf := by
  simp only [Begins, lead_eq, within_iff]
  split_ifs <;> simp [and_assoc] <;> omega

theorem begins_two_iff {a b : UInt8} : Begins 2 a b ↔
    (0xe0 ≤ a.toNat ∧ a.toNat ≤ 0xef) ∧ (0x80 ≤ b.toNat ∧ b.toNat ≤ 0xbf) ∧
      (a.toNat = 0xe0 → 0xa0 ≤ b.toNat) ∧ (a.toNat = 0xed → b.toNat ≤ 0x9f) := by
  simp only [Begins, lead_eq, within_iff]
  split_ifs <;> simp [and_assoc] <;> omega

theorem begins_three_iff {a b : UInt8} : Begins 3 a b ↔
    (0xf0 ≤ a.toNat ∧ a.toNat ≤ 0xf4) ∧ (0x80 ≤ b.toNat ∧ b.toNat ≤ 0xbf) ∧
      (a.toNat = 0xf0 → 0x90 ≤ b.toNat) ∧ (a.toNat = 0xf4 → b.toNat ≤ 0x8f) := by
  simp only [Begins, lead_eq, within_iff]
  split_ifs <;> simp [and_assoc] <;> omega

theorem not_ascii_of_lead {a lo hi : UInt8} {n : Nat} (h : lead a = some (n, lo, hi)) : ¬ a < 0x80 := by
  have hlow : (0x80 : UInt8).toNat = 0x80 := rfl
  rw [UInt8.lt_iff_toNat_lt]
  rw [lead_eq] at h
  split_ifs at h <;> omega

theorem val_ofNat {n : Nat} (h : n.isValidChar) : (Char.ofNat n).val.toNat = n := by
  rw [Char.ofNat, dif_pos h]
  rfl

theorem ofNat_eq_of_mod {n : Nat} {b : UInt8} (h : n % 256 = b.toNat) : UInt8.ofNat n = b :=
  (UInt8.ofNat_eq_iff_mod_eq_toNat n b).mpr h

section

variable {a b c d : UInt8}

theorem scan_ascii (ha : a.toNat < 0x80) (rest : Bytes) :
    scan (a :: rest) = some (Char.ofNat a.toNat) :: scan rest := by
  rw [scan, if_pos (UInt8.lt_iff_toNat_lt.mpr ha)]

theorem encode_ascii (ha : a.toNat < 0x80) : utf8EncodeChar (Char.ofNat a.toNat) = [a] := by
  have hv := val_ofNat (n := a.toNat) (.inl (by omega))
  unfold utf8EncodeChar
  simp only [hv]
  rw [if_pos (by omega), UInt8.ofNat_toNat]

theorem scan_two (h : Begins 1 a b) (rest : Bytes) :
    scan (a :: b :: rest) = some (Char.ofNat (a.toNat % 32 * 64 + low b)) :: scan rest := by
  obtain ⟨lo, hi, ha, hb⟩ := h
  simp [scan, not_ascii_of_lead ha, ha, hb]

theorem encode_two (h : Begins 1 a b) :
    utf8EncodeChar (Char.ofNat (a.toNat % 32 * 64 + low b)) = [a, b] := by
  rw [begins_one_iff] at h
  have hv := val_ofNat (n := a.toNat % 32 * 64 + low b) (.inl (by unfold low; omega))
  unfold utf8EncodeChar low at *
  simp only [hv]
  rw [if_neg (by omega), if_pos (by omega)]
  rw [ofNat_eq_of_mod (b := a) (by omega), ofNat_eq_of_mod (b := b) (by omega)]

theorem scan_three (h : Begins 2 a b) (hc : within 0x80 0xbf c = true) (rest : Bytes) :
    scan (a :: b :: c :: rest) =
      some (Char.ofNat (a.toNat % 16 * 4096 + low b * 64 + low c)) :: scan rest := by
  obtain ⟨lo, hi, ha, hb⟩ := h
  simp [scan, not_ascii_of_lead ha, ha, hb, hc]

theorem encode_three (h : Begins 2 a b) (hc : within 0x80 0xbf c = true) :
    utf8EncodeChar (Char.ofNat (a.toNat % 16 * 4096 + low b * 64 + low c)) = [a, b, c] := by
  rw [begins_two_iff] at h
  simp only [within_iff, UInt8.reduceToNat] at hc
  have hv := val_ofNat (n := a.toNat % 16 * 4096 + low b * 64 + low c)
    (by unfold low Nat.isValidChar; omega)
  unfold utf8EncodeChar low at *
  simp only [hv]
  rw [if_neg (by omega), if_neg (by omega), if_pos (by omega)]
  rw [ofNat_eq_of_mod (b := a) (by omega), ofNat_eq_of_mod (b := b) (by omega),
    ofNat_eq_of_mod (b := c) (by omega)]

theorem scan_four (h : Begins 3 a b) (hc : within 0x80 0xbf c = true)
    (hd : within 0x80 0xbf d = true) (rest : Bytes) : scan (a :: b :: c :: d :: rest) =
      some (Char.ofNat (a.toNat % 8 * 262144 + low b * 4096 + low c * 64 + low d)) :: scan rest := by
  obtain ⟨lo, hi, ha, hb⟩ := h
  simp [scan, not_ascii_of_lead ha, ha, hb, hc, hd]

theorem encode_four (h : Begins 3 a b) (hc : within 0x80 0xbf c = true)
    (hd : within 0x80 0xbf d = true) :
    utf8EncodeChar (Char.ofNat (a.toNat % 8 * 262144 + low b * 4096 + low c * 64 + low d)) =
      [a, b, c, d] := by
  rw [begins_three_iff] at h
  simp only [within_iff, UInt8.reduceToNat] at hc hd
  have hv := val_ofNat (n := a.toNat % 8 * 262144 + low b * 4096 + low c * 64 + low d)
    (by unfold low Nat.isValidChar; omega)
  unfold utf8EncodeChar low at *
  simp only [hv]
  rw [if_neg (by omega), if_neg (by omega), if_neg (by omega)]
  rw [ofNat_eq_of_mod (b := a) (by omega), ofNat_eq_of_mod (b := b) (by omega),
    ofNat_eq_of_mod (b := c) (by omega), ofNat_eq_of_mod (b := d) (by omega)]

end

theorem scan_cases (a : UInt8) (r : Bytes) : ∃ part rest, part ≠ [] ∧ a :: r = part ++ rest ∧
    ((∃ c, part = utf8EncodeChar c ∧ scan (a :: r) = some c :: scan rest) ∨
      scan (a :: r) = none :: scan rest) := by
  -- As the scanner does, byte by byte: each one may end the sequence as malformed.
  by_cases ha : a < 0x80
  · have ha := UInt8.lt_iff_toNat_lt.mp ha
    exact ⟨[a], r, by simp, rfl, .inl ⟨_, (encode_ascii ha).symm, scan_ascii ha r⟩⟩
  rcases hl : lead a with _ | ⟨n, lo, hi⟩
  · exact ⟨[a], r, by simp, rfl, .inr (by rw [scan]; simp [ha, hl])⟩
  rcases r with _ | ⟨b, r⟩
  · exact ⟨[a], [], by simp, rfl, .inr (by simp [scan, ha, hl])⟩
  cases hb : within lo hi b with
  | false => exact ⟨[a], b :: r, by simp, rfl, .inr (by rw [scan]; simp [ha, hl, hb])⟩
  | true =>
    have h : Begins n a b := ⟨lo, hi, hl, hb⟩
    by_cases h1 : n = 1
    · subst h1
      exact ⟨[a, b], r, by simp, rfl, .inl ⟨_, (encode_two h).symm, scan_two h r⟩⟩
    rcases r with _ | ⟨c, r⟩
    · exact ⟨[a, b], [], by simp, rfl, .inr (by simp [scan, ha, hl, hb, h1])⟩
    cases hc : within 0x80 0xbf c with
    | false => exact ⟨[a, b], c :: r, by simp, rfl, .inr (by rw [scan]; simp [ha, hl, hb, h1, hc])⟩
    | true =>
      by_cases h2 : n = 2
      · subst h2
        exact ⟨[a, b, c], r, by simp, rfl, .inl ⟨_, (encode_three h hc).symm, scan_three h hc r⟩⟩
      rcases r with _ | ⟨d, r⟩
      · exact ⟨[a, b, c], [], by simp, rfl, .inr (by simp [scan, ha, hl, hb, h1, hc, h2])⟩
      cases hd : within 0x80 0xbf d with
      | false =>
        exact ⟨[a, b, c], d :: r, by simp, rfl, .inr (by rw [scan]; simp [ha, hl, hb, h1, hc, h2, hd])⟩
      | true =>
        obtain rfl : n = 3 := by
          rw [lead_eq] at hl
          split_ifs at hl <;> simp_all
        exact ⟨[a, b, c, d], r, by simp, rfl,
          .inl ⟨_, (encode_four h hc hd).symm, scan_four h hc hd r⟩⟩

theorem infix_of_mem_scan {c : Char} (bs : Bytes) (h : some c ∈ scan bs) :
    utf8EncodeChar c <:+: bs := by
  match bs with
  | [] => simp [scan] at h
  | a :: r =>
    obtain ⟨part, rest, hpart, hbs, hs⟩ := scan_cases a r
    have hlater (hm : some c ∈ scan rest) : utf8EncodeChar c <:+: a :: r := by
      have hshort : rest.length < r.length + 1 := by
        have hlen := congrArg List.length hbs
        have hpos := List.length_pos_iff.mpr hpart
        rw [List.length_append, List.length_cons] at hlen
        omega
      have hrest := infix_of_mem_scan rest hm
      rw [hbs]
      exact hrest.trans (List.suffix_append part rest).isInfix
    rcases hs with ⟨c', rfl, hs⟩ | hs
    · rw [hs] at h
      rcases List.mem_cons.mp h with hc | hm
      · cases hc
        rw [hbs]
        exact (List.prefix_append _ rest).isInfix
      · exact hlater hm
    · rw [hs] at h
      exact hlater ((List.mem_cons.mp h).resolve_left nofun)
termination_by bs.length

theorem toNat_ofNat {n : Nat} (h : n < 256) : (UInt8.ofNat n).toNat = n := by
  rw [UInt8.toNat_ofNat']
  omega

theorem scan_encodeChar (c : Char) (rest : Bytes) :
    scan (utf8EncodeChar c ++ rest) = some c :: scan rest := by
  have hvalid : c.val.toNat < 0xd800 ∨ 0xdfff < c.val.toNat ∧ c.val.toNat < 0x110000 := c.valid
  have hself {n : Nat} (h : n = c.val.toNat) : some (Char.ofNat n) = some c :=
    h ▸ congrArg some (Char.ofNat_toNat c)
  unfold utf8EncodeChar
  generalize c.val.toNat = n at hvalid hself ⊢
  simp only
  -- One case for each length that an encoding may have.
  split_ifs with h1 h2 h3
  · have ha := toNat_ofNat (n := n) (by omega)
    rw [List.singleton_append, scan_ascii (by omega), ha, hself rfl]
  · have ha := toNat_ofNat (n := n / 64 % 32 + 192) (by omega)
    have hb := toNat_ofNat (n := n % 64 + 128) (by omega)
    refine (scan_two (begins_one_iff.mpr ?_) rest).trans ?_
    · omega
    · unfold low
      rw [ha, hb, hself (by omega)]
  · have ha := toNat_ofNat (n := n / 4096 % 16 + 224) (by omega)
    have hb := toNat_ofNat (n := n / 64 % 64 + 128) (by omega)
    have hc := toNat_ofNat (n := n % 64 + 128) (by omega)
    refine (scan_three (begins_two_iff.mpr ?_) ((within_iff _ _ _).mpr ?_) rest).trans ?_
    · omega
    · simp only [UInt8.reduceToNat]
      omega
    · unfold low
      rw [ha, hb, hc, hself (by omega)]
  · have ha := toNat_ofNat (n := n / 262144 % 8 + 240) (by omega)
    have hb := toNat_ofNat (n := n / 4096 % 64 + 128) (by omega)
    have hc := toNat_ofNat (n := n / 64 % 64 + 128) (by omega)
    have hd := toNat_ofNat (n := n % 64 + 128) (by omega)
    refine (scan_four (begins_three_iff.mpr ?_) ((within_iff _ _ _).mpr ?_)
      ((within_iff _ _ _).mpr ?_) rest).trans ?_
    · omega
    · simp only [UInt8.reduceToNat]
      omega
    · simp only [UInt8.reduceToNat]
      omega
    · unfold low
      rw [ha, hb, hc, hd, hself (by omega)]

theorem mem_encodeChar {c : Char} {b : UInt8} (h : b ∈ utf8EncodeChar c) :
    utf8EncodeChar c = [b] ∧ b.toNat = c.toNat ∨ 0x80 ≤ b.toNat := by
  unfold utf8EncodeChar at *
  rw [← show c.val.toNat = c.toNat from rfl]
  generalize c.val.toNat = n at h ⊢
  simp only at h ⊢
  split_ifs at h ⊢ with h1 h2 h3
  · obtain rfl := List.mem_singleton.mp h
    exact .inl ⟨rfl, toNat_ofNat (by omega)⟩
  all_goals
    right
    simp only [List.mem_cons, List.not_mem_nil, or_false] at h
    rcases h with rfl | rfl | rfl | rfl <;> rw [toNat_ofNat (by omega)] <;> omega

theorem scan_encode (s : List Char) : scan (encode s) = s.map some := by
  induction s with
  | nil => rfl
  | cons c s ih =>
    rw [encode, List.flatMap_cons, scan_encodeChar, List.map_cons, ← ih]
    rfl

theorem decodeLossy_encode (s : List Char) : decodeLossy (encode s) = s := by
  rw [decodeLossy, scan_encode, List.map_map]
  exact List.map_id s

theorem decode?_encode (s : List Char) : decode? (encode s) = some s := by
  rw [decode?, scan_encode]
  induction s with
  | nil => rfl
  | cons c s ih =>
    rw [List.map_cons, List.mapM_cons, ih]
    rfl

theorem encode_of_decode? {bs : Bytes} {s : List Char} (h : decode? bs = some s) : encode s = bs := by
  match bs with
  | [] =>
    obtain rfl : [] = s := Option.some.inj h
    rfl
  | a :: r =>
    obtain ⟨part, rest, hpart, hbs, ⟨c, rfl, hscan⟩ | hscan⟩ := scan_cases a r
    · have hshort : rest.length < r.length + 1 := by
        have hlen := congrArg List.length hbs
        have hpos := List.length_pos_iff.mpr hpart
        rw [List.length_append, List.length_cons] at hlen
        omega
      rw [decode?, hscan, List.mapM_cons] at h
      obtain ⟨_, ⟨⟩, h⟩ := Option.bind_eq_some_iff.mp h
      obtain ⟨t, ht, h⟩ := Option.bind_eq_some_iff.mp h
      obtain rfl : c :: t = s := Option.some.inj h
      rw [hbs, encode, List.flatMap_cons, ← encode, encode_of_decode? ht]
    · rw [decode?, hscan] at h
      cases h
termination_by bs.length

theorem decode?_eq_none_iff {bs : Bytes} : decode? bs = none ↔ ∀ s, encode s ≠ bs := by
  constructor
  · rintro h s rfl
    cases h.symm.trans (decode?_encode s)
  · intro h
    by_contra hsome
    obtain ⟨s, hs⟩ := Option.ne_none_iff_exists'.mp hsome
    exact h s (encode_of_decode? hs)

theorem encodePoint_toNat (c : Char) : encodePoint c.toNat = utf8EncodeChar c := by
  have hvalid : c.toNat < 0xd800 ∨ 0xdfff < c.toNat ∧ c.toNat < 0x110000 := c.valid
  unfold encodePoint utf8EncodeChar
  rw [show c.val.toNat = c.toNat from rfl]
  generalize c.toNat = n at hvalid ⊢
  simp only
  by_cases h1 : n < 0x80
  · rw [if_pos h1, if_pos (by omega)]
  by_cases h2 : n < 0x800
  · have ha : 0xc0 + n / 64 = n / 64 % 32 + 192 := by omega
    have hb : 0x80 + n % 64 = n % 64 + 128 := by omega
    rw [if_neg h1, if_pos h2, if_neg (by omega), if_pos (by omega), ha, hb]
  by_cases h3 : n < 0x10000
  · have ha : 0xe0 + n / 4096 = n / 4096 % 16 + 224 := by omega
    have hb : 0x80 + n / 64 % 64 = n / 64 % 64 + 128 := by omega
    have hc : 0x80 + n % 64 = n % 64 + 128 := by omega
    rw [if_neg h1, if_neg h2, if_pos h3, if_neg (by omega), if_neg (by omega), if_pos (by omega), ha, hb,
      hc]
  · have ha : 0xf0 + n / 262144 = n / 262144 % 8 + 240 := by omega
    have hb : 0x80 + n / 4096 % 64 = n / 4096 % 64 + 128 := by omega
    have hc : 0x80 + n / 64 % 64 = n / 64 % 64 + 128 := by omega
    have hd : 0x80 + n % 64 = n % 64 + 128 := by omega
    rw [if_neg h1, if_neg h2, if_neg h3, if_neg (by omega), if_neg (by omega), if_neg (by omega), ha, hb,
      hc, hd]

theorem data_ofPoints (s : List Char) : (s.map Char.toNat).flatMap encodePoint = encode s := by
  rw [List.flatMap_map, encode]
  exact congrFun (congrArg _ (funext encodePoint_toNat)) s

theorem encode_ofNat {data : Bytes} (h : ∀ b ∈ data, b.toNat < 0x80) :
    encode (data.map fun b => Char.ofNat b.toNat) = data := by
  induction data with
  | nil => rfl
  | cons b data ih =>
    obtain ⟨hb, hdata⟩ := List.forall_mem_cons.mp h
    have hrest : encode (data.map fun b => Char.ofNat b.toNat) = data := ih hdata
    rw [encode] at hrest ⊢
    rw [List.map_cons, List.flatMap_cons, hrest, encode_ascii hb]
    rfl

theorem encodeChar_ascii {c : Char} (h : c.toNat < 0x80) : utf8EncodeChar c = [UInt8.ofNat c.toNat] := by
  rw [← show c.val.toNat = c.toNat from rfl] at h ⊢
  unfold utf8EncodeChar
  simp only
  rw [if_pos (by omega)]

theorem flaw?_encode (s : List Char) : flaw? (encode s) = none := by
  have hall : ((s.map some).takeWhile Option.isSome).filterMap id = s := by
    rw [List.takeWhile_map, List.takeWhile_eq_self_iff.mpr (by simp), List.filterMap_map]
    exact List.filterMap_some
  rw [flaw?, scan_encode, hall, List.drop_length]

end Playpen.Utf8
