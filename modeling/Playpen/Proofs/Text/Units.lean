import Mathlib.Algebra.Group.Nat.Defs
import Playpen.Text.Quoted
import Playpen.Text.Units

namespace Playpen.Text

theorem hexValue?_hexDigit {n : Nat} (h : n < 16) : Units.hexValue? (hexDigit n) = some n := by
  have hall : ∀ n < 16, Units.hexValue? (hexDigit n) = some n := by decide
  exact hall n h

theorem length_hex (width n : Nat) : (hex width n).length = width := by
  induction width generalizing n with
  | zero => rfl
  | succ width ih => rw [hex, List.length_append, ih, List.length_singleton]

def nibbles : Nat → Nat → List Nat
  | 0, _ => []
  | width + 1, n => nibbles width (n / 16) ++ [n % 16]

theorem hex_eq_map (width n : Nat) : hex width n = (nibbles width n).map hexDigit := by
  induction width generalizing n with
  | zero => rfl
  | succ width ih => rw [hex, nibbles, ih, List.map_append, List.map_singleton]

theorem length_nibbles (width n : Nat) : (nibbles width n).length = width := by
  have := length_hex width n
  rwa [hex_eq_map, List.length_map] at this

theorem nibbles_lt (width n : Nat) : ∀ d ∈ nibbles width n, d < 16 := by
  induction width generalizing n with
  | zero => simp [nibbles]
  | succ width ih =>
    intro d hd
    rcases List.mem_append.mp hd with h | h
    · exact ih _ d h
    · rw [List.mem_singleton.mp h]
      exact Nat.mod_lt _ (by decide)

theorem foldl_nibbles {width n : Nat} (h : n < 16 ^ width) : (nibbles width n).foldl (fun n d => 16 * n + d) 0 = n := by
  induction width generalizing n with
  | zero =>
    rw [Nat.pow_zero] at h
    simp [nibbles, Nat.lt_one_iff.mp h]
  | succ width ih =>
    rw [nibbles, List.foldl_append, ih (by omega)]
    show 16 * (n / 16) + n % 16 = n
    omega

namespace Units

theorem ofHex?_hex {n : Nat} (h : n < 0x10000) : ∃ a b c d, hex 4 n = [a, b, c, d] ∧ ofHex? a b c d = some n := by
  refine ⟨_, _, _, _, rfl, ?_⟩
  unfold ofHex?
  simp only [hexValue?_hexDigit (Nat.mod_lt _ (show 0 < 16 by decide)), Option.bind_eq_bind, Option.bind_some]
  congr 1
  omega

theorem isHalf_iff {n : Nat} : isHalf n = true ↔ 0xd800 ≤ n ∧ n ≤ 0xdfff := by
  simp only [isHalf, isHigh, isLow, Bool.or_eq_true, Bool.and_eq_true, decide_eq_true_eq]
  omega

theorem isHalf_toNat (c : Char) : isHalf c.toNat = false := by
  have hvalid : c.toNat < 0xd800 ∨ 0xdfff < c.toNat ∧ c.toNat < 0x110000 := c.valid
  unfold isHalf isHigh isLow
  generalize c.toNat = n at hvalid
  simp
  omega

theorem lone_toNat (c : Char) : lone c.toNat = c := by
  unfold lone
  rw [isHalf_toNat, if_neg (by decide), Char.ofNat_toNat]

theorem decode_cons {n : Nat} (h : isHalf n = false) (rest : List Nat) : decode (n :: rest) =
    lone n :: decode rest := by
  have hhigh : isHigh n = false := (Bool.or_eq_false_iff.mp h).1
  cases rest with
  | nil => rfl
  | cons m rest =>
    rw [decode, hhigh]
    rfl

theorem decode_toNat (s : List Char) : decode (s.map Char.toNat) = s := by
  induction s with
  | nil => rfl
  | cons c s ih => rw [List.map_cons, decode_cons (isHalf_toNat c), lone_toNat, ih]

theorem decode_encodeChar (c : Char) (rest : List Nat) : decode (encodeChar c ++ rest) = c :: decode rest := by
  unfold encodeChar
  dsimp only
  split
  · rw [List.singleton_append, decode_cons (isHalf_toNat c), lone_toNat]
  · rename_i hlarge
    have hvalid : c.toNat < 0xd800 ∨ 0xdfff < c.toNat ∧ c.toNat < 0x110000 := c.valid
    have hpair : pair (0xd800 + (c.toNat - 0x10000) / 1024) (0xdc00 + (c.toNat - 0x10000) % 1024) = c := by
      unfold pair
      rw [show 0x10000 + (0xd800 + (c.toNat - 0x10000) / 1024 - 0xd800) * 1024 +
        (0xdc00 + (c.toNat - 0x10000) % 1024 - 0xdc00) = c.toNat by omega, Char.ofNat_toNat]
    have hunits : (isHigh (0xd800 + (c.toNat - 0x10000) / 1024) &&
        isLow (0xdc00 + (c.toNat - 0x10000) % 1024)) = true := by
      unfold isHigh isLow
      simp
      omega
    show decode (_ :: _ :: rest) = _
    rw [decode, hunits, if_pos rfl, hpair]

theorem decode_encode (s : List Char) : decode (s.flatMap encodeChar) = s := by
  induction s with
  | nil => rfl
  | cons c s ih => rw [List.flatMap_cons, decode_encodeChar, ih]

end Units

end Playpen.Text
