import Playpen.Proofs.Number.Shortest
import Playpen.Scalar

namespace Playpen

open Text (isAsciiDigit)
open Numeral (ofDigits)

namespace Numeral

theorem ofDigits_eq (ds : List Char) : ofDigits ds = Nat.ofDigitChars 10 ds 0 := rfl

theorem ofDigits_toDigits (n : Nat) : ofDigits (Nat.toDigits 10 n) = n := Nat.ofDigitChars_ten_toDigits

theorem ofDigits_append (as bs : List Char) : ofDigits (as ++ bs) = ofDigits as * 10 ^ bs.length + ofDigits bs := by
  rw [ofDigits_eq, Nat.ofDigitChars_append, Nat.ofDigitChars_eq_ofDigitChars_zero, Nat.mul_comm]
  rfl

theorem ofDigits_zeros (n : Nat) : ofDigits (Decimal.zeros n) = 0 := by
  induction n with
  | zero => rfl
  | succ n ih => exact ih

theorem isAsciiDigit_iff (c : Char) : isAsciiDigit c = true ↔ c.isDigit = true := by
  unfold isAsciiDigit Char.isDigit
  rfl

theorem toDigits_digits (n : Nat) : (Nat.toDigits 10 n).all isAsciiDigit = true := by
  rw [List.all_eq_true]
  intro c hc
  exact (isAsciiDigit_iff c).mpr (Nat.isDigit_of_mem_toDigits (by decide) (by decide) hc)

theorem head_toDigits {n : Nat} (h : n ≠ 0) : (Nat.toDigits 10 n).head? ≠ some '0' := by
  induction n using Nat.strongRecOn with
  | ind n ih =>
    rcases Nat.lt_or_ge n 10 with hlt | hge
    · have hdigit : ∀ d < 10, d ≠ 0 → [d.digitChar].head? ≠ some '0' := by decide
      rw [Nat.toDigits_of_lt_base hlt]
      exact hdigit n hlt h
    · rw [Nat.toDigits_of_base_le (by decide) hge, List.head?_append_of_ne_nil _ Nat.toDigits_ne_nil]
      exact ih (n / 10) (by omega) (by omega)

theorem length_toDigits_le {i : Int} (h : Scalar.isWritable i = true) :
    (Nat.toDigits 10 i.natAbs).length ≤ maxDigits := by
  unfold Scalar.isWritable at h
  have hpos : 0 < maxDigits := by decide
  generalize maxDigits = m at h hpos ⊢
  rw [Nat.length_toDigits_le_iff (by decide) hpos]
  rw [Bool.or_eq_true, decide_eq_true_eq, decide_eq_true_eq, Nat.pow_eq] at h
  rcases h with h | h
  · calc i.natAbs
      _ < 2 ^ (i.natAbs.log2 + 1) := Nat.lt_log2_self
      _ ≤ 2 ^ (3 * m) := Nat.pow_le_pow_right (by decide) (by omega)
      _ = 8 ^ m := by rw [Nat.pow_mul]
      _ ≤ 10 ^ m := Nat.pow_le_pow_left (by decide) m
  · exact h

theorem toString_eq (i : Int) :
    (toString i).toList = (if i < 0 then ['-'] else []) ++ Nat.toDigits 10 i.natAbs := by
  cases i with
  | ofNat n =>
    rw [if_neg (by simp), List.nil_append]
    exact (congrArg String.toList Nat.repr_eq_ofList_toDigits).trans (String.toList_ofList ..)
  | negSucc n =>
    rw [if_pos (by omega)]
    show ("-" ++ Nat.repr (n + 1)).toList = _
    rw [String.toList_append, Nat.repr_eq_ofList_toDigits]
    exact congrArg ("-".toList ++ ·) (String.toList_ofList ..)

def isNumberChar (c : Char) : Bool := isAsciiDigit c || c = '.' || c = 'e' || c = '+' || c = '-'

theorem mem_of_isNumberChar {c : Char} (h : isNumberChar c = true) : c ∈ "0123456789.e+-".toList := by
  simp only [isNumberChar, isAsciiDigit, Bool.or_eq_true, Bool.and_eq_true, decide_eq_true_eq] at h
  rcases h with (((⟨hlow, hhigh⟩ | rfl) | rfl) | rfl) | rfl
  · have hlow : 48 ≤ c.toNat := hlow
    have hhigh : c.toNat ≤ 57 := hhigh
    have hall : ∀ d < 10, Char.ofNat (48 + d) ∈ "0123456789.e+-".toList := by decide
    have := hall (c.toNat - 48) (by omega)
    rwa [show 48 + (c.toNat - 48) = c.toNat by omega, Char.ofNat_toNat] at this
  all_goals decide

theorem isNumberChar_of_digit {c : Char} (h : isAsciiDigit c = true) : isNumberChar c = true := by
  simp [isNumberChar, h]

theorem of_isNumberChar {p : Char → Bool} (hp : "0123456789.e+-".toList.all p = true) {c : Char}
    (h : isNumberChar c = true) : p c = true :=
  List.all_eq_true.mp hp c (mem_of_isNumberChar h)

end Numeral

def Ends (p : Char → Bool) (rest : List Char) : Prop := ∀ c ∈ rest.head?, p c = false

theorem takeWhile_append {p : Char → Bool} {ds r : List Char} (hd : ds.all p = true) (hr : Ends p r) :
    (ds ++ r).takeWhile p = ds ∧ (ds ++ r).dropWhile p = r := by
  rw [List.takeWhile_append_of_pos (List.all_eq_true.mp hd), List.dropWhile_append_of_pos (List.all_eq_true.mp hd)]
  cases r with
  | nil => simp
  | cons c r =>
    have hc : p c = false := hr c rfl
    simp [hc]

structure Notation where
  whole : List Char
  fraction : List Char
  exponent : Option (Bool × List Char) := none

namespace Notation

def exponentText : Option (Bool × List Char) → List Char
  | none => []
  | some (negative, ds) => 'e' :: (if negative then '-' else '+') :: ds

def text (n : Notation) : List Char :=
  n.whole ++ (if n.fraction = [] then [] else '.' :: n.fraction) ++ exponentText n.exponent

def power : Option (Bool × List Char) → Int
  | none => 0
  | some (negative, ds) => if negative then -(ofDigits ds : Int) else ofDigits ds

def decimal (n : Notation) : Decimal := ⟨ofDigits (n.whole ++ n.fraction), power n.exponent - n.fraction.length⟩

structure Proper (n : Notation) : Prop where
  nonempty : n.whole ≠ []
  leading : n.whole = ['0'] ∨ n.whole.head? ≠ some '0'
  whole : n.whole.all isAsciiDigit = true
  fraction : n.fraction.all isAsciiDigit = true
  exponent : ∀ e, n.exponent = some e → e.2 ≠ [] ∧ e.2.all isAsciiDigit = true
  float : n.fraction ≠ [] ∨ n.exponent ≠ none

def Denotes (n : Notation) (x : Double.Finite) : Prop :=
  if x.significand = 0 then n.decimal.digits = 0 else x.Catches (n.decimal.value * Double.unit)

theorem Denotes.read {n : Notation} {x : Double.Finite} (h : n.Denotes x) :
    Double.ofDecimal x.negative n.decimal.digits n.decimal.exponent = .finite x := by
  unfold Denotes at h
  split at h
  · rename_i hzero
    unfold Double.ofDecimal
    rw [if_pos h]
    obtain ⟨negative, significand, scale, hnormal⟩ := x
    subst hzero
    obtain rfl : scale = 0 := by
      obtain ⟨-, -, h | h⟩ := hnormal
      · exact h
      · exact absurd h (by decide)
    rfl
  · rename_i hs
    exact Double.ofDecimal_of_catches hs h

def Writes (s : List Char) (d : Decimal) : Prop :=
  ∃ n : Notation, n.Proper ∧ s = n.text ∧ n.decimal.value = d.value

theorem all_isNumberChar {ds : List Char} (h : ds.all isAsciiDigit = true) : ds.all Numeral.isNumberChar = true := by
  rw [List.all_eq_true] at h ⊢
  exact fun c hc => Numeral.isNumberChar_of_digit (h c hc)

theorem Proper.number {n : Notation} (hn : n.Proper) : n.text.all Numeral.isNumberChar = true := by
  have hfraction : (if n.fraction = [] then [] else '.' :: n.fraction).all Numeral.isNumberChar = true := by
    split
    · rfl
    · exact Bool.and_eq_true_iff.mpr ⟨rfl, all_isNumberChar hn.fraction⟩
  have hexponent : (exponentText n.exponent).all Numeral.isNumberChar = true := by
    cases he : n.exponent with
    | none => rfl
    | some e =>
      obtain ⟨negative, ds⟩ := e
      have hds := all_isNumberChar (hn.exponent _ he).2
      cases negative <;> simp only [exponentText, List.all_cons, hds] <;> rfl
  rw [text, List.all_append, List.all_append, all_isNumberChar hn.whole, hfraction, hexponent]
  rfl

end Notation

namespace Decimal

open Numeral (ofDigits_append ofDigits_toDigits ofDigits_zeros toDigits_digits head_toDigits)
open Notation (Writes)

variable {d : Decimal}

theorem zeros_digits (n : Nat) : (zeros n).all isAsciiDigit = true := by
  unfold zeros
  rw [List.all_replicate]
  split <;> rfl

theorem digitChars_ne_nil (n : Nat) : digitChars n ≠ [] := Nat.toDigits_ne_nil

theorem writes_whole (hd : d.digits ≠ 0) (he : 0 ≤ d.exponent) : Writes (d.positional ++ ['.', '0']) d := by
  refine ⟨⟨digitChars d.digits ++ zeros d.exponent.toNat, ['0'], none⟩, ?_, ?_, ?_⟩
  · constructor
    · simp [digitChars_ne_nil]
    · right
      rw [List.head?_append_of_ne_nil _ (digitChars_ne_nil _)]
      exact head_toDigits hd
    · simp [digitChars, toDigits_digits, zeros_digits]
    · rfl
    · exact nofun
    · exact .inl (List.cons_ne_nil _ _)
  · simp [positional, he, Notation.text, Notation.exponentText]
  · obtain ⟨k, hk⟩ : ∃ k : Nat, d.exponent = k := ⟨d.exponent.toNat, by omega⟩
    have hdigits : ofDigits (digitChars d.digits ++ zeros k ++ ['0']) = d.digits * 10 ^ k * 10 := by
      rw [ofDigits_append, ofDigits_append, digitChars, ofDigits_toDigits, ofDigits_zeros]
      simp [zeros, ofDigits, Numeral.digitOf]
    unfold value Notation.decimal Notation.power
    dsimp only
    rw [hk, Int.toNat_natCast, hdigits]
    push_cast
    simp only [List.length_singleton, Nat.cast_one, zero_sub, zpow_neg, zpow_one, zpow_natCast]
    field_simp

theorem writes_pointed (hd : d.digits ≠ 0) (he : d.exponent < 0) : Writes d.positional d := by
  obtain ⟨k, hk⟩ : ∃ k : Nat, d.exponent = -((k + 1 : Nat) : Int) := ⟨d.exponent.natAbs - 1, by omega⟩
  have hplaces : d.exponent.natAbs = k + 1 := by omega
  have hall : ∀ c ∈ digitChars d.digits, isAsciiDigit c = true := List.all_eq_true.mp (toDigits_digits _)
  unfold positional
  dsimp only
  rw [if_neg (by omega), hplaces]
  -- The point falls among the digits, or in front of all of them with zeros between.
  split
  · rename_i hless
    generalize hcut : (digitChars d.digits).length - (k + 1) = cut
    refine ⟨⟨(digitChars d.digits).take cut, (digitChars d.digits).drop cut, none⟩, ?_, ?_, ?_⟩
    · constructor
      · simp [digitChars_ne_nil]
        omega
      · right
        dsimp only
        rw [List.head?_take, if_neg (by omega)]
        exact head_toDigits hd
      · exact List.all_eq_true.mpr fun c hc => hall c (List.mem_of_mem_take hc)
      · exact List.all_eq_true.mpr fun c hc => hall c (List.mem_of_mem_drop hc)
      · exact nofun
      · left
        simp
        omega
    · have hne : (digitChars d.digits).drop cut ≠ [] := by
        simp
        omega
      simp [Notation.text, Notation.exponentText, hne]
    · unfold value Notation.decimal Notation.power
      dsimp only
      rw [List.take_append_drop, digitChars, ofDigits_toDigits, ← digitChars, List.length_drop, hk]
      congr 2
      omega
  · rename_i hmany
    refine ⟨⟨['0'], zeros (k + 1 - (digitChars d.digits).length) ++ digitChars d.digits, none⟩, ?_, ?_, ?_⟩
    · constructor
      · exact List.cons_ne_nil _ _
      · exact .inl rfl
      · rfl
      · simp [digitChars, toDigits_digits, zeros_digits]
      · exact nofun
      · left
        simp [digitChars_ne_nil]
    · simp [Notation.text, Notation.exponentText, digitChars_ne_nil]
    · have hdigits : ofDigits (['0'] ++ (zeros (k + 1 - (digitChars d.digits).length) ++ digitChars d.digits)) =
          d.digits := by
        rw [ofDigits_append, ofDigits_append, ofDigits_zeros, digitChars, ofDigits_toDigits]
        simp [ofDigits, Numeral.digitOf]
      unfold value Notation.decimal Notation.power
      dsimp only
      rw [hdigits, hk, List.length_append, zeros, List.length_replicate]
      congr 2
      omega

theorem writes_scientific (hd : d.digits ≠ 0) : Writes d.scientific d := by
  obtain ⟨c, rest, hds⟩ := List.exists_cons_of_ne_nil (digitChars_ne_nil d.digits)
  have hpoint : d.point - 1 = d.exponent + rest.length := by
    unfold point countDigits
    rw [← digitChars, hds, List.length_cons]
    omega
  have hall : (c :: rest).all isAsciiDigit = true := hds ▸ toDigits_digits _
  have hdigits : ofDigits (c :: rest) = d.digits := hds ▸ ofDigits_toDigits _
  have hleading : (c :: rest).head? ≠ some '0' := hds ▸ head_toDigits hd
  unfold scientific
  rw [hds, hpoint]
  dsimp only
  -- An exponent of one digit gets a zero in front, which counts for nothing.
  generalize hwidth : (if (d.exponent + (rest.length : Int)).natAbs < 10 then ['0'] else []) = width
  have hzeros : ∃ k, width = zeros k := by
    split at hwidth
    · exact ⟨1, hwidth.symm⟩
    · exact ⟨0, hwidth.symm⟩
  obtain ⟨k, rfl⟩ := hzeros
  generalize hsize : (d.exponent + (rest.length : Int)).natAbs = size
  have hpower : ofDigits (zeros k ++ digitChars size) = size := by
    rw [ofDigits_append, ofDigits_zeros, digitChars, ofDigits_toDigits, Nat.zero_mul, Nat.zero_add]
  rw [List.all_cons, Bool.and_eq_true] at hall
  refine ⟨⟨[c], rest, some (decide (d.exponent + (rest.length : Int) < 0), zeros k ++ digitChars size)⟩, ?_, ?_, ?_⟩
  · constructor
    · exact List.cons_ne_nil _ _
    · exact .inr hleading
    · simp [hall.1]
    · exact hall.2
    · rintro e ⟨⟩
      exact ⟨by simp [digitChars_ne_nil], by simp [zeros_digits, digitChars, toDigits_digits]⟩
    · exact .inr nofun
  · cases rest <;> simp [Notation.text, Notation.exponentText]
  · unfold value Notation.decimal Notation.power
    dsimp only
    rw [List.singleton_append, hdigits, hpower]
    congr 2
    split
    · rename_i hneg
      have := of_decide_eq_true hneg
      omega
    · rename_i hneg
      rw [decide_eq_true_eq] at hneg
      omega

end Decimal

namespace Double

open Decimal (writes_whole writes_pointed writes_scientific)

theorem roundTripDigits_notation (x : Finite) :
    ∃ n : Notation, n.Proper ∧ roundTripDigits x = n.text ∧ n.Denotes x := by
  unfold roundTripDigits
  split
  · rename_i hzero
    refine ⟨⟨['0'], ['0'], none⟩, ?_, rfl, ?_⟩
    · exact ⟨List.cons_ne_nil _ _, .inl rfl, rfl, rfl, nofun, .inl (List.cons_ne_nil _ _)⟩
    · rw [Notation.Denotes, if_pos hzero]
      rfl
  · rename_i hs
    have hcatches := Finite.shortest_catches hs
    generalize x.shortest = d at hcatches
    have hd : d.digits ≠ 0 := by
      intro hzero
      have hone := hcatches.one_le hs
      rw [Decimal.value, hzero, Nat.cast_zero, zero_mul, zero_mul, mul_zero] at hone
      exact absurd hone (by norm_num)
    have hwrites : Notation.Writes (if -4 < d.point ∧ d.point ≤ 16 then
        if 0 ≤ d.exponent then d.positional ++ ['.', '0'] else d.positional
      else d.scientific) d := by
      split
      · split
        · rename_i he
          exact writes_whole hd he
        · rename_i he
          exact writes_pointed hd (by omega)
      · exact writes_scientific hd
    obtain ⟨n, hproper, htext, hvalue⟩ := hwrites
    refine ⟨n, hproper, htext, ?_⟩
    rw [Notation.Denotes, if_neg hs, hvalue]
    exact hcatches

end Double

end Playpen
