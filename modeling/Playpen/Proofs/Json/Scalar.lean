import Playpen.Json.Parser
import Playpen.Json.Printer
import Playpen.Proofs.Data
import Playpen.Proofs.Number.Notation
import Playpen.Proofs.Text.Units

namespace Playpen.Json

open Text (isAsciiDigit)
open Numeral (ofDigits)

def Stops (rest : List Char) : Prop := ∀ c ∈ rest.head?, c = ',' ∨ c = ']' ∨ c = '\x7d' ∨ c = '\n'

theorem Stops.head {c : Char} {rest : List Char} (h : Stops (c :: rest)) :
    c = ',' ∨ c = ']' ∨ c = '\x7d' ∨ c = '\n' := h c rfl

def opens (c : Char) : Bool := !(isSpace c || c = ']' || c = '\x7d' || c = '\ufeff')

structure Holds (text : List Char) (v : Value) : Prop where
  opening : ∃ c rest, text = c :: rest ∧ opens c = true
  reads (depth fuel : Nat) (rest : List Char) : Stops rest → text.length < fuel → depth + v.depth ≤ maxDepth →
    valueOf depth fuel (text ++ rest) = .ok (v, rest)

section Strings

variable {start t : List Char}

theorem unitsTail_simple {e c : Char} (he : simpleEscape? e = some c) (hu : e ≠ 'u') :
    unitsTail start ('\\' :: e :: t) = (unitsTail start t).map fun r => (c.toNat :: r.1, r.2) := by
  rw [unitsTail, he]
  · cases unitsTail start t <;> rfl
  · exact hu

theorem unitsTail_unit {n : Nat} (hn : n < 0x10000) (ht : t ≠ []) :
    unitsTail start ('\\' :: 'u' :: Text.hex 4 n ++ t) = (unitsTail start t).map fun r => (n :: r.1, r.2) := by
  obtain ⟨a, b, c, d, hhex, hvalue⟩ := Text.Units.ofHex?_hex hn
  obtain ⟨x, t, rfl⟩ := List.exists_cons_of_ne_nil ht
  rw [hhex]
  simp only [List.cons_append, List.nil_append]
  rw [unitsTail]
  · cases unitsTail start (x :: t) <;> rfl
  · exact hvalue

theorem unitsTail_printable {c : Char} (hq : c ≠ '"') (hb : c ≠ '\\') (hc : 0x20 ≤ c.toNat) :
    unitsTail start (c :: t) = (unitsTail start t).map fun r => (c.toNat :: r.1, r.2) := by
  rw [unitsTail]
  · rw [if_neg (by omega)]
    cases unitsTail start t <;> rfl
  all_goals simp_all

theorem unitsTail_escape (c : Char) (ht : t ≠ []) : unitsTail start (escape c ++ t) =
    (unitsTail start t).map fun r => (Text.Units.encodeChar c ++ r.1, r.2) := by
  have hsmall (h : c.toNat < 0x10000) : Text.Units.encodeChar c = [c.toNat] := if_pos h
  unfold escape
  split_ifs with h₁ h₂ h₃ h₄ h₅ h₆ h₇ h₈
  iterate 7 (subst c; exact unitsTail_simple rfl (by decide))
  · rw [hsmall (by omega)]
    exact unitsTail_printable h₁ h₂ h₈.1
  · unfold Text.Units.encodeChar
    dsimp only
    split
    · rename_i hc
      rw [List.flatMap_singleton, unitsTail_unit hc ht]
      rfl
    · rename_i hc
      have hvalid : c.toNat < 0xd800 ∨ 0xdfff < c.toNat ∧ c.toNat < 0x110000 := c.valid
      rw [List.flatMap_cons, List.flatMap_singleton, List.append_assoc, unitsTail_unit (by omega) (by simp),
        unitsTail_unit (by omega) ht]
      cases unitsTail start t <;> rfl

theorem unitsTail_string (s rest : List Char) : unitsTail start (s.flatMap escape ++ '"' :: rest) =
    .ok (s.flatMap Text.Units.encodeChar, rest) := by
  induction s with
  | nil => rfl
  | cons c s ih =>
    rw [List.flatMap_cons, List.append_assoc, unitsTail_escape c (by simp), ih]
    rfl

theorem stringTail_string (s : String) (rest : List Char) :
    stringTail (s.toList.flatMap escape ++ '"' :: rest) = .ok (s, rest) := by
  rw [stringTail, unitsTail_string]
  show Except.ok (String.ofList (Text.Units.decode (s.toList.flatMap Text.Units.encodeChar)), rest) = _
  rw [Text.Units.decode_encode, String.ofList_toList]

end Strings

section Numbers

theorem Stops.ends {p : Char → Bool} {rest : List Char} (h : Stops rest)
    (hp : ([',', ']', '\x7d', '\n'].any p) = false) : Ends p rest := by
  intro c hc
  rw [List.any_eq_false] at hp
  rcases h c hc with rfl | rfl | rfl | rfl <;> exact Bool.eq_false_iff.mpr (hp _ (by simp))

theorem wholeOf_append {ds rest : List Char} (hne : ds ≠ []) (hleading : ds = ['0'] ∨ ds.head? ≠ some '0')
    (hd : ds.all isAsciiDigit = true) (hr : Ends isAsciiDigit rest) : wholeOf (ds ++ rest) = some (ds, rest) := by
  rcases hleading with rfl | hleading
  · rfl
  obtain ⟨c, ds, rfl⟩ := List.exists_cons_of_ne_nil hne
  rw [List.all_cons, Bool.and_eq_true] at hd
  obtain ⟨htake, hdrop⟩ := takeWhile_append hd.2 hr
  rw [List.cons_append, wholeOf, if_pos hd.1, htake, hdrop]
  rintro rfl
  exact hleading rfl

theorem fractionOf_append {n : Notation} (hn : n.Proper) {rest : List Char} (hr : Ends isAsciiDigit rest)
    (hp : Ends (· = '.') rest) :
    fractionOf ((if n.fraction = [] then [] else '.' :: n.fraction) ++ rest) = (n.fraction, rest) := by
  obtain ⟨whole, fraction, exponent⟩ := n
  have hd := hn.fraction
  dsimp only at hd ⊢
  cases fraction with
  | nil =>
    cases rest with
    | nil => rfl
    | cons c rest =>
      have hc : c ≠ '.' := by simpa using hp c rfl
      simp [fractionOf, hc]
  | cons c fraction =>
    rw [List.all_cons, Bool.and_eq_true] at hd
    obtain ⟨htake, hdrop⟩ := takeWhile_append hd.2 hr
    simp [fractionOf, hd.1, htake, hdrop]

theorem exponentOf_append {n : Notation} (hn : n.Proper) {rest : List Char} (hr : Stops rest) :
    exponentOf (Notation.exponentText n.exponent ++ rest) =
      n.exponent.map fun e => (Notation.power (some e), rest) := by
  obtain ⟨whole, fraction, exponent⟩ := n
  have hexponent := hn.exponent
  dsimp only at hexponent ⊢
  cases exponent with
  | none =>
    cases rest with
    | nil => rfl
    | cons c rest => rcases hr.head with rfl | rfl | rfl | rfl <;> rfl
  | some e =>
    obtain ⟨negative, ds⟩ := e
    obtain ⟨hne, hd⟩ := hexponent _ rfl
    obtain ⟨htake, hdrop⟩ := takeWhile_append hd (hr.ends (p := isAsciiDigit) rfl)
    cases negative <;>
      simp [Notation.exponentText, exponentOf, Numeral.sign, htake, hdrop, hne, Notation.power]

theorem numberOf_text (start : List Char) (negative : Bool) {n : Notation} (hn : n.Proper) {rest : List Char}
    (hr : Stops rest) : numberOf start negative (n.text ++ rest) =
      .ok (.float (Double.ofDecimal negative n.decimal.digits n.decimal.exponent), rest) := by
  have hexponent := exponentOf_append hn hr
  -- Behind the fraction comes an exponent or the end of the value; neither goes on with the digits.
  have hmarked (p : Char → Bool) (hpe : p 'e' = false) (hp : ([',', ']', '\x7d', '\n'].any p) = false) :
      Ends p (Notation.exponentText n.exponent ++ rest) := by
    rcases n.exponent with _ | e
    · exact hr.ends hp
    · rintro c ⟨⟩
      exact hpe
  have hfraction := fractionOf_append hn (hmarked isAsciiDigit rfl rfl) (hmarked (· = '.') rfl rfl)
  have hdigits : Ends isAsciiDigit ((if n.fraction = [] then [] else '.' :: n.fraction) ++
      (Notation.exponentText n.exponent ++ rest)) := by
    split
    · exact hmarked isAsciiDigit rfl rfl
    · rintro c ⟨⟩
      rfl
  have hfloat := hn.float
  rw [Notation.text, List.append_assoc, List.append_assoc, numberOf,
    wholeOf_append hn.nonempty hn.leading hn.whole hdigits]
  dsimp only
  rw [hfraction]
  dsimp only
  rw [hexponent]
  unfold Notation.decimal
  cases he : n.exponent with
  | none =>
    rw [he] at hfloat
    obtain ⟨c, fraction, hf⟩ := List.exists_cons_of_ne_nil (hfloat.resolve_right (· rfl))
    rw [hf]
    dsimp only [Option.map_none]
    rw [Notation.power, Int.zero_sub]
    rfl
  | some e => cases n.fraction <;> rfl

theorem numberOf_digits (start : List Char) (negative : Bool) (n : Nat) {rest : List Char} (hr : Stops rest)
    (hn : (Nat.toDigits 10 n).length ≤ Numeral.maxDigits) : numberOf start negative (Nat.toDigits 10 n ++ rest) =
      .ok (.int (if negative then -(n : Int) else n), rest) := by
  have hleading : Nat.toDigits 10 n = ['0'] ∨ (Nat.toDigits 10 n).head? ≠ some '0' := by
    by_cases hzero : n = 0
    · subst hzero
      exact .inl rfl
    · exact .inr (Numeral.head_toDigits hzero)
  have hpoint : fractionOf rest = ([], rest) := by
    cases rest with
    | nil => rfl
    | cons c rest => rcases hr.head with rfl | rfl | rfl | rfl <;> rfl
  have hexponent : exponentOf rest = none := by
    cases rest with
    | nil => rfl
    | cons c rest => rcases hr.head with rfl | rfl | rfl | rfl <;> rfl
  rw [numberOf, wholeOf_append Nat.toDigits_ne_nil hleading (Numeral.toDigits_digits n) (hr.ends rfl)]
  dsimp only
  rw [hpoint]
  dsimp only
  rw [hexponent]
  dsimp only
  rw [if_neg (by omega), Numeral.ofDigits_toDigits]

end Numbers

section Words

variable {c : Char} {s : List Char}

theorem word?_digit (hc : isAsciiDigit c = true) : word? (c :: s) = none := by
  have hne (d : Char) (hd : isAsciiDigit d = false) : d ≠ c := by
    rintro rfl
    rw [hc] at hd
    cases hd
  simp [word?, words, hne 'n' rfl, hne 't' rfl, hne 'f' rfl, hne 'N' rfl, hne 'I' rfl, hne '-' rfl]

theorem word?_negative (hc : isAsciiDigit c = true) : word? ('-' :: c :: s) = none := by
  have hne : 'I' ≠ c := by
    rintro rfl
    cases hc
  simp [word?, words, hne]

variable (depth fuel : Nat)

theorem valueOf_digit (hc : isAsciiDigit c = true) :
    valueOf depth (fuel + 1) (c :: s) = numberOf (c :: s) false (c :: s) := by
  have hne (d : Char) (hd : isAsciiDigit d = false) : c ≠ d := by
    rintro rfl
    rw [hc] at hd
    cases hd
  rw [valueOf]
  · rw [word?_digit hc]
  · rintro rest ⟨⟩
    exact hne '"' rfl rfl
  · rintro rest ⟨⟩
    exact hne '[' rfl rfl
  · rintro rest ⟨⟩
    exact hne '\x7b' rfl rfl
  · rintro rest ⟨⟩
    exact hne '-' rfl rfl

theorem valueOf_negative (hc : isAsciiDigit c = true) :
    valueOf depth (fuel + 1) ('-' :: c :: s) = numberOf ('-' :: c :: s) true (c :: s) := by
  rw [valueOf, word?_negative hc]

theorem valueOf_word {v : Value} {w : String} (hw : (w, v) ∈ words) (rest : List Char) :
    valueOf depth (fuel + 1) (w.toList ++ rest) = .ok (v, rest) := by
  simp only [words, List.mem_cons, List.not_mem_nil, or_false, Prod.mk.injEq] at hw
  rcases hw with ⟨rfl, rfl⟩ | ⟨rfl, rfl⟩ | ⟨rfl, rfl⟩ | ⟨rfl, rfl⟩ | ⟨rfl, rfl⟩ | ⟨rfl, rfl⟩ <;> rfl

end Words

section Plain

variable {layout : Layout}

theorem word_holds {v : Value} {w : String} (hw : (w, v) ∈ words) : Holds w.toList v := by
  constructor
  · simp only [words, List.mem_cons, List.not_mem_nil, or_false, Prod.mk.injEq] at hw
    rcases hw with ⟨rfl, -⟩ | ⟨rfl, -⟩ | ⟨rfl, -⟩ | ⟨rfl, -⟩ | ⟨rfl, -⟩ | ⟨rfl, -⟩ <;>
      exact ⟨_, _, rfl, rfl⟩
  · intro depth fuel rest _ hfuel _
    obtain ⟨fuel, rfl⟩ : ∃ k, fuel = k + 1 := ⟨fuel - 1, by omega⟩
    exact valueOf_word depth fuel hw rest

theorem signed_holds {negative : Bool} {ds : List Char} {v : Value} (hd : ∃ c t, ds = c :: t ∧ isAsciiDigit c = true)
    (h : ∀ start rest, Stops rest → numberOf start negative (ds ++ rest) = .ok (v, rest)) :
    Holds ((if negative then ['-'] else []) ++ ds) v := by
  obtain ⟨c, t, rfl, hc⟩ := hd
  cases negative with
  | true =>
    constructor
    · exact ⟨_, _, rfl, rfl⟩
    · intro depth fuel rest hr hfuel _
      obtain ⟨fuel, rfl⟩ : ∃ k, fuel = k + 1 := ⟨fuel - 1, by omega⟩
      exact (valueOf_negative depth fuel hc).trans (h _ rest hr)
  | false =>
    constructor
    · have hne (d : Char) (hd : isAsciiDigit d = false) : c ≠ d := by
        rintro rfl
        rw [hc] at hd
        cases hd
      refine ⟨c, t, rfl, ?_⟩
      simp [opens, isSpace, hne ' ' rfl, hne '\t' rfl, hne '\n' rfl, hne '\r' rfl, hne ']' rfl, hne '\x7d' rfl,
        hne '\ufeff' rfl]
    · intro depth fuel rest hr hfuel _
      obtain ⟨fuel, rfl⟩ : ∃ k, fuel = k + 1 := ⟨fuel - 1, by omega⟩
      exact (valueOf_digit depth fuel hc).trans (h _ rest hr)

theorem number_holds (x : Double) : Holds (number x) (.float x) := by
  cases x with
  | nan => exact word_holds (w := "NaN") (by simp [words])
  | infinite negative =>
    cases negative with
    | true => exact word_holds (w := "-Infinity") (by simp [words])
    | false => exact word_holds (w := "Infinity") (by simp [words])
  | finite x =>
    obtain ⟨n, hn, htext, hdenotes⟩ := Double.roundTripDigits_notation x
    have hnumber : number (.finite x) = (if x.negative then ['-'] else []) ++ n.text := by
      unfold number Double.inWords Double.signed
      rw [String.toList_ofList, htext]
      cases x.negative <;> rfl
    rw [hnumber]
    apply signed_holds
    · obtain ⟨c, t, hwhole⟩ := List.exists_cons_of_ne_nil hn.nonempty
      refine ⟨c, t ++ (if n.fraction = [] then [] else '.' :: n.fraction) ++ Notation.exponentText n.exponent, ?_, ?_⟩
      · rw [Notation.text, hwhole]
        rfl
      · have := hn.whole
        rw [hwhole, List.all_cons, Bool.and_eq_true] at this
        exact this.1
    · intro start rest hr
      rw [numberOf_text start x.negative hn hr, hdenotes.read]

theorem integer_holds {i : Int} (h : Scalar.isWritable i = true) : Holds (toString i).toList (.int i) := by
  rw [Numeral.toString_eq]
  have hsign : (if i < 0 then ['-'] else []) = if decide (i < 0) = true then ['-'] else [] := by simp
  rw [hsign]
  apply signed_holds
  · obtain ⟨c, t, hds⟩ := List.exists_cons_of_ne_nil (Nat.toDigits_ne_nil (n := i.natAbs) (b := 10))
    have := Numeral.toDigits_digits i.natAbs
    rw [hds, List.all_cons, Bool.and_eq_true] at this
    exact ⟨c, t, hds, this.1⟩
  · intro start rest hr
    rw [numberOf_digits start _ _ hr (Numeral.length_toDigits_le h)]
    simp only [decide_eq_true_eq]
    congr 3
    omega

theorem string_holds (s : String) : Holds (string s) (.text s) := by
  constructor
  · exact ⟨_, _, rfl, rfl⟩
  · intro depth fuel rest _ hfuel _
    obtain ⟨fuel, rfl⟩ : ∃ k, fuel = k + 1 := ⟨fuel - 1, by omega⟩
    have hstring : string s ++ rest = '"' :: (s.toList.flatMap escape ++ '"' :: rest) := by simp [string]
    rw [hstring, valueOf, stringTail_string]
    rfl

theorem scalar_holds (hlayout : layout.integer = Scalar.integerText) {s : Scalar} (h : s.IsPlain) :
    ∃ text, scalar layout s = .ok text ∧ Holds text (.scalar s) := by
  cases h with
  | null => exact ⟨_, rfl, word_holds (w := "null") (by simp [words])⟩
  | bool b =>
    cases b with
    | true => exact ⟨_, rfl, word_holds (w := "true") (by simp [words])⟩
    | false => exact ⟨_, rfl, word_holds (w := "false") (by simp [words])⟩
  | @int i hi =>
    refine ⟨_, ?_, integer_holds hi⟩
    rw [scalar, hlayout, Scalar.integerText, if_pos hi]
  | float x => exact ⟨_, rfl, number_holds x⟩
  | text s => exact ⟨_, rfl, string_holds s⟩

end Plain

end Playpen.Json
