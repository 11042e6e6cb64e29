import Playpen.Proofs.Number.Notation
import Playpen.Proofs.Yaml.Written
import Playpen.Yaml.Schema.Value

namespace Playpen

open Text (isAsciiDigit)
open Numeral (ofDigits maxDigits)

namespace Numeral

variable {s : List Char}

theorem map_number {f : Char → Char} (hf : ("0123456789.e+-".toList.all fun c => f c = c) = true)
    (hs : s.all isNumberChar = true) : s.map f = s := by
  refine (List.map_congr_left fun c hc => ?_).trans (List.map_id s)
  simpa using of_isNumberChar hf (List.all_eq_true.mp hs c hc)

theorem filter_number {p : Char → Bool} (hp : "0123456789.e+-".toList.all p = true) (hs : s.all isNumberChar = true) :
    s.filter p = s :=
  List.filter_eq_self.mpr fun c hc => of_isNumberChar hp (List.all_eq_true.mp hs c hc)

theorem dropWhile_number {p : Char → Bool} (hp : ("0123456789.e+-".toList.all fun c => !p c) = true)
    (hs : s.all isNumberChar = true) : s.dropWhile p = s := by
  cases s with
  | nil => rfl
  | cons c s =>
    have := of_isNumberChar hp (List.all_eq_true.mp hs c (List.mem_cons_self ..))
    exact List.dropWhile_cons_of_neg (by simpa using this)

theorem trimBy_number {p : Char → Bool} (hp : ("0123456789.e+-".toList.all fun c => !p c) = true)
    (hs : s.all isNumberChar = true) : Text.trimBy p s = s := by
  rw [Text.trimBy, dropWhile_number hp hs, Text.trimEnd, dropWhile_number hp (by rwa [List.all_reverse]),
    List.reverse_reverse]

theorem trimmed_number (hs : s.all isNumberChar = true) : Text.trimBy Text.isEdgeBlank (s.map normalize) = s := by
  rw [map_number (by decide) hs, trimBy_number (by decide) hs]

theorem dropUnderscores?_number (before : Option Char) (hs : s.all isNumberChar = true) :
    dropUnderscores? before s = some s := by
  induction s generalizing before with
  | nil => rfl
  | cons c s ih =>
    rw [List.all_cons, Bool.and_eq_true] at hs
    have hc : c ≠ '_' := by
      rintro rfl
      cases hs.1
    rw [dropUnderscores?]
    · rw [ih _ hs.2]
      rfl
    · exact hc

theorem joined?_digits (hs : s.all isAsciiDigit = true) : joined? s = some s := by
  induction s with
  | nil => rfl
  | cons c s ih =>
    rw [List.all_cons, Bool.and_eq_true] at hs
    cases s with
    | nil => simp [joined?, hs.1]
    | cons d s =>
      have hd : d ≠ '_' := by
        rintro rfl
        cases hs.2
      simp only [joined?, hs.1, Bool.not_true, Bool.false_eq_true, if_false, hd, ih hs.2]
      rfl

theorem sign_digit {c : Char} (hc : isAsciiDigit c = true) (s : List Char) : sign (c :: s) = (false, c :: s) := by
  have hne {d : Char} (hd : isAsciiDigit d = false) : c ≠ d := by
    rintro rfl
    rw [hd] at hc
    cases hc
  rw [sign]
  · rintro rest ⟨⟩
    exact hne rfl rfl
  · rintro rest ⟨⟩
    exact hne rfl rfl

theorem integer?_digits (hs : s.all isAsciiDigit = true) (hne : s ≠ []) (hlength : s.length ≤ maxDigits) :
    integer? (String.ofList s) = some (ofDigits s : Int) := by
  have hnumber : s.all isNumberChar = true := by
    rw [List.all_eq_true] at hs ⊢
    exact fun c hc => isNumberChar_of_digit (hs c hc)
  obtain ⟨c, s, rfl⟩ := List.exists_cons_of_ne_nil hne
  have hc : isAsciiDigit c = true := List.all_eq_true.mp hs c (List.mem_cons_self ..)
  rw [integer?, String.toList_ofList, trimmed_number hnumber, sign_digit hc]
  simp only [natural?, joined?_digits hs, hlength, if_true]
  rfl

end Numeral

namespace Notation

variable {n : Notation}

theorem Proper.head (hn : n.Proper) : ∃ c t, n.text = c :: t ∧ isAsciiDigit c = true := by
  obtain ⟨c, t, hwhole⟩ := List.exists_cons_of_ne_nil hn.nonempty
  have hdigits := hn.whole
  rw [hwhole, List.all_cons, Bool.and_eq_true] at hdigits
  rw [text, hwhole]
  exact ⟨c, _, rfl, hdigits.1⟩

theorem exponent?_text (hn : n.Proper) : Numeral.exponent? (exponentText n.exponent) = some (power n.exponent) := by
  cases he : n.exponent with
  | none => rfl
  | some e =>
    obtain ⟨negative, ds⟩ := e
    obtain ⟨hne, hdigits⟩ := hn.exponent _ he
    cases negative <;> simp [exponentText, Numeral.exponent?, Numeral.sign, hne, hdigits, power]

theorem exponentText_ends {p : Char → Bool} (hp : p 'e' = false) (e : Option (Bool × List Char)) :
    Ends p (exponentText e) := by
  cases e with
  | none => rintro c ⟨⟩
  | some e =>
    rintro c ⟨⟩
    exact hp

theorem unsigned?_text (hn : n.Proper) (negative : Bool) : Numeral.unsigned? negative n.text =
    some (Double.ofDecimal negative n.decimal.digits n.decimal.exponent) := by
  have hne : ¬ (n.whole = [] ∧ n.fraction = []) := fun h => hn.nonempty h.1
  have hexponent := exponent?_text hn
  have hends : Ends isAsciiDigit ((if n.fraction = [] then [] else '.' :: n.fraction) ++ exponentText n.exponent) := by
    split
    · exact exponentText_ends rfl n.exponent
    · rintro c ⟨⟩
      rfl
  obtain ⟨htake, hdrop⟩ := takeWhile_append hn.whole hends
  rw [Numeral.unsigned?, text, List.append_assoc, htake, hdrop]
  by_cases hf : n.fraction = []
  · rw [if_pos hf, List.nil_append]
    have hpoint : ∀ r, exponentText n.exponent ≠ '.' :: r := by
      cases n.exponent <;> rintro r ⟨⟩
    split
    · rename_i fraction rest hmatch
      split at hmatch
      · exact absurd ‹_› (hpoint _)
      · cases hmatch
        simp [hn.nonempty, hexponent, decimal, hf]
  · obtain ⟨hfraction, hrest⟩ := takeWhile_append hn.fraction (exponentText_ends rfl n.exponent)
    rw [if_neg hf, List.cons_append]
    simp only [hfraction, hrest]
    rw [if_neg hne, hexponent]
    rfl

theorem double?_text (hn : n.Proper) : Numeral.double? (String.ofList n.text) =
    some (Double.ofDecimal false n.decimal.digits n.decimal.exponent) := by
  obtain ⟨c, t, htext, hc⟩ := hn.head
  have hne {d : Char} (hd : isAsciiDigit d = false) : c ≠ d := by
    rintro rfl
    rw [hd] at hc
    cases hc
  have hsign : Numeral.sign n.text = (false, n.text) := by rw [htext, Numeral.sign_digit hc]
  have hword {d : Char} (w : List Char) (hd : isAsciiDigit d = false) : String.ofList n.text ≠
      String.ofList (d :: w) := by
    intro h
    rw [String.ofList_inj, htext] at h
    injection h with h
    exact hne hd h
  rw [Numeral.double?, String.toList_ofList, Numeral.trimmed_number hn.number,
    Numeral.dropUnderscores?_number none hn.number]
  simp only [Option.bind_eq_bind, Option.bind_some, hsign, Numeral.map_number (f := Numeral.lowerAscii)
    (by decide) hn.number]
  rw [if_neg, if_neg, unsigned?_text hn]
  · exact hword _ rfl
  · rintro (h | h)
    · exact hword _ rfl h
    · exact hword _ rfl h

theorem Denotes.positive {x : Double.Finite} (h : n.Denotes x) : n.Denotes { x with negative := false } := by
  unfold Denotes at h ⊢
  split
  · rwa [if_pos ‹_›] at h
  · rw [if_neg ‹_›] at h
    exact ⟨h.upper, h.lower, h.odd⟩

def pointed (n : Notation) : Notation := if n.fraction = [] then { n with fraction := ['0'] } else n

theorem Proper.pointed (hn : n.Proper) : n.pointed.Proper ∧ n.pointed.fraction ≠ [] := by
  unfold Notation.pointed
  split
  · exact ⟨⟨hn.nonempty, hn.leading, hn.whole, rfl, hn.exponent, .inl (List.cons_ne_nil _ _)⟩, List.cons_ne_nil _ _⟩
  · exact ⟨hn, ‹_›⟩

theorem decimal_pointed (hf : n.fraction = []) : ({ n with fraction := ['0'] } : Notation).decimal =
    ⟨10 * n.decimal.digits, n.decimal.exponent - 1⟩ := by
  unfold decimal
  rw [Numeral.ofDigits_append, hf, List.append_nil]
  simp [Numeral.ofDigits, Numeral.digitOf, Nat.mul_comm]

theorem Denotes.pointed {x : Double.Finite} (h : n.Denotes x) : n.pointed.Denotes x := by
  unfold Notation.pointed
  split
  · rename_i hf
    have hvalue : (10 * n.decimal.digits : ℕ) * (10 : ℚ) ^ (n.decimal.exponent - 1) =
        n.decimal.digits * 10 ^ n.decimal.exponent := by
      rw [zpow_sub_one₀ (by norm_num)]
      push_cast
      ring
    unfold Denotes at h ⊢
    rw [decimal_pointed hf]
    split at h
    · rw [if_pos ‹_›, h]
    · rw [if_neg ‹_›, Decimal.value, hvalue]
      exact h
  · exact h

theorem text_of_fraction (hf : n.fraction ≠ []) :
    n.text = n.whole ++ '.' :: (n.fraction ++ exponentText n.exponent) := by
  rw [text, if_neg hf, List.append_assoc, List.cons_append]

end Notation

namespace Yaml

open Numeral (isNumberChar of_isNumberChar)

variable {s : List Char} {n : Notation}

def signText (negative : Bool) : List Char := if negative then ['-'] else []

theorem sign_signText (negative : Bool) (hs : ∃ c t, s = c :: t ∧ isAsciiDigit c = true) :
    Numeral.sign (signText negative ++ s) = (negative, s) := by
  obtain ⟨c, t, rfl, hc⟩ := hs
  cases negative with
  | true => rfl
  | false => exact Numeral.sign_digit hc t

theorem signText_number (negative : Bool) : (signText negative).all isNumberChar = true := by cases negative <;> rfl

theorem toString_signText (i : Int) : (toString i).toList = signText (decide (i < 0)) ++ Nat.toDigits 10 i.natAbs := by
  rw [Numeral.toString_eq, signText]
  simp

namespace Schema

theorem isOneOf_number {words : List String} (hs : s.all isNumberChar = true)
    (hwords : (words.all fun w => (casings w).all fun l => l.any fun c => !isNumberChar c) = true) :
    isOneOf words s = false := by
  refine List.any_eq_false.mpr fun w hw => ?_
  rw [List.contains_iff_mem]
  intro hmem
  have hany := List.all_eq_true.mp (List.all_eq_true.mp hwords w hw) s hmem
  obtain ⟨c, hc, hnot⟩ := List.any_eq_true.mp hany
  rw [List.all_eq_true.mp hs c hc] at hnot
  cases hnot

theorem tagOf_number (hs : s.all isNumberChar = true) (hne : s ≠ []) :
    tagOf s = if isFloat s then core "float" else if isInteger s then core "int" else tagOf s := by
  have hline : s.getLast? ≠ some '\n' := by
    intro h
    cases List.all_eq_true.mp hs _ (List.mem_of_getLast? h)
  have hone : s ≠ ['\n'] := by
    rintro rfl
    exact hline rfl
  have hnull : isNull s = false := by
    have htilde : s ≠ ['~'] := by
      rintro rfl
      cases hs
    have hword : isOneOf ["null"] s = false := isOneOf_number hs (by decide)
    simp [isNull, hne, htilde, hword]
  have htruth : isOneOf (truths.map (·.1)) s = false := isOneOf_number hs (by decide)
  have hform : tagOf s = formTag s := by
    rw [tagOf, if_neg hone, Timestamp.withoutLineEnd, if_neg hline]
  rw [hform, formTag, hnull, htruth]
  simp only [Bool.false_eq_true, if_false]
  split_ifs <;> rfl

theorem isPointed_text (hn : n.Proper) (hf : n.fraction ≠ []) : isPointed isDecimalWhole isFraction n.text = true := by
  have hdigit {c : Char} (h : isAsciiDigit c = true) : digitOrLine c = true := by simp [digitOrLine, h]
  have hall {ds : List Char} (h : ds.all isAsciiDigit = true) : ds.all digitOrLine = true :=
    List.all_eq_true.mpr fun c hc => hdigit (List.all_eq_true.mp h c hc)
  have hnotpoint : n.whole.all (· ≠ '.') = true := by
    refine List.all_eq_true.mpr fun c hc => decide_eq_true ?_
    rintro rfl
    cases List.all_eq_true.mp hn.whole _ hc
  obtain ⟨htake, -⟩ := takeWhile_append (r := '.' :: (n.fraction ++ Notation.exponentText n.exponent)) hnotpoint
    (by rintro c ⟨⟩; rfl)
  have hexponent : isExponent (Notation.exponentText n.exponent) = true := by
    cases he : n.exponent with
    | none => rfl
    | some e =>
      obtain ⟨negative, ds⟩ := e
      obtain ⟨hne, hds⟩ := hn.exponent _ he
      have hempty : ds.isEmpty = false := by rwa [List.isEmpty_eq_false_iff]
      cases negative <;> simpa [Notation.exponentText, isExponent, hempty] using hds
  have hends : Ends digitOrLine (Notation.exponentText n.exponent) := Notation.exponentText_ends rfl _
  have hwhole : isDecimalWhole n.whole = true := by
    obtain ⟨c, t, hwhole⟩ := List.exists_cons_of_ne_nil hn.nonempty
    rw [isDecimalWhole, hall hn.whole, beginsWithDigit, hwhole]
    have := hn.whole
    rw [hwhole, List.all_cons, Bool.and_eq_true] at this
    simp [this.1]
  rw [Notation.text_of_fraction hf, isPointed]
  simp only [htake, List.drop_left]
  rw [hwhole, isFraction, (takeWhile_append (hall hn.fraction) hends).2, hexponent]
  rfl

theorem tagOf_float (hn : n.Proper) (hf : n.fraction ≠ []) (negative : Bool) :
    tagOf (signText negative ++ n.text) = core "float" := by
  have hnumber : (signText negative ++ n.text).all isNumberChar = true := by
    rw [List.all_append, signText_number, hn.number]
    rfl
  obtain ⟨c, t, htext, hc⟩ := hn.head
  have hfloat : isFloat (signText negative ++ n.text) = true := by
    have hbody : unsigned (signText negative ++ n.text) = n.text := by
      rw [unsigned, sign_signText negative ⟨c, t, htext, hc⟩]
    rw [isFloat, hbody, isPointed_text hn hf]
    rfl
  rw [tagOf_number hnumber (by rw [htext]; simp), if_pos hfloat]

theorem isPointed_digits (whole after : List Char → Bool) (hs : s.all (· ≠ '.') = true) :
    isPointed whole after s = false := by
  have htake : s.takeWhile (· ≠ '.') = s := by simpa using (takeWhile_append hs (r := []) (by rintro c ⟨⟩)).1
  rw [isPointed]
  simp only [htake, List.drop_length]

theorem split_digits (hs : s.all isAsciiDigit = true) : Text.split ':' s = [s] := by
  induction s with
  | nil => rfl
  | cons c s ih =>
    rw [List.all_cons, Bool.and_eq_true] at hs
    have hc : c ≠ ':' := by
      rintro rfl
      cases hs.1
    rw [Text.split, if_neg hc, ih hs.2]

variable {ds : List Char}

structure IsWhole (ds : List Char) : Prop where
  nonempty : ds ≠ []
  digits : ds.all isAsciiDigit = true
  leading : ds = ['0'] ∨ ds.head? ≠ some '0'

theorem isWhole_toDigits (i : Nat) : IsWhole (Nat.toDigits 10 i) := by
  refine ⟨Nat.toDigits_ne_nil, Numeral.toDigits_digits i, ?_⟩
  by_cases hzero : i = 0
  · subst hzero
    exact .inl rfl
  · exact .inr (Numeral.head_toDigits hzero)

theorem tagOf_int (hds : IsWhole ds) (negative : Bool) : tagOf (signText negative ++ ds) = core "int" := by
  obtain ⟨hne, hdigits, hleading⟩ := hds
  have hpoint {ds : List Char} (h : ds.all isNumberChar = true) (hp : '.' ∉ ds) : ds.all (· ≠ '.') = true :=
    List.all_eq_true.mpr fun c hc => decide_eq_true fun h => hp (h ▸ hc)
  have hnumber : (signText negative ++ ds).all isNumberChar = true := by
    rw [List.all_append, signText_number, Notation.all_isNumberChar hdigits]
    rfl
  have hnopoint : '.' ∉ ds := fun h => by cases List.all_eq_true.mp hdigits _ h
  have hnopoint' : '.' ∉ signText negative ++ ds := by
    cases negative <;> simpa [signText] using hnopoint
  obtain ⟨c, t, hcons⟩ := List.exists_cons_of_ne_nil hne
  have hc : isAsciiDigit c = true := List.all_eq_true.mp hdigits c (by rw [hcons]; exact List.mem_cons_self ..)
  have hbody : unsigned (signText negative ++ ds) = ds := by rw [unsigned, sign_signText negative ⟨c, t, hcons, hc⟩]
  have hhead : (signText negative ++ ds).head? ≠ some '.' := fun h => hnopoint' (List.mem_of_mem_head? h)
  have hfloat : isFloat (signText negative ++ ds) = false := by
    have hbodypoint := hpoint (Notation.all_isNumberChar hdigits) hnopoint
    have hallpoint := hpoint hnumber hnopoint'
    simp only [isFloat, hbody, isPointed_digits _ _ hbodypoint, isPointed_digits _ _ hallpoint, hhead]
    rfl
  have hinteger : isInteger (signText negative ++ ds) = true := by
    rw [isInteger, hbody]
    -- Integers to another base begin with a zero that has something behind it.
    rcases hleading with rfl | hleading
    · rfl
    · have hwhole : isDecimalWhole ds = true := by
        have hall : ds.all digitOrLine = true :=
          List.all_eq_true.mpr fun c hc => by simp [digitOrLine, List.all_eq_true.mp hdigits c hc]
        rw [isDecimalWhole, hall, beginsWithDigit, hcons]
        simp [hc]
      split
      · exact absurd rfl hleading
      · exact absurd rfl hleading
      · exact absurd rfl hleading
      · exact absurd rfl hleading
      · rw [split_digits hdigits]
        exact hwhole
  rw [tagOf_number hnumber (by simp [hne]), hfloat, hinteger]
  rfl

theorem integer_digits (hds : IsWhole ds) (hlength : ds.length ≤ maxDigits) (negative : Bool) :
    integer (signText negative ++ ds) = .ok (if negative then -(ofDigits ds : Int) else ofDigits ds) := by
  obtain ⟨hne, hdigits, hleading⟩ := hds
  obtain ⟨c, t, hcons⟩ := List.exists_cons_of_ne_nil hne
  have hc : isAsciiDigit c = true := List.all_eq_true.mp hdigits c (by rw [hcons]; exact List.mem_cons_self ..)
  have hnumber : (signText negative ++ ds).all isNumberChar = true := by
    rw [List.all_append, signText_number, Notation.all_isNumberChar hdigits]
    rfl
  have hlines : withoutLines (signText negative ++ ds) = signText negative ++ ds :=
    Numeral.filter_number (by decide) hnumber
  rw [integer, hlines, sign_signText negative ⟨c, t, hcons, hc⟩]
  rcases hleading with rfl | hleading
  · cases negative <;> rfl
  · have hcolon : ds.contains ':' = false := by
      rw [Bool.eq_false_iff, ne_eq, List.contains_iff_mem]
      intro h
      cases List.all_eq_true.mp hdigits _ h
    dsimp only
    split
    · exact absurd rfl hne
    · exact absurd rfl hleading
    · exact absurd rfl hleading
    · exact absurd rfl hleading
    · exact absurd rfl hleading
    · rw [hcolon, Numeral.integer?_digits hdigits hne hlength]
      cases negative <;> rfl

theorem integer_toString {i : Int} (h : Scalar.isWritable i = true) :
    integer (signText (decide (i < 0)) ++ Nat.toDigits 10 i.natAbs) = .ok i := by
  rw [integer_digits (isWhole_toDigits i.natAbs) (Numeral.length_toDigits_le h), Numeral.ofDigits_toDigits]
  refine congrArg _ ?_
  simp only [decide_eq_true_eq]
  omega

theorem float_text (hn : n.Proper) {x : Double.Finite} (hx : n.Denotes x) (mark : Nat) :
    float mark (signText x.negative ++ n.text) = .ok (.float (.finite x)) := by
  obtain ⟨c, t, htext, hc⟩ := hn.head
  have hnumber : (signText x.negative ++ n.text).all isNumberChar = true := by
    rw [List.all_append, signText_number, hn.number]
    rfl
  have hne {w : List Char} (hw : (w.head?.any fun d => !isAsciiDigit d) = true) : n.text ≠ w := by
    rw [htext]
    rintro rfl
    simp [hc] at hw
  have hcolon : n.text.contains ':' = false := by
    rw [Bool.eq_false_iff, ne_eq, List.contains_iff_mem]
    intro h
    cases List.all_eq_true.mp hn.number _ h
  have hpositive : Double.ofDecimal false n.decimal.digits n.decimal.exponent = .finite { x with negative := false } :=
    Notation.Denotes.read (x := { x with negative := false }) hx.positive
  have hlines : withoutLines ((signText x.negative ++ n.text).map Numeral.lowerAscii) =
      signText x.negative ++ n.text := by
    rw [Numeral.map_number (by decide) hnumber]
    exact Numeral.filter_number (by decide) hnumber
  have hempty : signText x.negative ++ n.text ≠ [] := by simp [htext]
  rw [float, hlines, sign_signText x.negative ⟨c, t, htext, hc⟩]
  dsimp only
  rw [if_neg hempty, if_neg (hne (by decide)), if_neg (hne (by decide)), hcolon, Notation.double?_text hn, hpositive]
  obtain ⟨negative, significand, scale, hnormal⟩ := x
  cases negative <;> rfl

end Schema

theorem floatText_finite (x : Double.Finite) : ∃ n : Notation, n.Proper ∧ n.fraction ≠ [] ∧ n.Denotes x ∧
    (Printer.floatText (.finite x)).toList = signText x.negative ++ n.text := by
  obtain ⟨n, hn, hdigits, hx⟩ := Double.roundTripDigits_notation x
  refine ⟨n.pointed, hn.pointed.1, hn.pointed.2, hx.pointed, ?_⟩
  have htext : (Double.roundTrip (.finite x)).toList = signText x.negative ++ n.text := by
    rw [Double.roundTrip, Double.inWords, Double.signed, String.toList_ofList, hdigits, signText]
    cases x.negative <;> rfl
  have hdigit {ds : List Char} (h : ds.all isAsciiDigit = true) : ds.all (· ≠ 'e') = true := by
    refine List.all_eq_true.mpr fun c hc => decide_eq_true ?_
    rintro rfl
    cases List.all_eq_true.mp h _ hc
  have hsign : (signText x.negative).all (· ≠ 'e') = true := by cases x.negative <;> rfl
  have hends : Ends (fun c => decide (c ≠ 'e')) (Notation.exponentText n.exponent) := Notation.exponentText_ends rfl _
  unfold Printer.floatText
  dsimp only
  rw [String.toList_ofList, htext]
  -- A text without a point has an exponent, and the point is put in front of that.
  by_cases hf : n.fraction = []
  · obtain ⟨e, he⟩ := Option.ne_none_iff_exists'.mp (hn.float.resolve_left (· hf))
    have hmantissa : (signText x.negative ++ n.whole).all (· ≠ 'e') = true := by
      rw [List.all_append, hsign, hdigit hn.whole]
      rfl
    have hpoint : (signText x.negative ++ n.whole).contains '.' = false := by
      rw [Bool.eq_false_iff, ne_eq, List.contains_iff_mem]
      intro h
      rcases List.mem_append.mp h with h | h
      · cases hneg : x.negative <;> rw [hneg] at h <;> simp [signText] at h
      · cases List.all_eq_true.mp hn.whole _ h
    have htail : (Notation.exponentText n.exponent).length ≠ 0 := by simp [he, Notation.exponentText]
    rw [Notation.text, if_pos hf, List.append_nil, ← List.append_assoc, (takeWhile_append hmantissa hends).1, hpoint,
      List.drop_left, if_neg (by simp [htail]), Notation.pointed, if_pos hf, Notation.text]
    simp
  · have hmantissa : (signText x.negative ++ n.whole ++ '.' :: n.fraction).all (· ≠ 'e') = true := by
      rw [List.all_append, List.all_append, hsign, hdigit hn.whole, List.all_cons, hdigit hn.fraction]
      rfl
    have hsplit : signText x.negative ++ n.text =
        (signText x.negative ++ n.whole ++ '.' :: n.fraction) ++ Notation.exponentText n.exponent := by
      rw [Notation.text_of_fraction hf]
      simp
    have hpoint : (signText x.negative ++ n.whole ++ '.' :: n.fraction).contains '.' = true := by
      rw [List.contains_iff_mem]
      simp
    rw [Notation.pointed, if_neg hf]
    rw [hsplit, (takeWhile_append hmantissa hends).1, hpoint]
    rfl

end Yaml

end Playpen
