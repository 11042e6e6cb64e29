import Mathlib.Data.List.DropRight
import Playpen.Docker.Size
import Playpen.Proofs.Number.Notation
import Playpen.Proofs.Number.Overflow

namespace Playpen.Docker.Size

open Text (isBlank isAsciiDigit)
open Numeral (ofDigits)

variable {s unit : List Char} {w : Written} {f : Nat}

def pointed (fraction : List Char) : List Char := if fraction = [] then [] else '.' :: fraction

inductive Spells (w : Written) : List Char → Prop
  | intro {before between after : List Char} (hbefore : before.all isBlank = true) (hnonempty : w.whole ≠ [])
    (hwhole : w.whole.all isAsciiDigit = true) (hfraction : w.fraction.all isAsciiDigit = true)
    (hbetween : between.all isBlank = true) (hunit : w.unit.all isLetter = true) (hafter : after.all isBlank = true) :
    Spells w (before ++ (w.whole ++ (pointed w.fraction ++ (between ++ (w.unit ++ after)))))

section

variable {c : Char}

def IsVisible (c : Char) : Prop := 33 ≤ c.toNat ∧ c.toNat ≤ 126

instance : Decidable (IsVisible c) := inferInstanceAs (Decidable (_ ∧ _))

theorem IsVisible.not_isBlank (h : IsVisible c) : isBlank c = false := by
  unfold IsVisible at h
  simp [isBlank]
  omega

theorem bounds_of_digit (h : isAsciiDigit c = true) : 48 ≤ c.toNat ∧ c.toNat ≤ 57 := by
  simp only [isAsciiDigit, Bool.and_eq_true, decide_eq_true_eq] at h
  exact h

theorem bounds_of_letter (h : isLetter c = true) :
    97 ≤ c.toNat ∧ c.toNat ≤ 122 ∨ 65 ≤ c.toNat ∧ c.toNat ≤ 90 := by
  simp only [isLetter, Bool.or_eq_true, Bool.and_eq_true, decide_eq_true_eq] at h
  exact h

theorem visible_of_digit (h : isAsciiDigit c = true) : IsVisible c := by
  have := bounds_of_digit h
  unfold IsVisible
  omega

theorem visible_of_letter (h : isLetter c = true) : IsVisible c := by
  have := bounds_of_letter h
  unfold IsVisible
  omega

theorem visible_of_point (h : decide (c = '.') = true) : IsVisible c := by
  obtain rfl := of_decide_eq_true h
  decide

theorem not_point_of_letter (h : isLetter c = true) : decide (c = '.') = false := by
  rw [decide_eq_false_iff_not]
  rintro rfl
  cases h

theorem not_digit_of_letter (h : isLetter c = true) : isAsciiDigit c = false := by
  rw [Bool.eq_false_iff]
  intro hd
  have := bounds_of_digit hd
  have := bounds_of_letter h
  omega

theorem not_of_blank {p : Char → Bool} (hp : ∀ {c}, p c = true → IsVisible c) (h : isBlank c = true) : p c = false := by
  rw [Bool.eq_false_iff]
  intro hc
  cases h.symm.trans (hp hc).not_isBlank

end

section

variable {p : Char → Bool} {ds r : List Char}

theorem ends_append (hd : ∀ c ∈ ds, p c = false) (hr : Ends p r) : Ends p (ds ++ r) := by
  cases ds with
  | nil => exact hr
  | cons d ds =>
    rintro c ⟨⟩
    exact hd d List.mem_cons_self

theorem ends_blank (hvisible : ∀ {c}, p c = true → IsVisible c) (h : ds.all isBlank = true) : Ends p ds := fun c hc =>
  not_of_blank hvisible (List.all_eq_true.mp h c (List.mem_of_mem_head? hc))

theorem ends_number {between unit after : List Char} (hvisible : ∀ {c}, p c = true → IsVisible c)
    (hletter : ∀ {c}, isLetter c = true → p c = false) (hbetween : between.all isBlank = true)
    (hunit : unit.all isLetter = true) (hafter : after.all isBlank = true) :
    Ends p (between ++ (unit ++ after)) := by
  refine ends_append (fun c hc => ?_) (ends_append (fun c hc => ?_) (ends_blank hvisible hafter))
  · exact not_of_blank hvisible (List.all_eq_true.mp hbetween c hc)
  · exact hletter (List.all_eq_true.mp hunit c hc)

end

theorem unit_of_blanks {between unit after : List Char} (hbetween : between.all isBlank = true)
    (hunit : unit.all isLetter = true) (hafter : after.all isBlank = true) :
    let rest := (between ++ (unit ++ after)).dropWhile isBlank
    rest.takeWhile isLetter = unit ∧ (rest.dropWhile isLetter).dropWhile isBlank = [] := by
  have hend : after.dropWhile isBlank = [] := List.dropWhile_eq_nil_iff.mpr (List.all_eq_true.mp hafter)
  cases unit with
  | nil =>
    rw [List.nil_append, List.dropWhile_append_of_pos (List.all_eq_true.mp hbetween), hend]
    exact ⟨rfl, rfl⟩
  | cons c cs =>
    have hletters : Ends isBlank (c :: cs ++ after) := by
      rintro _ ⟨⟩
      exact (visible_of_letter (List.all_eq_true.mp hunit c List.mem_cons_self)).not_isBlank
    obtain ⟨htake, hdrop⟩ := takeWhile_append hunit (ends_blank visible_of_letter hafter)
    dsimp only
    rw [(takeWhile_append hbetween hletters).2, htake, hdrop]
    exact ⟨rfl, hend⟩

def behind (rest : List Char) : List Char × List Char × Bool :=
  match rest with
  | '.' :: r => (r.takeWhile isAsciiDigit, r.dropWhile isAsciiDigit, r.head?.any isAsciiDigit)
  | r => ([], r, true)

theorem behind_pointed {fraction r : List Char} (hd : fraction.all isAsciiDigit = true) (hr : Ends isAsciiDigit r)
    (hpoint : Ends (· = '.') r) : behind (pointed fraction ++ r) = (fraction, r, true) := by
  obtain ⟨htake, hdrop⟩ := takeWhile_append hd hr
  cases fraction with
  | nil =>
    show behind r = _
    unfold behind
    split
    · exact absurd (hpoint '.' rfl) (by decide)
    · rfl
  | cons d ds =>
    show ((d :: ds ++ r).takeWhile isAsciiDigit, (d :: ds ++ r).dropWhile isAsciiDigit, isAsciiDigit d) = _
    rw [htake, hdrop, (Bool.and_eq_true_iff.mp hd).1]

theorem pointed_behind {rest : List Char} (h : (behind rest).2.2 = true) :
    rest = pointed (behind rest).1 ++ (behind rest).2.1 ∧ (behind rest).1.all isAsciiDigit = true := by
  unfold behind at h ⊢
  split
  · rename_i r
    refine ⟨?_, List.all_takeWhile⟩
    have hne : r.takeWhile isAsciiDigit ≠ [] := by
      cases r with
      | nil => cases h
      | cons d ds =>
        have hd : isAsciiDigit d = true := h
        rw [List.takeWhile_cons_of_pos hd]
        exact List.cons_ne_nil _ _
    rw [pointed, if_neg hne, List.cons_append, List.takeWhile_append_dropWhile]
  · exact ⟨rfl, rfl⟩

theorem scan_eq (s : List Char) : scan s =
    let s := s.dropWhile isBlank
    let (fraction, rest, proper) := behind (s.dropWhile isAsciiDigit)
    let unit := (rest.dropWhile isBlank).takeWhile isLetter
    let after := ((rest.dropWhile isBlank).dropWhile isLetter).dropWhile isBlank
    if !(s.takeWhile isAsciiDigit).isEmpty && proper && after.isEmpty
      then some ⟨s.takeWhile isAsciiDigit, fraction, unit⟩ else none := rfl

theorem scan_of_spells (h : Spells w s) : scan s = some w := by
  cases h with
  | @intro before between after hbefore hnonempty hwhole hfraction hbetween hunit hafter =>
    obtain ⟨whole, fraction, unit⟩ := w
    dsimp only at hnonempty hwhole hfraction hunit ⊢
    have htail : Ends isAsciiDigit (between ++ (unit ++ after)) :=
      ends_number visible_of_digit not_digit_of_letter hbetween hunit hafter
    have hpoint : Ends (· = '.') (between ++ (unit ++ after)) :=
      ends_number visible_of_point not_point_of_letter hbetween hunit hafter
    have hdigits : Ends isAsciiDigit (pointed fraction ++ (between ++ (unit ++ after))) := by
      unfold pointed
      split
      · exact htail
      · rintro _ ⟨⟩
        rfl
    have hnumber : Ends isBlank (whole ++ (pointed fraction ++ (between ++ (unit ++ after)))) := by
      obtain ⟨d, ds, rfl⟩ := List.exists_cons_of_ne_nil hnonempty
      rintro _ ⟨⟩
      exact (visible_of_digit (List.all_eq_true.mp hwhole d List.mem_cons_self)).not_isBlank
    obtain ⟨htake, hdrop⟩ := takeWhile_append hwhole hdigits
    obtain ⟨hletters, hend⟩ := unit_of_blanks hbetween hunit hafter
    rw [scan_eq]
    dsimp only
    rw [(takeWhile_append hbefore hnumber).2, htake, hdrop, behind_pointed hfraction htail hpoint]
    dsimp only
    rw [hletters, hend]
    simp [hnonempty]

theorem spells_of_scan (h : scan s = some w) : Spells w s := by
  rw [scan_eq] at h
  dsimp only at h
  split at h
  · rename_i hproper
    simp only [Bool.and_eq_true, Bool.not_eq_true', List.isEmpty_eq_false_iff, List.isEmpty_iff] at hproper
    obtain ⟨⟨hnonempty, hproper⟩, hend⟩ := hproper
    cases h
    obtain ⟨hrest, hfraction⟩ := pointed_behind hproper
    generalize behind ((s.dropWhile isBlank).dropWhile isAsciiDigit) = b at hrest hfraction hend ⊢
    have hafter : ((b.2.1.dropWhile isBlank).dropWhile isLetter).takeWhile isBlank =
        (b.2.1.dropWhile isBlank).dropWhile isLetter :=
      List.takeWhile_eq_self_iff.mpr (List.dropWhile_eq_nil_iff.mp hend)
    have hs : s = s.takeWhile isBlank ++ ((s.dropWhile isBlank).takeWhile isAsciiDigit ++ (pointed b.1 ++
        (b.2.1.takeWhile isBlank ++ ((b.2.1.dropWhile isBlank).takeWhile isLetter ++
          ((b.2.1.dropWhile isBlank).dropWhile isLetter).takeWhile isBlank)))) := by
      rw [hafter, List.takeWhile_append_dropWhile, List.takeWhile_append_dropWhile, ← hrest,
        List.takeWhile_append_dropWhile, List.takeWhile_append_dropWhile]
    exact (congrArg (Spells _) hs).mpr (.intro List.all_takeWhile hnonempty List.all_takeWhile hfraction
      List.all_takeWhile List.all_takeWhile List.all_takeWhile)
  · cases h

theorem scan_eq_some_iff : scan s = some w ↔ Spells w s := ⟨spells_of_scan, scan_of_spells⟩

def Written.value (w : Written) : ℚ := ofDigits (w.whole ++ w.fraction) / 10 ^ w.fraction.length

def Written.Overflows (w : Written) (factor : Nat) : Prop :=
  Double.bound ≤ w.value ∨ ∃ x : Double.Finite, w.amount = .finite x ∧ Double.bound ≤ x.value * factor

theorem factor_bounds (h : factor? unit = some f) : 0 < f ∧ f < 2 ^ 53 := by
  have hall : ∀ u ∈ units, 0 < u.2 ∧ u.2 < 2 ^ 53 := by decide
  obtain ⟨before, after, hunits, -⟩ := List.lookup_eq_some_iff.mp h
  rw [hunits] at hall
  exact hall _ (List.mem_append_right _ List.mem_cons_self)

theorem amount_cases (w : Written) :
    (∃ x, w.amount = .finite x ∧ x.negative = false) ∨ w.amount = .infinite false :=
  Double.ofDecimal_cases ..

theorem amount_eq_infinite_iff : w.amount = .infinite false ↔ Double.bound ≤ w.value := by
  rw [Written.amount, Double.ofDecimal_eq_infinite_iff, Written.value, zpow_neg, zpow_natCast, div_eq_mul_inv]

theorem product_cases (w : Written) (h : factor? unit = some f) :
    (∃ n : Int, (w.amount.mul (Double.ofInt f)).truncate = .ok n ∧ 0 ≤ n ∧ ¬w.Overflows f) ∨
      (w.amount.mul (Double.ofInt f)).truncate = .error .infinite ∧ w.Overflows f := by
  obtain ⟨hpos, hsmall⟩ := factor_bounds h
  obtain ⟨y, hy, hunsigned, hquanta⟩ := Double.ofInt_whole hsmall
  have hvalue : y.value = f := Double.Finite.value_eq hquanta
  rw [hy]
  obtain ⟨x, hx, hsign⟩ | hx := amount_cases w
  · have hover : w.Overflows f ↔ Double.bound ≤ x.value * y.value := by
      rw [hvalue]
      constructor
      · rintro (h | ⟨z, hz, h⟩)
        · cases hx.symm.trans (amount_eq_infinite_iff.mpr h)
        · cases hx.symm.trans hz
          exact h
      · exact fun h => .inr ⟨x, hx, h⟩
    rw [hx, hover, ← Double.mul_eq_infinite_iff, hsign, hunsigned]
    rw [Double.mul, hsign, hunsigned]
    obtain ⟨z, hz, hunsigned⟩ | hz := Double.ofQuotient_cases (false != false) (x.quanta * y.quanta) Double.unit
    · rw [hz, Double.truncate_unsigned hunsigned]
      refine .inl ⟨_, rfl, Int.natCast_nonneg _, fun h => ?_⟩
      cases h
    · rw [hz]
      exact .inr ⟨rfl, rfl⟩
  · have hne : y.significand ≠ 0 := by
      intro hzero
      have hproduct : f * Double.unit = 0 := by rw [← hquanta, Double.Finite.quanta, hzero, Nat.zero_mul]
      exact Nat.mul_ne_zero (Nat.ne_of_gt hpos) (Nat.cast_ne_zero.mp Double.unit_cast_pos.ne') hproduct
    rw [hx, Double.mul, if_neg hne]
    exact .inr ⟨rfl, .inl (amount_eq_infinite_iff.mp hx)⟩

theorem product_whole (h : factor? unit = some f) (hfraction : w.fraction = [])
    (hsmall : ofDigits w.whole * f < 2 ^ 53) :
    (w.amount.mul (Double.ofInt f)).truncate = .ok ((ofDigits w.whole * f : Nat) : Int) := by
  obtain ⟨hpos, hf⟩ := factor_bounds h
  obtain ⟨y, hy, hunsigned, hquanta⟩ := Double.ofInt_whole hf
  have hunit : 0 < Double.unit := Nat.cast_pos.mp Double.unit_cast_pos
  have hdigits : ofDigits w.whole < 2 ^ 53 := Nat.lt_of_le_of_lt (Nat.le_mul_of_pos_right _ hpos) hsmall
  have hamount : w.amount = Double.ofDecimal false (ofDigits w.whole) 0 := by
    rw [Written.amount, hfraction, List.append_nil]
    rfl
  obtain ⟨x, hx, hsign, hcount⟩ := Double.ofDecimal_whole hdigits
  obtain ⟨z, hz, hz', hproduct⟩ := Double.ofQuotient_whole false hunit hsmall
    (show x.quanta * y.quanta = _ by rw [hcount, hquanta]; ring)
  rw [hamount, hx, hy, Double.mul, hsign, hunsigned]
  show (Double.ofQuotient false (x.quanta * y.quanta) Double.unit).truncate = _
  rw [hz, Double.truncate_unsigned hz', hproduct, Nat.mul_div_cancel _ hunit]

theorem bytes_of_spells {s : String} (h : Spells w s.toList) (hf : factor? w.unit = some f) :
    bytes s = (w.amount.mul (Double.ofInt f)).truncate := by
  rw [bytes, scan_eq_some_iff.mpr h]
  dsimp only
  rw [hf]

def Unspelt (s : List Char) : Prop := ∀ w, Spells w s → factor? w.unit = none

theorem bytes_of_unspelt {s : String} (h : Unspelt s.toList) : bytes s = .ok 0 := by
  unfold bytes
  split
  · rfl
  · rename_i w hscan
    rw [h w (scan_eq_some_iff.mp hscan)]

theorem unspelt_or (s : List Char) : Unspelt s ∨ ∃ w f, Spells w s ∧ factor? w.unit = some f := by
  rcases hscan : scan s with _ | w
  · refine .inl fun w hw => ?_
    cases hscan.symm.trans (scan_eq_some_iff.mpr hw)
  · rcases hf : factor? w.unit with _ | f
    · refine .inl fun w' hw' => ?_
      cases hscan.symm.trans (scan_eq_some_iff.mpr hw')
      exact hf
    · exact .inr ⟨w, f, scan_eq_some_iff.mp hscan, hf⟩

/-- What a text says is no negative number of bytes, and none if the text is no size or its unit is unknown; whole
numbers of units are exact below 2 ^ 53. Nothing comes of a size that is beyond the range of numbers, and else
something does. -/
theorem bytes_outcome (s : String) :
    (∀ n, bytes s = .ok n → 0 ≤ n) ∧ (Unspelt s.toList → bytes s = .ok 0) ∧
    (∀ w f, Spells w s.toList → factor? w.unit = some f → w.fraction = [] → ofDigits w.whole * f < 2 ^ 53 →
      bytes s = .ok ((ofDigits w.whole * f : Nat) : Int)) ∧
    ∀ e, bytes s = .error e ↔
      e = .infinite ∧ ∃ w f, Spells w s.toList ∧ factor? w.unit = some f ∧ w.Overflows f := by
  refine ⟨fun n hn => ?_, bytes_of_unspelt, fun w f h hf hfraction hsmall => ?_, fun e => ?_⟩
  · obtain hnone | ⟨w, f, h, hf⟩ := unspelt_or s.toList
    · cases (bytes_of_unspelt hnone).symm.trans hn
      exact Int.le_refl 0
    · rw [bytes_of_spells h hf] at hn
      obtain ⟨m, hm, hpos, -⟩ | ⟨herror, -⟩ := product_cases w hf
      · cases hm.symm.trans hn
        exact hpos
      · cases herror.symm.trans hn
  · rw [bytes_of_spells h hf, product_whole hf hfraction hsmall]
  · obtain hnone | ⟨w, f, h, hf⟩ := unspelt_or s.toList
    · rw [bytes_of_unspelt hnone]
      refine iff_of_false nofun ?_
      rintro ⟨-, w, f, h, hf, -⟩
      cases (hnone w h).symm.trans hf
    · have hover : (∃ w f, Spells w s.toList ∧ factor? w.unit = some f ∧ w.Overflows f) ↔ w.Overflows f := by
        constructor
        · rintro ⟨w', f', h', hf', hover⟩
          cases (scan_eq_some_iff.mpr h).symm.trans (scan_eq_some_iff.mpr h')
          cases hf.symm.trans hf'
          exact hover
        · exact fun hover => ⟨w, f, h, hf, hover⟩
      rw [bytes_of_spells h hf, hover]
      obtain ⟨m, hm, -, hnot⟩ | ⟨herror, hover⟩ := product_cases w hf
      · rw [hm]
        exact iff_of_false nofun fun h => hnot h.2
      · rw [herror, Except.error.injEq, eq_comm]
        exact ⟨fun h => ⟨h, hover⟩, And.left⟩

example : bytes " 1.5 kB\n" = .ok 1500 := by decide +kernel

theorem spells_digits {ds : List Char} (hne : ds ≠ []) (hd : ds.all isAsciiDigit = true) : Spells ⟨ds, [], []⟩ ds := by
  have h := @Spells.intro ⟨ds, [], []⟩ [] [] [] rfl hne hd rfl rfl rfl rfl
  simpa [pointed] using h

theorem ofDigits_ten_pow (n : Nat) : ofDigits ('1' :: List.replicate n '0') = 10 ^ n := by
  have h := Numeral.ofDigits_append ['1'] (Decimal.zeros n)
  rw [Numeral.ofDigits_zeros, Decimal.zeros, List.length_replicate, Nat.add_zero] at h
  exact h.trans (Nat.one_mul _)

theorem bound_le_ten_pow {n : Nat} (h : 309 ≤ n) : Double.bound ≤ 10 ^ n := by
  have hlarge : (2 : ℚ) ^ 1024 ≤ 10 ^ 309 := by
    have : 2 ^ 1024 ≤ 10 ^ 309 := by decide +kernel
    exact_mod_cast this
  calc Double.bound
    _ ≤ 2 ^ 1024 := sub_le_self _ (by positivity)
    _ ≤ 10 ^ 309 := hlarge
    _ ≤ 10 ^ n := pow_le_pow_right₀ (by norm_num) h

theorem bytes_of_digits {ds : List Char} (hne : ds ≠ []) (hd : ds.all isAsciiDigit = true)
    (hlarge : Double.bound ≤ ofDigits ds) : bytes (String.ofList ds) = .error .infinite := by
  have hspells : Spells ⟨ds, [], []⟩ (String.ofList ds).toList := by
    rw [String.toList_ofList]
    exact spells_digits hne hd
  have hf : factor? [] = some 1 := rfl
  rw [bytes_of_spells hspells hf]
  obtain ⟨m, -, -, hnot⟩ | ⟨herror, -⟩ := product_cases ⟨ds, [], []⟩ hf
  · refine absurd (.inl ?_) hnot
    simpa [Written.value] using hlarge
  · exact herror

theorem bytes_ten_pow {n : Nat} (h : 309 ≤ n) :
    bytes (String.ofList ('1' :: List.replicate n '0')) = .error .infinite := by
  refine bytes_of_digits (List.cons_ne_nil _ _) ?_ ?_
  · rw [List.all_cons, List.all_replicate]
    split <;> rfl
  · rw [ofDigits_ten_pow]
    exact_mod_cast bound_le_ten_pow h

theorem bytes_not_total : ¬∀ s, ∃ n, bytes s = .ok n ∧ 0 ≤ n := by
  intro h
  obtain ⟨n, hn, -⟩ := h (String.ofList ('1' :: List.replicate 309 '0'))
  cases (bytes_ten_pow (Nat.le_refl 309)).symm.trans hn

end Playpen.Docker.Size
