import Mathlib.Logic.Function.Iterate
import Playpen.Proofs.Archive.Fields

namespace Playpen.Archive

open Utf8 (Bytes)

theorem mem_decimal {n : Nat} {b : UInt8} (h : b ∈ decimal n) : 48 ≤ b.toNat ∧ b.toNat ≤ 57 := by
  obtain ⟨c, hc, rfl⟩ := List.mem_map.mp h
  have hdigit := Nat.isDigit_of_mem_toDigits (by omega) (by omega) hc
  simp only [Char.isDigit, Bool.and_eq_true, decide_eq_true_eq, UInt32.le_iff_toNat_le] at hdigit
  have hrange : 48 ≤ c.toNat ∧ c.toNat ≤ 57 := hdigit
  rw [Utf8.toNat_ofNat (by omega)]
  exact hrange

theorem decimal_ne_nil (n : Nat) : decimal n ≠ [] := by
  rw [decimal, Ne, List.map_eq_nil_iff]
  exact Nat.toDigits_ne_nil

theorem length_decimal (n : Nat) : (decimal n).length = (Nat.toDigits 10 n).length := List.length_map _

theorem length_decimal_pos (n : Nat) : 0 < (decimal n).length := List.length_pos_iff.mpr (decimal_ne_nil n)

theorem decimalOf?_decimal (n : Nat) : decimalOf? (decimal n) = some n := by
  have hall : (!(decimal n).isEmpty && (decimal n).all fun b => 48 ≤ b && b ≤ 57) = true := by
    simp only [Bool.and_eq_true, Bool.not_eq_true', List.isEmpty_eq_false_iff, List.all_eq_true,
      decide_eq_true_eq, UInt8.le_iff_toNat_le]
    exact ⟨decimal_ne_nil n, fun b hb => mem_decimal hb⟩
  have hstep : ∀ (cs : List Char) (k : Nat), (∀ c ∈ cs, c ∈ Nat.toDigits 10 n) →
      (cs.map fun c => UInt8.ofNat c.toNat).foldl (fun n b => 10 * n + (b.toNat - 48)) k =
        Nat.ofDigitChars 10 cs k := by
    intro cs
    induction cs with
    | nil => exact fun _ _ => rfl
    | cons c cs ih =>
      intro k hcs
      have hdigit := Nat.isDigit_of_mem_toDigits (by omega) (by omega) (hcs c List.mem_cons_self)
      simp only [Char.isDigit, Bool.and_eq_true, decide_eq_true_eq, UInt32.le_iff_toNat_le] at hdigit
      have hsmall : c.toNat ≤ 57 := hdigit.2
      rw [List.map_cons, List.foldl_cons, ih _ fun d hd => hcs d (List.mem_cons_of_mem c hd),
        Utf8.toNat_ofNat (by omega)]
      rfl
  rw [decimalOf?, if_pos hall]
  exact congrArg some ((hstep _ 0 fun _ h => h).trans Nat.ofDigitChars_ten_toDigits)

theorem ascii_repr (n : Nat) : ascii n.repr = decimal n := by
  rw [ascii, Nat.repr_eq_ofList_toDigits, String.toList_ofList]
  rfl

theorem integerOf?_decimal (n : Nat) : integerOf? (decimal n) = some (n : Int) := by
  unfold integerOf?
  split
  · rename_i digits h
    have hsign := mem_decimal (n := n) (b := 45) (h ▸ List.mem_cons_self)
    simp at hsign
  · rw [decimalOf?_decimal]
    rfl

theorem integerOf?_integer (n : Int) : integerOf? (integer n) = some n := by
  cases n with
  | ofNat n => exact (congrArg integerOf? (ascii_repr n)).trans (integerOf?_decimal n)
  | negSucc n =>
    have hsign : integer (.negSucc n) = 45 :: decimal (n + 1) := by
      rw [← ascii_repr]
      show ascii ("-" ++ (n + 1).repr) = _
      simp [ascii]
    rw [hsign, integerOf?, decimalOf?_decimal]
    rfl

def nextLength (rest guess : Nat) : Nat := rest + (decimal guess).length

theorem recordLength_succ (rest fuel guess : Nat) : recordLength rest (fuel + 1) guess =
    if nextLength rest guess = guess then guess else recordLength rest fuel (nextLength rest guess) := rfl

theorem recordLength_of_iterate {rest : Nat} (k : Nat) {fuel guess : Nat} (hk : k < fuel)
    (h : (nextLength rest)^[k + 1] guess = (nextLength rest)^[k] guess) :
    nextLength rest (recordLength rest fuel guess) = recordLength rest fuel guess := by
  obtain ⟨fuel, rfl⟩ : ∃ m, fuel = m + 1 := ⟨fuel - 1, by omega⟩
  rw [recordLength_succ]
  induction k generalizing fuel guess with
  | zero =>
    have hfixed : nextLength rest guess = guess := h
    rw [if_pos hfixed, hfixed]
  | succ k ih =>
    split
    · assumption
    · obtain ⟨fuel, rfl⟩ : ∃ m, fuel = m + 1 := ⟨fuel - 1, by omega⟩
      rw [recordLength_succ]
      exact ih h fuel (by omega)

theorem length_decimal_mono {m n : Nat} (h : m ≤ n) : (decimal m).length ≤ (decimal n).length := by
  have hn := (Nat.length_toDigits_le_iff (b := 10) (by omega) (length_decimal n ▸ length_decimal_pos n)).mp
    (Nat.le_refl _)
  rw [length_decimal, length_decimal]
  exact (Nat.length_toDigits_le_iff (by omega) (length_decimal n ▸ length_decimal_pos n)).mpr (by omega)

theorem length_decimal_add_le (n : Nat) :
    (decimal (n + (decimal n).length)).length ≤ (decimal n).length + 1 := by
  have hpos := length_decimal_pos n
  rw [length_decimal] at *
  have hn := (Nat.length_toDigits_le_iff (by omega) hpos).mp (Nat.le_refl (Nat.toDigits 10 n).length)
  have hdigits := Nat.lt_pow_self (show 1 < 10 by omega) (n := (Nat.toDigits 10 n).length)
  rw [length_decimal, Nat.length_toDigits_le_iff (by omega) (by omega), Nat.pow_succ]
  omega

theorem recordLength_eq (rest : Nat) :
    nextLength rest (recordLength rest 20 0) = recordLength rest 20 0 := by
  refine recordLength_of_iterate 3 (by omega) ?_
  have hfirst : nextLength rest 0 = rest + 1 := rfl
  show nextLength rest (nextLength rest (nextLength rest (nextLength rest 0))) =
    nextLength rest (nextLength rest (nextLength rest 0))
  rw [hfirst]
  -- The number of digits grows from one guess to the next once at most.
  have hpos := length_decimal_pos (rest + 1)
  have hgrow := length_decimal_add_le (rest + 1)
  have h12 : (decimal (rest + 1)).length ≤ (decimal (nextLength rest (rest + 1))).length :=
    length_decimal_mono (by unfold nextLength; omega)
  have h23 : (decimal (nextLength rest (rest + 1))).length ≤
      (decimal (nextLength rest (nextLength rest (rest + 1)))).length :=
    length_decimal_mono (by unfold nextLength at *; omega)
  have h2 : (decimal (nextLength rest (rest + 1))).length ≤ (decimal (rest + 1)).length + 1 :=
    Nat.le_trans (length_decimal_mono (by unfold nextLength; omega)) hgrow
  have h3 : (decimal (nextLength rest (nextLength rest (rest + 1)))).length ≤
      (decimal (rest + 1)).length + 1 :=
    Nat.le_trans (length_decimal_mono (by unfold nextLength at *; omega)) hgrow
  by_cases hsame : (decimal (nextLength rest (rest + 1))).length = (decimal (rest + 1)).length
  · have hfixed : nextLength rest (nextLength rest (rest + 1)) = nextLength rest (rest + 1) :=
      congrArg (rest + ·) hsame
    rw [hfixed, hfixed]
  · exact congrArg (rest + ·) (by omega)

theorem length_extendedRecord (key value : Bytes) : (extendedRecord key value).length =
    recordLength (key.length + value.length + 3) 20 0 := by
  have heq := recordLength_eq (key.length + value.length + 3)
  simp only [nextLength] at heq
  simp only [extendedRecord, List.length_append, List.length_cons, List.length_nil]
  omega

theorem length_extendedRecord_le (key value : Bytes) :
    (extendedRecord key value).length ≤ 2 * (key.length + value.length + 3) := by
  have heq := recordLength_eq (key.length + value.length + 3)
  rw [length_extendedRecord]
  generalize hn : recordLength (key.length + value.length + 3) 20 0 = n at heq
  unfold nextLength at heq
  obtain hone | ⟨d, hd⟩ : (decimal n).length ≤ 1 ∨ ∃ d, (decimal n).length = d + 2 := by
    rcases h : (decimal n).length with _ | _ | d <;> simp
  · omega
  · have hmany : ¬ n < 10 ^ (d + 1) := fun hlt => by
      have hle := (Nat.length_toDigits_le_iff (n := n) (by omega) (by omega)).mpr hlt
      rw [← length_decimal] at hle
      omega
    have hpow := Nat.lt_pow_self (show 1 < 10 by omega) (n := d)
    rw [Nat.pow_succ] at hmany
    omega

theorem readRecords_step {bs body : Bytes} {length : Nat} (fuel : Nat) (hpos : 0 < length)
    (hlen : length ≤ bs.length) (hread : decimalOf? (bs.takeWhile (· ≠ 32)) = some length)
    (hbody : ((bs.take length).dropWhile (· ≠ 32)).drop 1 = body ++ [10]) :
    readRecords (fuel + 1) bs = (readRecords fuel (bs.drop length)).map
      ((body.takeWhile (· ≠ 61), (body.dropWhile (· ≠ 61)).drop 1) :: ·) := by
  have hne : bs ≠ [] := by
    rintro rfl
    exact absurd hlen (Nat.not_le_of_lt hpos)
  have hgood : ¬ (length = 0 || bs.length < length || (body ++ [10]).getLast? ≠ some 10) = true := by
    simp
    omega
  rw [readRecords, hread]
  · show (if _ then _ else _) = _
    rw [hbody, if_neg hgood, List.dropLast_concat]
    cases readRecords fuel (bs.drop length) <;> rfl
  · exact hne

theorem readRecords_cons {key : Bytes} (hk : 61 ∉ key) (value : Bytes) (fuel : Nat) (bs : Bytes) :
    readRecords (fuel + 1) (extendedRecord key value ++ bs) =
      (readRecords fuel bs).map ((key, value) :: ·) := by
  obtain ⟨length, hlength⟩ : ∃ n, n = recordLength (key.length + value.length + 3) 20 0 := ⟨_, rfl⟩
  have hlen : (extendedRecord key value).length = length := hlength ▸ length_extendedRecord key value
  have hrecord : extendedRecord key value = decimal length ++ 32 :: (key ++ 61 :: value ++ [10]) := by
    simp [extendedRecord, ← hlength]
  have hdigits : ∀ b ∈ decimal length, decide (b ≠ 32) = true := by
    intro b hb
    have hrange := mem_decimal hb
    rw [decide_eq_true_eq]
    rintro rfl
    simp at hrange
  have hkey : ∀ b ∈ key, decide (b ≠ 61) = true := by
    intro b hb
    rw [decide_eq_true_eq]
    rintro rfl
    exact hk hb
  have hread : (extendedRecord key value ++ bs).takeWhile (· ≠ 32) = decimal length := by
    rw [hrecord, List.append_assoc, List.takeWhile_append_of_pos hdigits]
    simp
  have hbody : (((extendedRecord key value ++ bs).take length).dropWhile (· ≠ 32)).drop 1 =
      key ++ 61 :: value ++ [10] := by
    rw [List.take_left' hlen, hrecord, List.dropWhile_append_of_pos hdigits]
    simp
  have hpos : 0 < length := by
    rw [← hlen, hrecord, List.length_append, List.length_cons]
    omega
  have hname : (key ++ 61 :: value).takeWhile (· ≠ 61) = key := by
    rw [List.takeWhile_append_of_pos hkey]
    simp
  have hvalue : ((key ++ 61 :: value).dropWhile (· ≠ 61)).drop 1 = value := by
    rw [List.dropWhile_append_of_pos hkey]
    simp
  rw [readRecords_step fuel hpos (by rw [List.length_append]; omega) (by rw [hread, decimalOf?_decimal]) hbody,
    hname, hvalue, List.drop_left' hlen]

theorem length_records_le (records : List (Bytes × Bytes)) :
    records.length ≤ (records.flatMap fun r => extendedRecord r.1 r.2).length := by
  induction records with
  | nil => exact Nat.le_refl 0
  | cons record records ih =>
    have hpos : 0 < (extendedRecord record.1 record.2).length := by
      simp only [extendedRecord, List.length_append, List.length_cons]
      omega
    rw [List.flatMap_cons, List.length_append, List.length_cons]
    omega

theorem readRecords_flatMap {records : List (Bytes × Bytes)} (hk : ∀ record ∈ records, 61 ∉ record.1)
    {fuel : Nat} (hfuel : records.length < fuel) :
    readRecords fuel (records.flatMap fun r => extendedRecord r.1 r.2) = some records := by
  induction records generalizing fuel with
  | nil =>
    obtain ⟨fuel, rfl⟩ : ∃ m, fuel = m + 1 := ⟨fuel - 1, by omega⟩
    rfl
  | cons record records ih =>
    obtain ⟨fuel, rfl⟩ : ∃ m, fuel = m + 1 := ⟨fuel - 1, by omega⟩
    have hrest : readRecords fuel (records.flatMap fun r => extendedRecord r.1 r.2) = some records :=
      ih (fun record hr => hk record (List.mem_cons_of_mem _ hr)) (by simpa using hfuel)
    rw [List.flatMap_cons, readRecords_cons (hk record List.mem_cons_self), hrest]
    rfl

end Playpen.Archive
