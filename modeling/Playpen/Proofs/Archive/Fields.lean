import Playpen.Archive.Reader
import Playpen.Proofs.Text.Utf8

namespace Playpen.Archive

open Utf8 (Bytes)

@[simp]
theorem length_zeros (n : Nat) : (zeros n).length = n := List.length_replicate

@[simp]
theorem length_octalDigits (width n : Nat) : (octalDigits width n).length = width := by
  induction width generalizing n with
  | zero => rfl
  | succ width ih => simp [octalDigits, ih]

theorem length_number {width : Nat} (h : 0 < width) (n : Nat) : (number width n).length = width := by
  simp only [number, List.length_append, length_octalDigits, List.length_singleton]
  omega

@[simp]
theorem length_field (width : Nat) (bs : Bytes) : (field width bs).length = width := by
  simp only [field, List.length_append, List.length_take, length_zeros]
  omega

theorem mem_octalDigits {width n : Nat} {b : UInt8} (h : b ∈ octalDigits width n) :
    48 ≤ b.toNat ∧ b.toNat ≤ 55 := by
  induction width generalizing n with
  | zero => simp [octalDigits] at h
  | succ width ih =>
    rcases List.mem_append.mp h with h | h
    · exact ih h
    · obtain rfl := List.mem_singleton.mp h
      rw [Utf8.toNat_ofNat (by omega)]
      omega

theorem octal?_octalDigits (width n : Nat) : octal? (octalDigits width n) = some (n % Nat.pow 8 width) := by
  have hall : (octalDigits width n).all (fun b => 48 ≤ b && b ≤ 55) = true := by
    rw [List.all_eq_true]
    intro b hb
    simpa [UInt8.le_iff_toNat_le] using mem_octalDigits hb
  have hvalue : (octalDigits width n).foldl (fun n b => 8 * n + (b.toNat - 48)) 0 = n % Nat.pow 8 width := by
    induction width generalizing n with
    | zero => simp [octalDigits, Nat.mod_one]
    | succ width ih =>
      have hshort : (octalDigits width (n / 8)).all (fun b => 48 ≤ b && b ≤ 55) = true := by
        simp only [octalDigits, List.all_append, Bool.and_eq_true] at hall
        exact hall.1
      have hpow : Nat.pow 8 (width + 1) = 8 * Nat.pow 8 width := Nat.pow_succ'
      rw [octalDigits, List.foldl_append, ih (n / 8) hshort, List.foldl_cons, List.foldl_nil,
        Utf8.toNat_ofNat (by omega), hpow, Nat.mod_mul]
      omega
  rw [octal?, if_pos hall, hvalue]

theorem readNumber_octalDigits {width n : Nat} (h : n < Nat.pow 8 width) {stop : UInt8}
    (hstop : stop = 0 ∨ stop = 32) (rest : Bytes) :
    readNumber (octalDigits width n ++ stop :: rest) = some n := by
  have hdigits : ∀ b ∈ octalDigits width n, (decide (b ≠ 0) && decide (b ≠ 32)) = true := by
    intro b hb
    have hrange := mem_octalDigits hb
    simp only [Bool.and_eq_true, decide_eq_true_eq]
    constructor <;> rintro rfl <;> simp at hrange
  have hend : (stop :: rest).takeWhile (fun b => b ≠ 0 && b ≠ 32) = [] := by
    rcases hstop with rfl | rfl <;> rfl
  rw [readNumber, List.takeWhile_append_of_pos hdigits, hend, List.append_nil, octal?_octalDigits,
    Nat.mod_eq_of_lt h]

theorem readNumber_number {width n : Nat} (h : n < Nat.pow 8 (width - 1)) : readNumber (number width n) = some n :=
  readNumber_octalDigits h (.inl rfl) []

theorem byteSum_cons (b : UInt8) (bs : Bytes) : byteSum (b :: bs) = b.toNat + byteSum bs := rfl

theorem checksum_eq (bs : Bytes) : checksum bs = byteSum bs := by
  have hfrom (n : Nat) : bs.foldl (fun n b => n + b.toNat) n = n + byteSum bs := by
    induction bs generalizing n with
    | nil => rfl
    | cons b bs ih => rw [List.foldl_cons, ih, byteSum_cons, Nat.add_assoc]
  rw [checksum, hfrom, Nat.zero_add]

theorem byteSum_append (as bs : Bytes) : byteSum (as ++ bs) = byteSum as + byteSum bs := by
  induction as with
  | nil => exact (Nat.zero_add _).symm
  | cons a as ih => rw [List.cons_append, byteSum_cons, ih, byteSum_cons, Nat.add_assoc]

theorem checksum_le (bs : Bytes) : checksum bs ≤ 255 * bs.length := by
  rw [checksum_eq]
  induction bs with
  | nil => exact Nat.le_refl 0
  | cons b bs ih =>
    have hb := b.toNat_lt
    rw [byteSum_cons, List.length_cons]
    omega

theorem upToZero_field {width : Nat} {bs : Bytes} (h : 0 ∉ bs) :
    upToZero (field width bs) = bs.take width := by
  have hpart : ∀ b ∈ bs.take width, decide (b ≠ 0) = true := by
    intro b hb
    rw [decide_eq_true_eq]
    rintro rfl
    exact h (List.mem_of_mem_take hb)
  have hzeros (n : Nat) : (zeros n).takeWhile (· ≠ 0) = [] := by
    cases n <;> simp [zeros, List.replicate_succ]
  rw [upToZero, field, List.takeWhile_append_of_pos hpart, hzeros, List.append_nil]

section

variable {start length : Nat} {pre mid bs : Bytes}

theorem cut_append_right (h : pre.length ≤ start) :
    cut start length (pre ++ bs) = cut (start - pre.length) length bs := by
  rw [cut, List.drop_append, List.drop_eq_nil_of_le h, List.nil_append]
  rfl

theorem cut_append_left (h : mid.length = length) : cut 0 length (mid ++ bs) = mid := by
  rw [cut, List.drop_zero, List.take_left' h]

theorem readNumber_cut {width n : Nat} (hs : pre.length = start) (hw : 0 < width)
    (hn : n < Nat.pow 8 (width - 1)) :
    readNumber (cut start width (pre ++ (number width n ++ bs))) = some n := by
  rw [cut_append_right (Nat.le_of_eq hs), hs, Nat.sub_self, cut_append_left (length_number hw n),
    readNumber_number hn]

end

namespace Header

variable {h : Header}

theorem length_before (h : Header) : h.before.length = 148 := by
  simp [before, length_number]

theorem length_after (h : Header) : h.after.length = 356 := by
  simp [after, ascii]

theorem length_block (h : Header) : h.block.length = 512 := by
  simp [block, length_before, length_after]

theorem cut_before {start length : Nat} (hb : start + length ≤ 148) :
    cut start length h.block = cut start length h.before := by
  have hlen := h.length_before
  rw [block, List.append_assoc, List.append_assoc, cut, List.drop_append_of_le_length (by omega),
    List.take_append_of_le_length (by rw [List.length_drop]; omega)]
  rfl

theorem cut_after {start length : Nat} (hs : 156 ≤ start) :
    cut start length h.block = cut (start - 156) length h.after := by
  have hlen : (h.before ++ octalDigits 6 (checksum (h.before ++ blanks ++ h.after)) ++ [0, 32]).length = 156 := by
    simp [length_before]
  rw [block, cut_append_right (by omega), hlen]

theorem cut_checksum :
    cut 148 8 h.block = octalDigits 6 (checksum (h.before ++ blanks ++ h.after)) ++ [0, 32] := by
  rw [block, List.append_assoc, List.append_assoc, cut_append_right (Nat.le_of_eq h.length_before),
    length_before, ← List.append_assoc, cut_append_left (by simp)]

theorem blockSum_block (h : Header) : blockSum h.block = checksum (h.before ++ blanks ++ h.after) := by
  have hbefore : h.block.take 148 = h.before := by
    rw [block, List.append_assoc, List.append_assoc, List.take_left' h.length_before]
  have hafter : h.block.drop 156 = h.after := by
    rw [block, List.drop_left' (by simp [length_before])]
  have hblanks : byteSum blanks = 8 * 32 := by decide
  rw [blockSum, hbefore, hafter, checksum_eq, byteSum_append, byteSum_append, hblanks]

theorem hasChecksum_block (h : Header) : hasChecksum h.block = true := by
  have hsum : checksum (h.before ++ blanks ++ h.after) < 0o1000000 := by
    have hle := checksum_le (h.before ++ blanks ++ h.after)
    have hlen : (h.before ++ blanks ++ h.after).length = 512 := by
      simp [length_before, length_after, blanks]
    omega
  rw [hasChecksum, cut_checksum, readNumber_octalDigits hsum (.inl rfl), blockSum_block, beq_self_eq_true]

structure Fits (h : Header) : Prop where
  name : 0 ∉ h.name
  mode : h.mode < 0o10000000
  size : h.size < octalLimit
  mtime : h.mtime < octalLimit

end Header

theorem readHeader_block {h : Header} (hf : h.Fits) (rest : Bytes) :
    readHeader (h.block ++ rest) = some { h with name := h.name.take 100 } := by
  have hblock : (h.block ++ rest).take 512 = h.block := List.take_left' h.length_block
  have hname : cut 0 100 h.block = field 100 h.name := by
    rw [Header.cut_before (by omega), Header.before]
    simp only [List.append_assoc]
    exact cut_append_left (length_field 100 h.name)
  have hmode : readNumber (cut 100 8 h.block) = some h.mode := by
    rw [Header.cut_before (by omega), Header.before]
    simp only [List.append_assoc]
    exact readNumber_cut (length_field 100 h.name) (by omega) hf.mode
  have hsize : readNumber (cut 124 12 h.block) = some h.size := by
    rw [Header.cut_before (by omega), Header.before, List.append_assoc]
    exact readNumber_cut (by simp [length_number]) (by omega) hf.size
  have hmtime : readNumber (cut 136 12 h.block) = some h.mtime := by
    rw [Header.cut_before (by omega), Header.before, ← List.append_nil (number 12 h.mtime)]
    exact readNumber_cut (by simp [length_number]) (by omega) hf.mtime
  have htype : cut 156 1 h.block = [h.type] := by
    rw [Header.cut_after (by omega)]
    rfl
  have hmagic : cut 257 8 h.block = magic := by
    rw [Header.cut_after (by omega)]
    rfl
  simp [readHeader, hblock, Header.length_block, Header.hasChecksum_block, hname, hmode, hsize, hmtime, htype,
    hmagic, upToZero_field hf.name]

end Playpen.Archive
