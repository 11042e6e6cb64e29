import Playpen.Proofs.Archive.Extended

namespace Playpen.Archive

open Utf8 (Bytes)

structure Storable (a : Archive) : Prop where
  name : '\x00' ∉ a.name.toList
  mode : a.mode < 0o10000000
  writable : a.isWritable = true

theorem isWritable_of_length {a : Archive} (h : (Utf8.encodeString a.name).length +
    (Nat.toDigits 10 a.data.length).length + (toString a.mtime).length ≤ 4000000000) : a.isWritable = true := by
  have hdate : (integer a.mtime).length = (toString a.mtime).length := by
    rw [integer, ascii, List.length_map, String.length_toList]
  rw [← length_decimal, ← hdate] at h
  have hpath := length_extendedRecord_le (ascii "path") (Utf8.encodeString a.name)
  have hsize := length_extendedRecord_le (ascii "size") (decimal a.data.length)
  have hmtime := length_extendedRecord_le (ascii "mtime") (integer a.mtime)
  have hkeys : (ascii "path").length = 4 ∧ (ascii "size").length = 4 ∧ (ascii "mtime").length = 5 := by decide
  have hbody : (extendedBody a).length < octalLimit := by
    unfold extendedBody extended octalLimit
    split_ifs <;> simp [List.flatMap_cons] <;> omega
  simpa [isWritable, fitsOctal] using hbody

theorem length_plain (name : String) : (plain name).length = name.length := by
  rw [plain, List.length_map, String.length_toList]

theorem plain_eq {name : String} (h : isPlain name = true) : plain name = Utf8.encodeString name := by
  have hchar : ∀ c ∈ name.toList, [if c.toNat < 128 then UInt8.ofNat c.toNat else 63] =
      String.utf8EncodeChar c := by
    intro c hc
    have hsmall : c.toNat < 128 := by simpa using List.all_eq_true.mp h c hc
    have hc := Utf8.encode_ascii (a := UInt8.ofNat c.toNat) (by rw [Utf8.toNat_ofNat (by omega)]; exact hsmall)
    rw [Utf8.toNat_ofNat (by omega), Char.ofNat_toNat] at hc
    rw [if_pos hsmall, hc]
  rw [plain, Utf8.encodeString, Utf8.encode, List.map_eq_flatMap]
  exact congrArg List.flatten (List.map_congr_left hchar)

theorem zero_not_mem_plain {name : String} (h : '\x00' ∉ name.toList) : 0 ∉ plain name := by
  intro h0
  obtain ⟨c, hc, heq⟩ := List.mem_map.mp h0
  split at heq
  · rename_i hsmall
    have hzero : c.toNat = 0 := by
      have := congrArg UInt8.toNat heq
      rwa [Utf8.toNat_ofNat (by omega)] at this
    have hnul : c = '\x00' := by
      rw [← Char.ofNat_toNat c, hzero]
    exact h (hnul ▸ hc)
  · simp at heq

section

variable (a : Archive)

theorem lookup_path : (extended a).lookup pathKey =
    if isPlain a.name && a.name.length ≤ 100 then none else some (Utf8.encodeString a.name) := by
  unfold extended
  split_ifs <;> rfl

theorem lookup_size : (extended a).lookup sizeKey =
    if fitsOctal a.data.length then none else some (decimal a.data.length) := by
  unfold extended
  split_ifs <;> rfl

theorem lookup_mtime : (extended a).lookup mtimeKey =
    if fitsOctal a.mtime then none else some (integer a.mtime) := by
  unfold extended
  split_ifs <;> rfl

theorem keys_extended : ∀ record ∈ extended a, 61 ∉ record.1 := by
  unfold extended
  split_ifs <;> simp [ascii]

end

variable {a : Archive}

theorem header_fits (h : a.Storable) : (header a).Fits where
  name := zero_not_mem_plain h.name
  mode := h.mode
  size := by
    unfold header
    dsimp only
    split_ifs with hs
    · simpa [fitsOctal] using hs
    · decide
  mtime := by
    unfold header
    dsimp only
    split_ifs with hm
    · simp only [fitsOctal, Bool.and_eq_true, decide_eq_true_eq] at hm
      omega
    · decide

theorem length_padding (unit n : Nat) : (padding unit n).length = (unit - n % unit) % unit := length_zeros _

theorem drop_blocks {bs : Bytes} (rest : Bytes) :
    (bs ++ padding blockSize bs.length ++ rest).drop (blocks bs.length) = rest := by
  apply List.drop_left'
  rw [List.length_append, length_padding, blocks, blockSize]
  omega

theorem drop_block (h : Header) (bs rest : Bytes) :
    (h.block ++ bs ++ padding blockSize bs.length ++ rest).drop (512 + blocks bs.length) = rest := by
  rw [← List.drop_drop, List.append_assoc, List.append_assoc, List.drop_left' h.length_block,
    ← List.append_assoc, drop_blocks]

theorem cut_data (h : Header) (bs rest : Bytes) :
    cut 512 bs.length (h.block ++ bs ++ rest) = bs := by
  rw [List.append_assoc, cut_append_right (Nat.le_of_eq h.length_block), h.length_block, Nat.sub_self,
    cut_append_left rfl]

theorem name_extended (a : Archive) :
    Utf8.decode? (((extended a).lookup pathKey).getD ((header a).name.take 100)) =
      some a.name.toList := by
  rw [lookup_path]
  split_ifs with hp
  · rw [Bool.and_eq_true, decide_eq_true_eq] at hp
    have hshort : (plain a.name).take 100 = plain a.name :=
      List.take_of_length_le (by rw [length_plain]; exact hp.2)
    rw [Option.getD_none, header, hshort, plain_eq hp.1]
    exact Utf8.decode?_encode _
  · exact Utf8.decode?_encode _

theorem sizeWith_extended (a : Archive) (name : Bytes) :
    sizeWith (extended a) { header a with name } = some a.data.length := by
  rw [sizeWith, lookup_size]
  split_ifs with hs
  · simp only [header, if_pos hs]
  · exact decimalOf?_decimal _

theorem mtimeWith_extended (a : Archive) (name : Bytes) :
    mtimeWith (extended a) { header a with name } = some a.mtime := by
  rw [mtimeWith, lookup_mtime]
  split_ifs with hm
  · have hpos : 0 ≤ a.mtime := by
      simp only [fitsOctal, Bool.and_eq_true, decide_eq_true_eq] at hm
      exact hm.1
    simp only [header, if_pos hm]
    rw [Int.toNat_of_nonneg hpos]
  · exact integerOf?_integer _

theorem readFile_extended (h : a.Storable) (rest : Bytes) :
    readFile (extended a) ((header a).block ++ a.data ++ padding blockSize a.data.length ++ rest) =
      some (a, rest) := by
  have hheader := readHeader_block (header_fits h) (a.data ++ padding blockSize a.data.length ++ rest)
  rw [← List.append_assoc, ← List.append_assoc] at hheader
  have hdata := cut_data (header a) a.data (padding blockSize a.data.length ++ rest)
  rw [← List.append_assoc] at hdata
  have htype : (decide ((header a).type = 48) && decide True) = true := rfl
  simp only [readFile, hheader, Option.bind_eq_bind, Option.bind_some, name_extended, sizeWith_extended,
    mtimeWith_extended, hdata, drop_block]
  rw [if_pos htype, String.ofList_toList]
  rfl

theorem extended_eq_nil (h : (extendedBody a).isEmpty = true) : extended a = [] := by
  have hlen := length_records_le (extended a)
  rw [← extendedBody, List.isEmpty_iff.mp h] at hlen
  exact List.length_eq_zero_iff.mp (Nat.le_zero.mp hlen)

theorem extended_fits (h : a.Storable) : (Header.extended (extendedBody a).length).Fits where
  name := show 0 ∉ ascii "././@PaxHeader" by decide
  mode := show 0 < 0o10000000 by decide
  size := show (extendedBody a).length < octalLimit by simpa [isWritable, fitsOctal] using h.writable
  mtime := show 0 < octalLimit by decide

theorem readMember_content (h : a.Storable) (rest : Bytes) :
    readMember (content a ++ rest) = some (a, rest) := by
  have hfile := readFile_extended h rest
  by_cases hbody : (extendedBody a).isEmpty = true
  · have hheader := readHeader_block (header_fits h) (a.data ++ padding blockSize a.data.length ++ rest)
    rw [← List.append_assoc, ← List.append_assoc] at hheader
    have hcontent : content a = (header a).block ++ a.data ++ padding blockSize a.data.length := by
      rw [content, extendedHeader, if_pos hbody, List.nil_append]
    have htype : ¬ (header a).type = 120 := by simp [header]
    rw [extended_eq_nil hbody] at hfile
    rw [hcontent, readMember, hheader, Option.bind_eq_bind, Option.bind_some, if_neg htype, hfile]
  · obtain ⟨behind, hbehind⟩ : ∃ bs, bs = (header a).block ++ a.data ++ padding blockSize a.data.length ++ rest :=
      ⟨_, rfl⟩
    have hcontent : content a ++ rest = (Header.extended (extendedBody a).length).block ++ extendedBody a ++
        padding blockSize (extendedBody a).length ++ behind := by
      rw [content, extendedHeader, if_neg hbody, hbehind]
      simp only [List.append_assoc]
    have hheader := readHeader_block (extended_fits h)
      (extendedBody a ++ padding blockSize (extendedBody a).length ++ behind)
    rw [← List.append_assoc, ← List.append_assoc] at hheader
    have hcut := cut_data (Header.extended (extendedBody a).length) (extendedBody a)
      (padding blockSize (extendedBody a).length ++ behind)
    rw [← List.append_assoc] at hcut
    have hrecords : readRecords ((extendedBody a).length + 1) (extendedBody a) = some (extended a) :=
      readRecords_flatMap (keys_extended a) (Nat.lt_succ_of_le (length_records_le (extended a)))
    have hsize : (Header.extended (extendedBody a).length).size = (extendedBody a).length := rfl
    have htype : (Header.extended (extendedBody a).length).type = 120 := rfl
    rw [hcontent, readMember, hheader, Option.bind_eq_bind, Option.bind_some]
    simp only [hsize, htype, ↓reduceIte, hcut, hrecords, drop_block]
    rw [Option.bind_eq_bind, Option.bind_some, ← hfile, hbehind]

theorem files?_zeros {n : Nat} (h : 2 * 512 ≤ n) : files? (zeros n) = some [] := by
  have hall : (zeros n).all (· = 0) = true := by simp [zeros]
  rw [files?, if_pos hall, length_zeros, if_pos h]

theorem length_pos_of_content (a : Archive) : 0 < (content a).length := by
  simp only [content, List.length_append, Header.length_block, blockSize]
  omega

theorem content_not_zero (a : Archive) (rest : Bytes) : ¬ (content a ++ rest).all (· = 0) = true := by
  -- The type of a file's header is not zero.
  have htype : (48 : UInt8) ∈ (header a).block := by
    refine List.mem_append_right _ ?_
    exact List.mem_cons_self
  intro h
  have hzero := List.all_eq_true.mp h 48 (List.mem_append_left _ (by simp [content, htype]))
  simp at hzero

theorem files?_encode (h : a.Storable) : files? (encode a) = some [a] := by
  obtain ⟨n, hn, hzeros⟩ : ∃ n, 2 * 512 ≤ n ∧ encode a = content a ++ zeros n := by
    refine ⟨2 * blockSize + (recordSize - (content a ++ zeros (2 * blockSize)).length % recordSize) % recordSize,
      Nat.le_add_right _ _, ?_⟩
    rw [encode, padding, List.append_assoc]
    exact congrArg _ (List.replicate_append_replicate)
  have hshorter : (zeros n).length < (content a ++ zeros n).length := by
    have hpos := length_pos_of_content a
    rw [List.length_append]
    omega
  rw [hzeros, files?, if_neg (content_not_zero a _), readMember_content h]
  simp only [hshorter, ↓reduceIte, files?_zeros hn, Option.map_some]

theorem length_encode (a : Archive) : 0 < (encode a).length ∧ (encode a).length % recordSize = 0 := by
  have hpos := length_pos_of_content a
  have hlen : (encode a).length = ((content a).length + 1024) +
      (10240 - ((content a).length + 1024) % 10240) % 10240 := by
    simp [encode, length_padding, blockSize, recordSize, Nat.add_assoc]
  rw [hlen, recordSize]
  omega

end Playpen.Archive
